import RtspPush.Delivery.Registry

/-!
# No lost wake-up

Many pushes coalesce into one pending trigger and a handler pops at most one NALU, so a stream
stays alive only if every request that finds the queue empty is followed by a signal. `Awake` is
the invariant behind it: while NALUs are queued, a source that waits for data has an event on the
way (`Signalled`) or is being served. A push that lands at any point reaches every registered
reader before it gives the queue's mutex back, and the only step that takes an event off a source
is the one that begins its `deliverFrame`.
-/

namespace RtspPush.Delivery

open Lib

variable {ε : Type}

namespace State

/-- A source that can be signalled and awaits data: it has a trigger, its constructor has
returned and its destructor has not begun. -/
def Waiting (s : State ε) (src : SourceId) : Prop :=
  ((s.sources src).alive = true ∧ (s.sources src).frameArrivedTrigger ≠ 0 ∧
      s.call ≠ .constructing src ∧ s.call ≠ .unregistering src ∧ s.call ≠ .deletingTrigger src) ∧
    (s.sources src).fIsCurrentlyAwaitingData = true

/-- The `frameArrivedTrigger_` of the source is pending. -/
def Pending (s : State ε) (src : SourceId) : Prop :=
  (s.schedulers (s.sources src).scheduler).triggers (s.sources src).frameArrivedTrigger =
    some ⟨.frameArrivedCallback, some src⟩

/-- A push is inside its mutex section and has yet to trigger the source. -/
def ToWake (s : State ε) (src : SourceId) : Prop :=
  ∃ e wakes, s.pushing = some (e, wakes) ∧ s.reader src ∈ wakes

/-- An event for the source is on the way: pending, still to be raised by a push, or taken by the
event loop, which is in `deliverFrame` before `popNalu`. -/
def Signalled (s : State ε) (src : SourceId) : Prop :=
  s.Pending src ∨ s.ToWake src ∨ s.call = .delivering src

/-- The event-loop thread has popped a NALU for the source and is about to hand it over. -/
def Handing (s : State ε) (src : SourceId) : Prop := ∃ nalu, s.call = .handing src nalu

/-- No source waits for data with data queued and no event on the way. -/
structure Awake (s : State ε) : Prop where
  woken : s.frameQueue.queue ≠ [] → ∀ src, s.Waiting src → s.Signalled src ∨ s.Handing src
  constructing : ∀ src, s.call = .constructing src →
    (s.sources src).fIsCurrentlyAwaitingData = false

variable {s : State ε}

theorem Waiting.registered {src : SourceId} (h : s.Waiting src) : s.Registered src :=
  ⟨⟨h.1.1, h.1.2.1⟩, h.1.2.2.1, h.1.2.2.2.2⟩

/-- Raising or deleting another trigger leaves the event of a source alone. -/
theorem Pending.of_ne {src : SourceId} {i : EventTriggerId} (h : s.Pending src)
    (hne : (s.sources src).frameArrivedTrigger ≠ i) (id : SchedulerId)
    (trigger : Option EventTrigger) :
    (s.setScheduler id ((s.schedulers id).setTrigger i trigger)).Pending src := by
  unfold Pending at h ⊢
  by_cases hid : (s.sources src).scheduler = id <;>
    simpa [hid, hne] using h

/-- Where no source exists, none waits. -/
theorem Awake.of_no_source (hnone : ∀ src, (s.sources src).alive = false)
    (hconstructing : ∀ src, s.call = .constructing src →
      (s.sources src).fIsCurrentlyAwaitingData = false) : s.Awake where
  woken _ src h := by
    have halive := h.1.1
    rw [hnone src] at halive
    cases halive
  constructing := hconstructing

namespace Awake

/-- A trigger changes that belongs to no waiting source, but for one in `deliverFrame`. -/
theorem setTrigger (ha : s.Awake) {i : EventTriggerId}
    (hother : ∀ src, s.Waiting src → s.call ≠ .delivering src →
      (s.sources src).frameArrivedTrigger ≠ i)
    (id : SchedulerId) (trigger : Option EventTrigger) :
    (s.setScheduler id ((s.schedulers id).setTrigger i trigger)).Awake where
  woken hqueue src h := by
    by_cases hcall : s.call = .delivering src
    · exact Or.inl (Or.inr (Or.inr hcall))
    rcases ha.woken hqueue src h with (hpending | hrest) | hhanding
    · exact Or.inl (Or.inl (hpending.of_ne (hother src h hcall) id trigger))
    · exact Or.inl (Or.inr hrest)
    · exact Or.inr hhanding
  constructing := ha.constructing

theorem push (hw : s.Wired) (ha : s.Awake) (e : ε) (data : Option (List UInt8))
    (timestampUs : UInt64) :
    Awake { s with
      frameQueue := (s.frameQueue.pushAnnexBFrame data timestampUs).1
      pushing := some (e, s.frameQueue.readers) } where
  woken _ src h :=
    Or.inl (Or.inr (Or.inl ⟨e, _, rfl, (hw.mem_readers _).mpr ⟨src, Waiting.registered h, rfl⟩⟩))
  constructing := ha.constructing

theorem wake (hw : s.Wired) (ha : s.Awake) {e : ε} {r : Reader} {wakes : List Reader}
    (hpushing : s.pushing = some (e, r :: wakes)) :
    Awake { s.setScheduler r.scheduler
        ((s.schedulers r.scheduler).triggerEvent r.triggerId r.clientData) with
      pushing := some (e, wakes) } := by
  obtain ⟨halive, hscheduler, -, htrigger, pending, hpending⟩ :=
    hw.wake_target hpushing List.mem_cons_self
  rw [TaskScheduler.triggerEvent_eq hpending]
  refine ⟨fun hqueue src h => ?_, ha.constructing⟩
  have hsrc : s.Waiting src := h
  by_cases hsame : src = r.clientData
  · -- this source's own trigger is raised
    subst hsame
    left
    left
    have heq := Option.some.inj ((hw.source_scheduler _ halive).symm.trans hscheduler)
    simp [Pending, heq, htrigger]
  · have hne : (s.sources src).frameArrivedTrigger ≠ r.triggerId := fun heq =>
      hsame (hw.distinct src _ hsrc.1.1 halive (heq.trans htrigger.symm) hsrc.1.2.1)
    rcases ha.woken hqueue src hsrc with (hp | ⟨e', wakes', hwake, hmem⟩ | hdelivering) | hhanding
    · exact Or.inl (Or.inl (hp.of_ne hne _ _))
    · rw [hpushing] at hwake
      cases hwake
      rcases List.mem_cons.mp hmem with hhead | hmem
      · exact absurd (congrArg Reader.clientData hhead) hsame
      · exact Or.inl (Or.inr (Or.inl ⟨e, wakes, rfl, hmem⟩))
    · exact Or.inl (Or.inr (Or.inr hdelivering))
    · exact Or.inr hhanding

/-- Of the calls about a source, those it may wait in serve it. -/
theorem served_of_source {call : Call} {src : SourceId} (h : call.source? = some src)
    (hcalls : call ≠ .constructing src ∧ call ≠ .unregistering src ∧
      call ≠ .deletingTrigger src) : call = .delivering src ∨ ∃ nalu, call = .handing src nalu := by
  cases call with
  | idle => cases h
  | constructing i => exact absurd (congrArg Call.constructing (Option.some.inj h)) hcalls.1
  | delivering i => exact Or.inl (congrArg Call.delivering (Option.some.inj h))
  | handing i nalu =>
    exact Or.inr ⟨nalu, congrArg (Call.handing · nalu) (Option.some.inj h)⟩
  | unregistering i => exact absurd (congrArg Call.unregistering (Option.some.inj h)) hcalls.2.1
  | deletingTrigger i =>
    exact absurd (congrArg Call.deletingTrigger (Option.some.inj h)) hcalls.2.2

theorem setQueue (ha : s.Awake) {frameQueue : H264FrameQueue}
    (hqueue : frameQueue.queue ≠ [] → s.frameQueue.queue ≠ []) :
    Awake { s with frameQueue := frameQueue } where
  woken hne := ha.woken (hqueue hne)
  constructing := ha.constructing

/-- The event-loop thread changes one source and goes on to another call; the call it comes from
was about that source or about none. All other sources keep their event. -/
theorem update (ha : s.Awake) (src : SourceId) (source : MyH264Source) (call : Call)
    (hold : s.call = .idle ∨ s.call.source? = some src)
    (hsrc : call.source? = some src ∨ s.frameQueue.queue = [] ∨ source.alive = false ∨
      source.fIsCurrentlyAwaitingData = false)
    (hconstructing : ∀ i, call = .constructing i →
      i = src ∧ source.fIsCurrentlyAwaitingData = false) :
    Awake { s.setSource src source with call := call } := by
  refine ⟨fun hqueue i h => ?_, fun i hi => ?_⟩
  · by_cases hi : i = src
    · subst hi
      obtain ⟨⟨halive, -, hcalls⟩, hawaiting⟩ := h
      simp only [State.setSource, if_true] at halive hawaiting
      rcases hsrc with hserved | hempty | hdead | hnot
      · exact (served_of_source hserved hcalls).imp (fun h => Or.inr (Or.inr h)) id
      · exact absurd hempty hqueue
      · simp [hdead] at halive
      · simp [hnot] at hawaiting
    have hcall : ∀ c, s.call = c → c.source? ≠ some i := by
      rintro _ rfl hsource
      rcases hold with hidle | hsome
      · rw [hidle] at hsource
        cases hsource
      · rw [hsome] at hsource
        exact hi (Option.some.inj hsource).symm
    have hsame : ((s.setSource src source).sources i) = s.sources i := by simp [hi]
    obtain ⟨⟨halive, htrigger, -⟩, hawaiting⟩ := h
    simp only [hsame] at halive htrigger hawaiting
    have hwas : s.Waiting i := ⟨⟨halive, htrigger, fun hc => hcall _ hc rfl,
      fun hc => hcall _ hc rfl, fun hc => hcall _ hc rfl⟩, hawaiting⟩
    rcases ha.woken hqueue i hwas with (hpending | hwake | hdelivering) | ⟨nalu, hhanding⟩
    · left
      left
      unfold Pending at hpending ⊢
      simp only [hsame]
      exact hpending
    · left
      right
      left
      unfold ToWake reader at hwake ⊢
      simp only [hsame]
      exact hwake
    · exact absurd rfl (hcall _ hdelivering)
    · exact absurd rfl (hcall _ hhanding)
  · obtain ⟨rfl, hawaiting⟩ := hconstructing i hi
    simpa using hawaiting

/-- The same with no change to the source. -/
theorem setCall (ha : s.Awake) (src : SourceId) (call : Call)
    (hold : s.call = .idle ∨ s.call.source? = some src)
    (hsrc : call.source? = some src ∨ s.frameQueue.queue = [] ∨
      (s.sources src).fIsCurrentlyAwaitingData = false)
    (hconstructing : ∀ i, call ≠ .constructing i) : Awake { s with call := call } := by
  have hupdate := ha.update src (s.sources src) call hold
    (hsrc.imp_right fun h => h.imp_right Or.inr) fun i hi => absurd hi (hconstructing i)
  rwa [State.setSource_self] at hupdate

theorem trigger_ne_stop (hw : s.Wired) {src : SourceId} (h : s.Waiting src) {id : SchedulerId}
    (hid : s.scheduler_ = some id) {i : EventTriggerId} {pending : Option ClientData}
    (hi : (s.schedulers id).triggers i = some ⟨.stopEventCallback, pending⟩) :
    (s.sources src).frameArrivedTrigger ≠ i := by
  rintro rfl
  obtain ⟨pending', hpending'⟩ := hw.source_trigger src h.1.1 h.1.2.1
  obtain rfl := Option.some.inj (hid.symm.trans (hw.source_scheduler src h.1.1))
  rw [hi] at hpending'
  cases hpending'

theorem construct (hw : s.Wired) (ha : s.Awake) {frameArrivedTrigger : EventTriggerId}
    {id : SchedulerId} {created : TaskScheduler} (hcall : s.call = .idle)
    (hid : s.scheduler_ = some id)
    (hcreated : (s.schedulers id).createEventTrigger .frameArrivedCallback frameArrivedTrigger =
      some created) :
    Awake { (s.setScheduler id created).setSource s.nextSource (.new id frameArrivedTrigger) with
      nextSource := s.nextSource + 1
      call := .constructing s.nextSource } := by
  have hscheduler : (s.setScheduler id created).Awake := by
    rcases TaskScheduler.createEventTrigger_eq_some hcreated with ⟨-, rfl⟩ | ⟨-, hfree, rfl⟩
    · rwa [State.setScheduler_self]
    · refine ha.setTrigger (fun src h _ heq => ?_) id _
      obtain ⟨pending, hpending⟩ := hw.source_trigger src h.1.1 h.1.2.1
      obtain heq' := Option.some.inj (hid.symm.trans (hw.source_scheduler src h.1.1))
      rw [← heq', heq, hfree] at hpending
      cases hpending
  have hupdate := hscheduler.update s.nextSource (.new id frameArrivedTrigger)
    (.constructing s.nextSource) (Or.inl hcall) (Or.inl rfl)
    (fun i hi => ⟨(Call.constructing.inj hi).symm, rfl⟩)
  exact ⟨hupdate.woken, hupdate.constructing⟩

/-- **Every step keeps the wake-up invariant.** -/
theorem transition (hw : s.Wired) (ha : s.Awake) {a : Action ε} {t : State ε}
    (h : Transition s a t) : t.Awake := by
  cases h with
  | pushNothing => exact ha
  | push e data timestampUs => exact push hw ha e data timestampUs
  | wake e reader wakes hpushing => exact wake hw ha hpushing
  | unlock e hpushing =>
    refine ⟨fun hqueue src h => ?_, ha.constructing⟩
    rcases ha.woken hqueue src h with (hpending | ⟨e', wakes, hwake, hmem⟩ | hdelivering) | hhanding
    · exact Or.inl (Or.inl hpending)
    · rw [hpushing] at hwake
      cases hwake
      cases hmem
    · exact Or.inl (Or.inr (Or.inr hdelivering))
    · exact Or.inr hhanding
  | setupNoScheduler env stopTrigger server hphase =>
    exact ⟨ha.woken, ha.constructing⟩
  | setupNoEnv _ _ hphase => exact of_no_source (hw.no_source (by simp [hphase])) ha.constructing
  | setup stopTrigger server created hphase hcreated =>
    exact of_no_source (hw.no_source (by simp [hphase])) ha.constructing
  | stopTriggerEvent id hid hne =>
    obtain ⟨pending, hpending⟩ := hw.stop_trigger id hid hne
    exact ha.setTrigger (fun src h _ => trigger_ne_stop hw h hid hpending) id _
  | construct frameArrivedTrigger id created hphase hcall hid hcreated =>
    exact construct hw ha hcall hid hcreated
  | registerReader src hcall hfree =>
    have hcall' := ha.setCall src .idle (Or.inr (by rw [hcall]; rfl))
      (Or.inr (Or.inr (ha.constructing src hcall))) (by simp)
    exact hcall'.setQueue (by simp)
  | getNextFrame src fTo fMaxSize hphase hcall halive =>
    exact ha.update src _ (.delivering src) (Or.inl hcall) (Or.inl rfl) (by simp)
  | stopGettingFrames src hcall halive =>
    exact ha.update src (s.sources src).stopGettingFrames s.call (Or.inl hcall)
      (Or.inr (Or.inr (Or.inr rfl))) (by simp [hcall])
  | dispatchStop id scheduler clientData hphase hcall hframes hscheduler htrigger =>
    exact ha.setTrigger (fun src h _ => trigger_ne_stop hw h hscheduler htrigger) scheduler _
  | dispatchFrameArrived id scheduler clientData hphase hcall hframes hscheduler htrigger =>
    have hother : ∀ i, s.Waiting i → i ≠ clientData → (s.sources i).frameArrivedTrigger ≠ id := by
      intro i h hne heq
      obtain ⟨-, src, halive, hsrc, hdata⟩ := hw.owner scheduler id _ hscheduler htrigger
      obtain rfl := hdata clientData rfl
      exact hne (hw.distinct i _ h.1.1 halive (heq.trans hsrc.symm) h.1.2.1)
    have hcall' := ha.setCall clientData (.delivering clientData) (Or.inl hcall) (Or.inl rfl)
      (by simp)
    refine hcall'.setTrigger (fun i h hdelivering => hother i ?_ ?_) scheduler _
    · exact ⟨⟨h.1.1, h.1.2.1, by simp [hcall]⟩, h.2⟩
    · rintro rfl
      exact hdelivering rfl
  | deliverNotAwaiting src hcall hawaiting =>
    exact ha.setCall src .idle (Or.inr (by rw [hcall]; rfl)) (Or.inr (Or.inr hawaiting)) (by simp)
  | deliverEmpty src hcall hawaiting hfree hempty =>
    exact ha.setCall src .idle (Or.inr (by rw [hcall]; rfl)) (Or.inr (Or.inl hempty)) (by simp)
  | popNalu src nalu rest hcall hawaiting hfree hqueue =>
    have hcall' := ha.setCall src (.handing src nalu) (Or.inr (by rw [hcall]; rfl)) (Or.inl rfl)
      (by simp)
    exact hcall'.setQueue (by simp [hqueue])
  | afterGetting src nalu hcall =>
    have hupdate := ha.update src ((s.sources src).fill nalu).afterGetting .idle
      (Or.inr (by rw [hcall]; rfl)) (Or.inr (Or.inr (Or.inr rfl))) (by simp)
    exact ⟨hupdate.woken, hupdate.constructing⟩
  | clientReturn => exact ⟨ha.woken, ha.constructing⟩
  | destroy src hphase hcall halive =>
    exact ha.setCall src (.unregistering src) (Or.inl hcall) (Or.inl rfl) (by simp)
  | unregisterReader src hcall hfree =>
    have hcall' := ha.setCall src (.deletingTrigger src) (Or.inr (by rw [hcall]; rfl))
      (Or.inl rfl) (by simp)
    exact hcall'.setQueue (by simp)
  | deleteNoTrigger src hcall hzero =>
    exact ha.update src _ .idle (Or.inr (by rw [hcall]; rfl)) (Or.inr (Or.inr (Or.inl rfl)))
      (by simp)
  | deleteEventTrigger src hcall hne =>
    have hsource : s.call.source? = some src := by rw [hcall]; rfl
    have hother : ∀ i, s.Waiting i → s.call ≠ .delivering i →
        (s.sources i).frameArrivedTrigger ≠ (s.sources src).frameArrivedTrigger := by
      intro i h _ heq
      obtain rfl := hw.distinct i src h.1.1 (hw.call_alive src hsource) heq h.1.2.1
      exact h.1.2.2.2.2 hcall
    exact (ha.setTrigger hother (s.sources src).scheduler none).update src _ .idle (Or.inr hsource)
      (Or.inr (Or.inr (Or.inl rfl))) (by simp)
  | leaveEventLoop => exact ⟨ha.woken, ha.constructing⟩
  | cleanupNoTrigger => exact ⟨ha.woken, ha.constructing⟩
  | cleanupStopTrigger id hphase hid hne =>
    obtain ⟨pending, hpending⟩ := hw.stop_trigger id hid hne
    have htrigger := ha.setTrigger (fun src h _ => trigger_ne_stop hw h hid hpending) id none
    exact ⟨htrigger.woken, htrigger.constructing⟩
  | closeServer => exact ⟨ha.woken, ha.constructing⟩
  | deleteNoScheduler => exact ⟨ha.woken, ha.constructing⟩
  | deleteScheduler id hphase hid =>
    exact of_no_source (hw.no_source (by simp [hphase])) ha.constructing
  | clearQueue => exact ⟨fun h => absurd rfl h, ha.constructing⟩

theorem reachable [DecidableEq ε] (h : (machine ε).Reachable s) : s.Awake := by
  have hinit : (State.new : State ε).Awake :=
    of_no_source (fun _ => rfl) fun _ h => by cases h
  have hboth := invariant (I := fun s => s.Wired ∧ s.Awake) ⟨Wired.new, hinit⟩
    (fun _ _ _ hs ht => ⟨hs.1.transition ht, transition hs.1 hs.2 ht⟩) h
  exact hboth.2

end Awake

end State

/-- **No lost wake-up.** In every reachable state with NALUs queued, every source that awaits data
has an event on the way, or the event-loop thread has popped a NALU for it and hands it over
next. -/
theorem no_lost_wakeup [DecidableEq ε] {s : State ε} (h : (machine ε).Reachable s)
    (hqueue : s.frameQueue.queue ≠ []) (src : SourceId) (hsrc : s.Waiting src) :
    s.Signalled src ∨ s.Handing src :=
  (State.Awake.reachable h).woken hqueue src hsrc

/-- One source with a request outstanding, woken by a push of two NALUs. -/
def secondNalu : List (Action Unit) :=
  [.setupLive555 true true 1 true, .construct 2, .registerReader, .getNextFrame 0 0 100, .popNalu,
    .push () (some [0x00, 0x00, 0x01, 0x65, 0x00, 0x00, 0x01, 0x41]) 0, .wake (), .unlock ()]

/-- With the trigger pending the source is signalled. -/
theorem no_lost_wakeup_secondNalu :
    ∃ s, (machine Unit).exec .new secondNalu = some s ∧ (s.Signalled 0 ∨ s.Handing 0) := by
  obtain ⟨s, hrun, hqueue, hsrc⟩ : ∃ s, (machine Unit).exec .new secondNalu = some s ∧
      s.frameQueue.queue ≠ [] ∧ s.Waiting 0 :=
    ⟨_, rfl, by decide, ⟨rfl, by decide, by decide, by decide, by decide⟩, rfl⟩
  exact ⟨s, hrun, no_lost_wakeup ⟨secondNalu, hrun⟩ hqueue 0 hsrc⟩

/-- Between `popNalu` and `afterGetting` the source still counts as awaiting data, the second
NALU is queued, and no event is on the way. -/
theorem handing_not_signalled :
    ∃ s : State Unit, (machine Unit).Reachable s ∧ s.frameQueue.queue ≠ [] ∧ s.Waiting 0 ∧
      ¬ s.Signalled 0 := by
  refine ⟨_, ⟨secondNalu ++ [.dispatch 2, .popNalu], rfl⟩, by decide,
    ⟨⟨rfl, by decide, by decide, by decide, by decide⟩, rfl⟩, ?_⟩
  rintro (hpending | ⟨e, wakes, hwake, -⟩ | hdelivering)
  · cases hpending
  · cases hwake
  · cases hdelivering

end RtspPush.Delivery
