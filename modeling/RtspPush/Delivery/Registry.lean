import RtspPush.Delivery.Step

/-!
# The reader registry

`readers_` names triggers and sources by number, is read by the encoder threads, and is kept up
to date by constructors and destructors on the event-loop thread. `Wired` says how the registry,
the triggers of the current scheduler and the living sources fit together in every reachable
state: the readers are exactly the sources between `registerReader` and `unregisterReader`, a
trigger for frames belongs to exactly one living source, and its event carries that source.
`push_wakes_living` reads off that a push never reaches anything dead.
-/

namespace RtspPush.Delivery

open Lib

variable {ε : Type}

/-! ## Triggers -/

namespace TaskScheduler

variable (scheduler : TaskScheduler)

@[simp] theorem setTrigger_triggers (id i : EventTriggerId) (trigger : Option EventTrigger) :
    (scheduler.setTrigger id trigger).triggers i =
      if i = id then trigger else scheduler.triggers i := rfl

@[simp] theorem setTrigger_alive (id : EventTriggerId) (trigger : Option EventTrigger) :
    (scheduler.setTrigger id trigger).alive = scheduler.alive := rfl

variable {scheduler}

theorem triggerEvent_eq {id : EventTriggerId} {handler : TaskFunc} {pending : Option ClientData}
    (h : scheduler.triggers id = some ⟨handler, pending⟩) (clientData : ClientData) :
    scheduler.triggerEvent id clientData =
      scheduler.setTrigger id (some ⟨handler, some clientData⟩) := by
  rw [triggerEvent, h]
  rfl

theorem clearPending_eq {id : EventTriggerId} {handler : TaskFunc} {pending : Option ClientData}
    (h : scheduler.triggers id = some ⟨handler, pending⟩) :
    scheduler.clearPending id = scheduler.setTrigger id (some ⟨handler, none⟩) := by
  rw [clearPending, h]
  rfl

/-- Raising or clearing an event keeps the handler of every trigger. -/
theorem handler_setTrigger {i j : EventTriggerId} {handler handler' : TaskFunc}
    {old pending : Option ClientData} (hold : scheduler.triggers i = some ⟨handler, old⟩)
    (new : Option ClientData) (hpending : scheduler.triggers j = some ⟨handler', pending⟩) :
    ∃ pending', (scheduler.setTrigger i (some ⟨handler, new⟩)).triggers j =
      some ⟨handler', pending'⟩ := by
  rw [setTrigger_triggers]
  split
  · next hi =>
    rw [hi, hold] at hpending
    cases hpending
    exact ⟨new, rfl⟩
  · exact ⟨pending, hpending⟩

theorem createEventTrigger_eq_some {handler : TaskFunc} {id : EventTriggerId}
    {created : TaskScheduler} (h : scheduler.createEventTrigger handler id = some created) :
    (id = 0 ∧ created = scheduler) ∨
      (id ≠ 0 ∧ scheduler.triggers id = none ∧
        created = scheduler.setTrigger id (some ⟨handler, none⟩)) := by
  unfold createEventTrigger at h
  split at h
  · next hzero => exact Or.inl ⟨hzero, (Option.some.inj h).symm⟩
  · next hne =>
    split at h
    · next hfree => exact Or.inr ⟨hne, hfree, (Option.some.inj h).symm⟩
    · cases h

end TaskScheduler

theorem MyH264Source.fill_wiring (source : MyH264Source) (nalu : Nalu) :
    (source.fill nalu).alive = source.alive ∧ (source.fill nalu).scheduler = source.scheduler ∧
      (source.fill nalu).frameArrivedTrigger = source.frameArrivedTrigger := by
  simp only [fill]
  split <;> exact ⟨rfl, rfl, rfl⟩

theorem State.setScheduler_self (s : State ε) (id : SchedulerId) :
    s.setScheduler id (s.schedulers id) = s := by
  have hsame : (fun i => if i = id then s.schedulers id else s.schedulers i) = s.schedulers := by
    funext i
    split
    · next h => rw [h]
    · rfl
  rw [State.setScheduler, hsame]

theorem State.setSource_self (s : State ε) (src : SourceId) :
    s.setSource src (s.sources src) = s := by
  have hsame : (fun i => if i = src then s.sources src else s.sources i) = s.sources := by
    funext i
    split
    · next h => rw [h]
    · rfl
  rw [State.setSource, hsame]

/-! ## The invariant -/

/-- The source whose member function the event-loop thread is in. -/
def Call.source? : Call → Option SourceId
  | .idle => none
  | .constructing src | .delivering src | .handing src _ | .unregistering src
  | .deletingTrigger src => some src

namespace State

/-- The entry that a source registers. -/
def reader (s : State ε) (src : SourceId) : Reader where
  scheduler := (s.sources src).scheduler
  triggerId := (s.sources src).frameArrivedTrigger
  clientData := src

/-- The source has a trigger and is behind `registerReader` and before the end of
`unregisterReader`. -/
def Registered (s : State ε) (src : SourceId) : Prop :=
  ((s.sources src).alive = true ∧ (s.sources src).frameArrivedTrigger ≠ 0) ∧
    s.call ≠ .constructing src ∧ s.call ≠ .deletingTrigger src

/-- How the registry, the triggers and the living sources fit together. -/
structure Wired (s : State ε) : Prop where
  source_lt : ∀ src, (s.sources src).alive = true → src < s.nextSource
  source_scheduler : ∀ src, (s.sources src).alive = true →
    s.scheduler_ = some (s.sources src).scheduler
  source_server : ∀ src, (s.sources src).alive = true → s.server_ = true
  server_phase : s.server_ = true → s.phase = .serving ∨ s.phase = .cleanup ∨ s.phase = .closing
  serving_server : s.phase = .serving → s.server_ = true
  scheduler_alive : ∀ id, s.scheduler_ = some id → (s.schedulers id).alive = true
  scheduler_none : s.phase = .stopped ∨ s.phase = .clearing → s.scheduler_ = none
  source_trigger : ∀ src, (s.sources src).alive = true → (s.sources src).frameArrivedTrigger ≠ 0 →
    ∃ pending, (s.schedulers (s.sources src).scheduler).triggers
      (s.sources src).frameArrivedTrigger = some ⟨.frameArrivedCallback, pending⟩
  owner : ∀ id i pending, s.scheduler_ = some id →
    (s.schedulers id).triggers i = some ⟨.frameArrivedCallback, pending⟩ →
      i ≠ 0 ∧ ∃ src, (s.sources src).alive = true ∧ (s.sources src).frameArrivedTrigger = i ∧
        ∀ clientData, pending = some clientData → clientData = src
  distinct : ∀ src src', (s.sources src).alive = true → (s.sources src').alive = true →
    (s.sources src).frameArrivedTrigger = (s.sources src').frameArrivedTrigger →
      (s.sources src).frameArrivedTrigger ≠ 0 → src = src'
  stop_trigger : ∀ id, s.scheduler_ = some id → s.stopTrigger_ ≠ 0 →
    ∃ pending, (s.schedulers id).triggers s.stopTrigger_ = some ⟨.stopEventCallback, pending⟩
  stop_trigger_zero : s.scheduler_ = none ∨ (s.phase ≠ .serving ∧ s.phase ≠ .cleanup) →
    s.stopTrigger_ = 0
  mem_readers : ∀ r, r ∈ s.frameQueue.readers ↔ ∃ src, s.Registered src ∧ r = s.reader src
  pushing_readers : ∀ e wakes, s.pushing = some (e, wakes) → ∀ r ∈ wakes, r ∈ s.frameQueue.readers
  call_alive : ∀ src, s.call.source? = some src → (s.sources src).alive = true

namespace Wired

variable {s : State ε}

theorem new : Wired (.new : State ε) where
  source_lt := by simp [State.new, MyH264Source.unallocated]
  source_scheduler := by simp [State.new, MyH264Source.unallocated]
  source_server := by simp [State.new, MyH264Source.unallocated]
  server_phase := by simp [State.new]
  serving_server := by simp [State.new]
  scheduler_alive := by simp [State.new]
  scheduler_none := by simp [State.new]
  source_trigger := by simp [State.new, MyH264Source.unallocated]
  owner := by simp [State.new]
  distinct := by simp [State.new, MyH264Source.unallocated]
  stop_trigger := by simp [State.new]
  stop_trigger_zero := by simp [State.new]
  mem_readers r := by
    simp only [State.new, H264FrameQueue.new, List.not_mem_nil, false_iff]
    rintro ⟨src, hsrc, -⟩
    exact absurd hsrc.1.1 (by simp [MyH264Source.unallocated])
  pushing_readers := by simp [State.new]
  call_alive := by simp [State.new, Call.source?]

/-- Behind `Medium::close(server_)` there is no source. -/
theorem no_source (hw : s.Wired) (hphase : s.phase ≠ .serving ∧ s.phase ≠ .cleanup ∧
    s.phase ≠ .closing) (src : SourceId) : (s.sources src).alive = false := by
  by_contra halive
  have hserver := hw.source_server src (by simpa using halive)
  rcases hw.server_phase hserver with h | h | h
  · exact hphase.1 h
  · exact hphase.2.1 h
  · exact hphase.2.2 h

theorem readers_eq_nil (hw : s.Wired) (hnone : ∀ src, (s.sources src).alive = false) :
    s.frameQueue.readers = [] := by
  rw [List.eq_nil_iff_forall_not_mem]
  intro r hr
  obtain ⟨src, ⟨⟨halive, -⟩, -⟩, -⟩ := (hw.mem_readers r).mp hr
  rw [hnone src] at halive
  cases halive

/-- The event-loop thread goes from one call to another, neither of them changing the registry. -/
theorem setCall (hw : s.Wired) (call : Call)
    (hold : ∀ src, s.call ≠ .constructing src ∧ s.call ≠ .deletingTrigger src)
    (hnew : ∀ src, call ≠ .constructing src ∧ call ≠ .deletingTrigger src)
    (halive : ∀ src, call.source? = some src → (s.sources src).alive = true) :
    Wired { s with call := call } :=
  { hw with
    mem_readers := by
      intro r
      rw [hw.mem_readers r]
      refine exists_congr fun src => and_congr_left fun _ => and_congr_right fun _ => ?_
      exact ⟨fun _ => hnew src, fun _ => hold src⟩
    call_alive := halive }

/-- Only the request of a source changes. -/
theorem setSource (hw : s.Wired) (src : SourceId) (source : MyH264Source)
    (halive : source.alive = (s.sources src).alive)
    (hscheduler : source.scheduler = (s.sources src).scheduler)
    (htrigger : source.frameArrivedTrigger = (s.sources src).frameArrivedTrigger) :
    (s.setSource src source).Wired := by
  obtain ⟨f, hf⟩ : ∃ f, f = (s.setSource src source).sources := ⟨_, rfl⟩
  have ha : ∀ i, (f i).alive = (s.sources i).alive := by
    intro i
    rw [hf]
    by_cases hi : i = src <;> simp [hi, halive]
  have hs : ∀ i, (f i).scheduler = (s.sources i).scheduler := by
    intro i
    rw [hf]
    by_cases hi : i = src <;> simp [hi, hscheduler]
  have ht : ∀ i, (f i).frameArrivedTrigger = (s.sources i).frameArrivedTrigger := by
    intro i
    rw [hf]
    by_cases hi : i = src <;> simp [hi, htrigger]
  have hstate : s.setSource src source = { s with sources := f } := by rw [hf]; rfl
  rw [hstate]
  constructor <;> simp only [Registered, State.reader, ha, hs, ht]
  · exact hw.source_lt
  · exact hw.source_scheduler
  · exact hw.source_server
  · exact hw.server_phase
  · exact hw.serving_server
  · exact hw.scheduler_alive
  · exact hw.scheduler_none
  · exact hw.source_trigger
  · exact hw.owner
  · exact hw.distinct
  · exact hw.stop_trigger
  · exact hw.stop_trigger_zero
  · exact hw.mem_readers
  · exact hw.pushing_readers
  · exact hw.call_alive

/-- An event of the current scheduler is raised or cleared; a frame event carries the source its
trigger belongs to. -/
theorem setPending (hw : s.Wired) {id : SchedulerId} {i : EventTriggerId} {handler : TaskFunc}
    {old : Option ClientData} (hid : s.scheduler_ = some id)
    (hold : (s.schedulers id).triggers i = some ⟨handler, old⟩) (new : Option ClientData)
    (hnew : ∀ src, handler = .frameArrivedCallback → new = some src →
      (s.sources src).alive = true ∧ (s.sources src).frameArrivedTrigger = i) :
    (s.setScheduler id ((s.schedulers id).setTrigger i (some ⟨handler, new⟩))).Wired := by
  refine { hw with
    scheduler_alive := ?_
    source_trigger := ?_
    owner := ?_
    stop_trigger := ?_ }
  · intro id' hid'
    obtain rfl : id = id' := Option.some.inj (hid.symm.trans hid')
    simpa using hw.scheduler_alive id hid
  · intro src halive hne
    obtain ⟨pending, hpending⟩ := hw.source_trigger src halive hne
    obtain hscheduler : id = (s.sources src).scheduler :=
      Option.some.inj (hid.symm.trans (hw.source_scheduler src halive))
    simp only [State.setScheduler, ← hscheduler, if_true]
    rw [← hscheduler] at hpending
    exact TaskScheduler.handler_setTrigger hold new hpending
  · intro id' j pending hid' hj
    obtain rfl : id = id' := Option.some.inj (hid.symm.trans hid')
    simp only [State.setScheduler, if_true, TaskScheduler.setTrigger_triggers] at hj
    split at hj
    · next hij =>
      cases hj
      rw [hij]
      obtain ⟨hne, src, halive, hsrc, -⟩ := hw.owner id i old hid hold
      refine ⟨hne, src, halive, hsrc, fun clientData hdata => ?_⟩
      obtain ⟨halive', hsrc'⟩ := hnew clientData rfl hdata
      exact hw.distinct clientData src halive' halive (hsrc'.trans hsrc.symm) (by rwa [hsrc'])
    · exact hw.owner id j pending hid hj
  · intro id' hid' hne
    obtain rfl : id = id' := Option.some.inj (hid.symm.trans hid')
    obtain ⟨pending, hpending⟩ := hw.stop_trigger id hid hne
    simp only [State.setScheduler, if_true]
    exact TaskScheduler.handler_setTrigger hold new hpending

/-- What the next `triggerEvent` of a push refers to. -/
theorem wake_target (hw : s.Wired) {e : ε} {wakes : List Reader} {r : Reader}
    (hpushing : s.pushing = some (e, wakes)) (hr : r ∈ wakes) :
    (s.sources r.clientData).alive = true ∧ s.scheduler_ = some r.scheduler ∧
      (s.schedulers r.scheduler).alive = true ∧
        (s.sources r.clientData).frameArrivedTrigger = r.triggerId ∧
        ∃ pending, (s.schedulers r.scheduler).triggers r.triggerId =
          some ⟨.frameArrivedCallback, pending⟩ := by
  obtain ⟨src, hsrc, rfl⟩ := (hw.mem_readers r).mp (hw.pushing_readers e wakes hpushing r hr)
  have hscheduler := hw.source_scheduler src hsrc.1.1
  exact ⟨hsrc.1.1, hscheduler, hw.scheduler_alive _ hscheduler, rfl,
    hw.source_trigger src hsrc.1.1 hsrc.1.2⟩

theorem wake (hw : s.Wired) {e : ε} {r : Reader} {wakes : List Reader}
    (hpushing : s.pushing = some (e, r :: wakes)) :
    Wired { s.setScheduler r.scheduler
        ((s.schedulers r.scheduler).triggerEvent r.triggerId r.clientData) with
      pushing := some (e, wakes) } := by
  obtain ⟨halive, hscheduler, -, htrigger, pending, hpending⟩ :=
    hw.wake_target hpushing List.mem_cons_self
  rw [TaskScheduler.triggerEvent_eq hpending]
  have hw' := hw.setPending hscheduler hpending (some r.clientData)
    fun src _ hsrc => Option.some.inj hsrc ▸ ⟨halive, htrigger⟩
  refine { hw' with pushing_readers := ?_ }
  intro e' wakes' heq x hx
  cases heq
  exact hw.pushing_readers e _ hpushing x (List.mem_cons_of_mem r hx)

theorem push (hw : s.Wired) (e : ε) (data : Option (List UInt8)) (timestampUs : UInt64) :
    Wired { s with
      frameQueue := (s.frameQueue.pushAnnexBFrame data timestampUs).1
      pushing := some (e, s.frameQueue.readers) } := by
  have hreaders := s.frameQueue.pushAnnexBFrame_readers data timestampUs
  refine { hw with mem_readers := ?_, pushing_readers := ?_ }
  · intro r
    rw [hreaders]
    exact hw.mem_readers r
  · intro e' wakes heq r hr
    cases heq
    rw [hreaders]
    exact hr

/-- `setupLive555` creates a scheduler, with or without a stop trigger. -/
theorem setup (hw : s.Wired) (hphase : s.phase = .stopped) {stopTrigger : EventTriggerId}
    {created : TaskScheduler}
    (hcreated : TaskScheduler.new.createEventTrigger .stopEventCallback stopTrigger =
      some created) (server : Bool) :
    Wired { s.setScheduler s.nextScheduler created with
      nextScheduler := s.nextScheduler + 1
      scheduler_ := some s.nextScheduler
      stopTrigger_ := stopTrigger
      server_ := server
      phase := if server then .serving else .cleanup } := by
  have hdead := hw.no_source (by simp [hphase])
  have hfree := hw.readers_eq_nil hdead
  have htriggers : created.alive = true ∧ ∀ i trigger, created.triggers i = some trigger →
      i = stopTrigger ∧ trigger = ⟨.stopEventCallback, none⟩ := by
    rcases TaskScheduler.createEventTrigger_eq_some hcreated with ⟨-, rfl⟩ | ⟨-, -, rfl⟩
    · exact ⟨rfl, fun i trigger h => by cases h⟩
    · refine ⟨rfl, fun i trigger h => ?_⟩
      simp only [TaskScheduler.setTrigger_triggers] at h
      split at h
      · next hi => exact ⟨hi, (Option.some.inj h).symm⟩
      · cases h
  refine
    { source_lt := fun src h => absurd h (by simp [hdead src])
      source_scheduler := fun src h => absurd h (by simp [hdead src])
      source_server := fun src h => absurd h (by simp [hdead src])
      server_phase := ?_
      serving_server := ?_
      scheduler_alive := ?_
      scheduler_none := ?_
      source_trigger := fun src h => absurd h (by simp [hdead src])
      owner := ?_
      distinct := fun src _ h => absurd h (by simp [hdead src])
      stop_trigger := ?_
      stop_trigger_zero := ?_
      mem_readers := ?_
      pushing_readers := hw.pushing_readers
      call_alive := hw.call_alive }
  · rintro rfl
    simp
  · cases server <;> simp
  · intro id hid
    cases hid
    simpa using htriggers.1
  · cases server <;> simp
  · intro id i pending hid hi
    cases hid
    simp only [State.setScheduler, if_true] at hi
    cases (htriggers.2 i _ hi).2
  · intro id hid hne
    cases hid
    rcases TaskScheduler.createEventTrigger_eq_some hcreated with ⟨hzero, -⟩ | ⟨-, -, rfl⟩
    · exact absurd hzero hne
    · exact ⟨none, by simp⟩
  · cases server <;> simp
  · intro r
    simp only [State.setScheduler, hfree, List.not_mem_nil, false_iff]
    rintro ⟨src, ⟨⟨halive, -⟩, -⟩, -⟩
    exact absurd halive (by simp [hdead src])

theorem setupNoEnv (hw : s.Wired) (hphase : s.phase = .stopped) :
    Wired { s.setScheduler s.nextScheduler .new with
      nextScheduler := s.nextScheduler + 1
      scheduler_ := some s.nextScheduler
      phase := .cleanup } := by
  have hstop : s.stopTrigger_ = 0 :=
    hw.stop_trigger_zero (Or.inl (hw.scheduler_none (Or.inl hphase)))
  have hserver : s.server_ = false := by
    by_contra h
    simpa [hphase] using hw.server_phase (by simpa using h)
  have hzero : TaskScheduler.new.createEventTrigger .stopEventCallback 0 = some .new := rfl
  have hsetup := hw.setup hphase hzero false
  rw [← hstop, ← hserver] at hsetup
  simpa [hserver] using hsetup

/-- A new source: its trigger is not in use, and it is not registered yet. -/
theorem construct (hw : s.Wired) {frameArrivedTrigger : EventTriggerId} {id : SchedulerId}
    {created : TaskScheduler} (hphase : s.phase = .serving) (hcall : s.call = .idle)
    (hid : s.scheduler_ = some id)
    (hcreated : (s.schedulers id).createEventTrigger .frameArrivedCallback frameArrivedTrigger =
      some created) :
    Wired { (s.setScheduler id created).setSource s.nextSource (.new id frameArrivedTrigger) with
      nextSource := s.nextSource + 1
      call := .constructing s.nextSource } := by
  have hdead : (s.sources s.nextSource).alive ≠ true := fun h =>
    Nat.lt_irrefl _ (hw.source_lt _ h)
  -- the triggers that were there are still there, and the new id was not among them
  have hkeep : ∀ i trigger, (s.schedulers id).triggers i = some trigger →
      created.triggers i = some trigger ∧ (frameArrivedTrigger ≠ 0 → i ≠ frameArrivedTrigger) := by
    intro i trigger hi
    rcases TaskScheduler.createEventTrigger_eq_some hcreated with ⟨hzero, rfl⟩ | ⟨-, hfree, rfl⟩
    · exact ⟨hi, fun h => absurd hzero h⟩
    · have hne : i ≠ frameArrivedTrigger := by
        rintro rfl
        rw [hfree] at hi
        cases hi
      exact ⟨by simpa [hne] using hi, fun _ => hne⟩
  have hcreatedAlive : created.alive = (s.schedulers id).alive := by
    rcases TaskScheduler.createEventTrigger_eq_some hcreated with ⟨-, rfl⟩ | ⟨-, -, rfl⟩ <;> rfl
  have hscheduler : ∀ src, (s.sources src).alive = true → (s.sources src).scheduler = id :=
    fun src h => Option.some.inj ((hw.source_scheduler src h).symm.trans hid)
  have hfresh : ∀ src, (s.sources src).alive = true → frameArrivedTrigger ≠ 0 →
      (s.sources src).frameArrivedTrigger ≠ frameArrivedTrigger := by
    intro src h hne heq
    obtain ⟨pending, hpending⟩ := hw.source_trigger src h (by rwa [heq])
    rw [hscheduler src h] at hpending
    exact (hkeep _ _ hpending).2 hne heq
  refine { hw with
    source_lt := ?_
    source_scheduler := ?_
    source_server := fun _ _ => hw.serving_server hphase
    scheduler_alive := ?_
    source_trigger := ?_
    owner := ?_
    distinct := ?_
    stop_trigger := ?_
    mem_readers := ?_
    call_alive := ?_ }
  · intro src h
    by_cases hsrc : src = s.nextSource
    · exact hsrc ▸ Nat.lt_succ_self _
    · simp only [State.setSource, hsrc, if_false] at h
      exact Nat.lt_succ_of_lt (hw.source_lt src h)
  · intro src h
    by_cases hsrc : src = s.nextSource
    · simpa [hsrc, MyH264Source.new] using hid
    · simp only [State.setSource, State.setScheduler, hsrc, if_false] at h ⊢
      exact hw.source_scheduler src h
  · intro id' hid'
    obtain rfl : id = id' := Option.some.inj (hid.symm.trans hid')
    simpa [hcreatedAlive] using hw.scheduler_alive id hid
  · intro src h hne
    by_cases hsrc : src = s.nextSource
    · simp only [State.setSource, State.setScheduler, hsrc, if_true, MyH264Source.new] at hne ⊢
      rcases TaskScheduler.createEventTrigger_eq_some hcreated with ⟨hzero, -⟩ | ⟨-, -, rfl⟩
      · exact absurd hzero hne
      · exact ⟨none, by simp⟩
    · simp only [State.setSource, State.setScheduler, hsrc, if_false] at h hne ⊢
      obtain ⟨pending, hpending⟩ := hw.source_trigger src h hne
      rw [hscheduler src h] at hpending ⊢
      exact ⟨pending, by simpa using (hkeep _ _ hpending).1⟩
  · intro id' i pending hid' hi
    obtain rfl : id = id' := Option.some.inj (hid.symm.trans hid')
    simp only [State.setSource, State.setScheduler, if_true] at hi
    have hcases : (i ≠ 0 ∧ i = frameArrivedTrigger ∧ pending = none) ∨
        (s.schedulers id).triggers i = some ⟨.frameArrivedCallback, pending⟩ := by
      rcases TaskScheduler.createEventTrigger_eq_some hcreated with ⟨-, rfl⟩ | ⟨hne, -, rfl⟩
      · exact Or.inr hi
      · simp only [TaskScheduler.setTrigger_triggers] at hi
        split at hi
        · next h =>
          cases hi
          exact Or.inl ⟨h ▸ hne, h, rfl⟩
        · exact Or.inr hi
    rcases hcases with ⟨hne, rfl, rfl⟩ | hold
    · exact ⟨hne, s.nextSource, by simp [MyH264Source.new]⟩
    · obtain ⟨hne, src, h, htrigger, hpending⟩ := hw.owner id i pending hid hold
      have hsrc : src ≠ s.nextSource := fun heq => hdead (heq ▸ h)
      exact ⟨hne, src, by simpa [hsrc] using ⟨h, htrigger, hpending⟩⟩
  · intro src src' h h' heq hne
    by_cases hsrc : src = s.nextSource <;> by_cases hsrc' : src' = s.nextSource
    · rw [hsrc, hsrc']
    · simp only [State.setSource, State.setScheduler, hsrc, hsrc', if_true, if_false,
        MyH264Source.new] at h' heq hne
      exact absurd heq.symm (hfresh src' h' hne)
    · simp only [State.setSource, State.setScheduler, hsrc, hsrc', if_true, if_false,
        MyH264Source.new] at h heq hne
      exact absurd heq (hfresh src h (heq ▸ hne))
    · simp only [State.setSource, State.setScheduler, hsrc, hsrc', if_false] at h h' heq hne
      exact hw.distinct src src' h h' heq hne
  · intro id' hid' hne
    obtain rfl : id = id' := Option.some.inj (hid.symm.trans hid')
    obtain ⟨pending, hpending⟩ := hw.stop_trigger id hid hne
    exact ⟨pending, by simpa using (hkeep _ _ hpending).1⟩
  · refine fun r => (hw.mem_readers r).trans (exists_congr fun src => ?_)
    by_cases hsrc : src = s.nextSource
    · simp [hsrc, Registered, hdead]
    · simp [hsrc, Ne.symm hsrc, Registered, hcall, State.reader]
  · intro src h
    obtain rfl := Option.some.inj h
    simp [MyH264Source.new]

theorem registerReader (hw : s.Wired) {src : SourceId} (hcall : s.call = .constructing src) :
    Wired { s with
      frameQueue := s.frameQueue.registerReader (some (s.sources src).scheduler)
        (s.sources src).frameArrivedTrigger src
      call := .idle } := by
  have halive : (s.sources src).alive = true := hw.call_alive src (by rw [hcall]; rfl)
  have hreaders : ∀ r, r ∈ (s.frameQueue.registerReader (some (s.sources src).scheduler)
      (s.sources src).frameArrivedTrigger src).readers ↔
        r ∈ s.frameQueue.readers ∨
          ((s.sources src).frameArrivedTrigger ≠ 0 ∧ r = s.reader src) := by
    intro r
    unfold H264FrameQueue.registerReader
    by_cases hzero : (s.sources src).frameArrivedTrigger = 0 <;> simp [hzero, State.reader]
  refine { hw with mem_readers := ?_, pushing_readers := ?_, call_alive := ?_ }
  · intro r
    rw [hreaders r, hw.mem_readers r]
    constructor
    · rintro (⟨src', hsrc', rfl⟩ | ⟨hne, rfl⟩)
      · exact ⟨src', ⟨hsrc'.1, by simp⟩, rfl⟩
      · exact ⟨src, ⟨⟨halive, hne⟩, by simp⟩, rfl⟩
    · rintro ⟨src', hsrc', rfl⟩
      by_cases heq : src' = src
      · subst heq
        exact Or.inr ⟨hsrc'.1.2, rfl⟩
      · exact Or.inl ⟨src', ⟨hsrc'.1, by simp [hcall, Ne.symm heq]⟩, rfl⟩
  · intro e wakes h r hr
    exact (hreaders r).mpr (Or.inl (hw.pushing_readers e wakes h r hr))
  · intro src' h
    cases h

theorem unregisterReader (hw : s.Wired) {src : SourceId} (hcall : s.call = .unregistering src)
    (hfree : s.pushing = none) :
    Wired { s with
      frameQueue := s.frameQueue.unregisterReader (s.sources src).frameArrivedTrigger
      call := .deletingTrigger src } := by
  have halive : (s.sources src).alive = true := hw.call_alive src (by rw [hcall]; rfl)
  refine { hw with mem_readers := ?_, pushing_readers := ?_, call_alive := ?_ }
  · intro r
    rw [H264FrameQueue.mem_unregisterReader, hw.mem_readers r]
    constructor
    · rintro ⟨⟨src', hsrc', rfl⟩, hne⟩
      have heq : src ≠ src' := by
        rintro rfl
        exact hne rfl
      exact ⟨src', ⟨hsrc'.1, by simp [heq]⟩, rfl⟩
    · rintro ⟨src', hsrc', rfl⟩
      have heq : src ≠ src' := by
        rintro rfl
        exact hsrc'.2.2 rfl
      refine ⟨⟨src', ⟨hsrc'.1, by simp [hcall]⟩, rfl⟩, fun htrigger => heq ?_⟩
      exact hw.distinct src src' halive hsrc'.1.1 htrigger.symm
        (by rw [← htrigger]; exact hsrc'.1.2)
  · intro e wakes h
    exact absurd h (by simp [hfree])
  · intro src' h
    cases h
    exact halive

/-- The destructor ends; `schedulers` is what its `deleteEventTrigger` leaves. -/
theorem destroyed (hw : s.Wired) {src : SourceId} (hcall : s.call = .deletingTrigger src)
    {scheduler : TaskScheduler}
    (halive : scheduler.alive = (s.schedulers (s.sources src).scheduler).alive)
    (htriggers : ∀ i, scheduler.triggers i =
      if i = (s.sources src).frameArrivedTrigger ∧ i ≠ 0 then none
      else (s.schedulers (s.sources src).scheduler).triggers i) :
    Wired { (s.setScheduler (s.sources src).scheduler scheduler).setSource src
        { s.sources src with alive := false, frameArrivedTrigger := 0 } with
      call := .idle } := by
  have hsrc : (s.sources src).alive = true := hw.call_alive src (by rw [hcall]; rfl)
  have hid := hw.source_scheduler src hsrc
  have hother : ∀ src', (s.sources src').alive = true → src' ≠ src →
      (s.sources src').frameArrivedTrigger ≠ 0 →
        (s.sources src').frameArrivedTrigger ≠ (s.sources src).frameArrivedTrigger :=
    fun src' h hne hzero heq => hne (hw.distinct src' src h hsrc heq hzero)
  -- whoever is alive afterwards is another source, with its fields unchanged
  have hback : ∀ src', (if src' = src then { s.sources src with
      alive := false, frameArrivedTrigger := 0 } else s.sources src').alive = true →
        src' ≠ src ∧ (s.sources src').alive = true := by
    intro src' h
    split at h
    · cases h
    · next hne => exact ⟨hne, h⟩
  refine { hw with
    source_lt := fun src' h => hw.source_lt src' (hback src' h).2
    source_scheduler := ?_
    source_server := fun src' h => hw.source_server src' (hback src' h).2
    scheduler_alive := ?_
    source_trigger := ?_
    owner := ?_
    distinct := ?_
    stop_trigger := ?_
    mem_readers := ?_
    call_alive := ?_ }
  · intro src' h
    obtain ⟨hne, h⟩ := hback src' h
    simpa [hne] using hw.source_scheduler src' h
  · intro id hid'
    obtain rfl := Option.some.inj (hid.symm.trans hid')
    simpa [halive] using hw.scheduler_alive _ hid
  · intro src' h hzero
    obtain ⟨hne, h⟩ := hback src' h
    simp only [State.setSource, State.setScheduler, hne, if_false] at hzero ⊢
    obtain ⟨pending, hpending⟩ := hw.source_trigger src' h hzero
    have heq := Option.some.inj (hid.symm.trans (hw.source_scheduler src' h))
    rw [← heq] at hpending ⊢
    refine ⟨pending, ?_⟩
    rw [if_pos rfl, htriggers, if_neg fun hsame => hother src' h hne hzero hsame.1]
    exact hpending
  · intro id i pending hid' hi
    obtain rfl := Option.some.inj (hid.symm.trans hid')
    simp only [State.setSource, State.setScheduler, if_true, htriggers] at hi
    split at hi
    · cases hi
    next hkept =>
    obtain ⟨hzero, src', h, htrigger, hpending⟩ := hw.owner _ i pending hid hi
    have hne : src' ≠ src := by
      rintro rfl
      exact hkept ⟨htrigger.symm, hzero⟩
    exact ⟨hzero, src', by simpa [hne] using ⟨h, htrigger, hpending⟩⟩
  · intro src' src'' h h' heq hzero
    obtain ⟨hne, h⟩ := hback src' h
    obtain ⟨hne', h'⟩ := hback src'' h'
    simp only [State.setSource, State.setScheduler, hne, hne', if_false] at heq hzero
    exact hw.distinct src' src'' h h' heq hzero
  · intro id hid' hzero
    obtain rfl := Option.some.inj (hid.symm.trans hid')
    obtain ⟨pending, hpending⟩ := hw.stop_trigger _ hid hzero
    refine ⟨pending, ?_⟩
    simp only [State.setSource, State.setScheduler, if_true, htriggers]
    rw [if_neg, hpending]
    -- the trigger of the source is one for frames, the stop trigger is not
    rintro ⟨heq, -⟩
    obtain ⟨pending', hpending'⟩ := hw.source_trigger src hsrc (by rwa [← heq])
    rw [← heq, hpending] at hpending'
    cases hpending'
  · refine fun r => (hw.mem_readers r).trans (exists_congr fun src' => ?_)
    by_cases hne : src' = src
    · simp [hne, Registered, hcall]
    · simp [hne, Ne.symm hne, Registered, State.reader, hcall]
  · intro src' h
    cases h

/-- `cleanupLive555` deletes the stop trigger. -/
theorem cleanupStopTrigger (hw : s.Wired) {id : SchedulerId} (hid : s.scheduler_ = some id)
    (hne : s.stopTrigger_ ≠ 0) :
    Wired { s.setScheduler id ((s.schedulers id).deleteEventTrigger s.stopTrigger_) with
      stopTrigger_ := 0
      phase := .closing } := by
  obtain ⟨stopPending, hstop⟩ := hw.stop_trigger id hid hne
  have hkeep : ∀ i pending,
      (s.schedulers id).triggers i = some ⟨.frameArrivedCallback, pending⟩ →
        i ≠ s.stopTrigger_ := by
    rintro i pending hi rfl
    rw [hstop] at hi
    cases hi
  refine { hw with
    server_phase := fun _ => Or.inr (Or.inr rfl)
    serving_server := by simp
    scheduler_alive := ?_
    scheduler_none := by simp
    source_trigger := ?_
    owner := ?_
    stop_trigger := fun _ _ h => absurd rfl h
    stop_trigger_zero := fun _ => rfl }
  · intro id' hid'
    obtain rfl := Option.some.inj (hid.symm.trans hid')
    simpa [TaskScheduler.deleteEventTrigger] using hw.scheduler_alive _ hid
  · intro src h hzero
    obtain ⟨pending, hpending⟩ := hw.source_trigger src h hzero
    have heq := Option.some.inj (hid.symm.trans (hw.source_scheduler src h))
    rw [← heq] at hpending
    refine ⟨pending, ?_⟩
    simp only [State.setScheduler, ← heq, if_true, TaskScheduler.deleteEventTrigger,
      TaskScheduler.setTrigger_triggers]
    rw [if_neg (hkeep _ _ hpending), hpending]
  · intro id' i pending hid' hi
    obtain rfl := Option.some.inj (hid.symm.trans hid')
    simp only [State.setScheduler, if_true, TaskScheduler.deleteEventTrigger,
      TaskScheduler.setTrigger_triggers] at hi
    split at hi
    · cases hi
    · exact hw.owner id i pending hid hi

theorem cleanupNoTrigger (hw : s.Wired) (hnone : s.scheduler_ = none ∨ s.stopTrigger_ = 0) :
    Wired { s with phase := .closing } :=
  { hw with
    server_phase := fun _ => Or.inr (Or.inr rfl)
    serving_server := by simp
    scheduler_none := by simp
    stop_trigger_zero := fun _ => hnone.elim (fun h => hw.stop_trigger_zero (Or.inl h)) id }

theorem closeServer (hw : s.Wired) (hphase : s.phase = .closing)
    (hdead : s.server_ = true → ∀ src < s.nextSource, (s.sources src).alive = false) :
    Wired { s with server_ := false, phase := .deleting } := by
  have hnone : ∀ src, (s.sources src).alive ≠ true := by
    intro src h
    have hfalse := hdead (hw.source_server src h) src (hw.source_lt src h)
    rw [h] at hfalse
    cases hfalse
  exact { hw with
    source_server := fun src h => absurd h (hnone src)
    server_phase := by simp
    serving_server := by simp
    scheduler_none := by simp
    stop_trigger_zero := fun _ => hw.stop_trigger_zero (Or.inr (by simp [hphase])) }

theorem deleteScheduler (hw : s.Wired) (hphase : s.phase = .deleting) {id : SchedulerId} :
    Wired { s.setScheduler id .unallocated with scheduler_ := none, phase := .clearing } := by
  have hdead := hw.no_source (by simp [hphase])
  have hserver : s.server_ ≠ true := fun h => by simpa [hphase] using hw.server_phase h
  exact { hw with
    source_scheduler := fun src h => absurd h (by simp [hdead src])
    server_phase := fun h => absurd h hserver
    serving_server := by simp
    scheduler_alive := by simp
    scheduler_none := by simp
    source_trigger := fun src h => absurd h (by simp [hdead src])
    owner := by simp
    stop_trigger := by simp
    stop_trigger_zero := fun _ => hw.stop_trigger_zero (Or.inr (by simp [hphase])) }

/-- **Every step keeps the registry in order.** -/
theorem transition (hw : s.Wired) {a : Action ε} {t : State ε} (h : Transition s a t) :
    t.Wired := by
  cases h with
  | pushNothing => exact hw
  | push e data timestampUs => exact hw.push e data timestampUs
  | wake e reader wakes hpushing => exact hw.wake hpushing
  | unlock => exact { hw with pushing_readers := by simp }
  | setupNoScheduler env stopTrigger server hphase =>
    have hdead := hw.no_source (by simp [hphase])
    have hserver : s.server_ ≠ true := fun h => by simpa [hphase] using hw.server_phase h
    exact { hw with
      source_scheduler := fun src h => absurd h (by simp [hdead src])
      server_phase := fun h => absurd h hserver
      serving_server := by simp
      scheduler_alive := by simp
      scheduler_none := by simp
      owner := by simp
      stop_trigger := by simp
      stop_trigger_zero := fun _ => hw.stop_trigger_zero (Or.inr (by simp [hphase])) }
  | setupNoEnv _ _ hphase => exact hw.setupNoEnv hphase
  | setup stopTrigger server created hphase hcreated => exact hw.setup hphase hcreated server
  | stopTriggerEvent id hid hne =>
    obtain ⟨pending, hpending⟩ := hw.stop_trigger id hid hne
    rw [TaskScheduler.triggerEvent_eq hpending]
    exact hw.setPending hid hpending _ fun _ h => by cases h
  | construct frameArrivedTrigger id created hphase hcall hid hcreated =>
    exact hw.construct hphase hcall hid hcreated
  | registerReader src hcall => exact hw.registerReader hcall
  | getNextFrame src fTo fMaxSize hphase hcall halive =>
    refine (hw.setSource src ((s.sources src).getNextFrame fTo fMaxSize) rfl rfl rfl).setCall
      (.delivering src) (by simp [hcall]) (by simp) ?_
    rintro src' ⟨⟩
    simpa [MyH264Source.getNextFrame] using halive
  | stopGettingFrames src =>
    exact hw.setSource src (s.sources src).stopGettingFrames rfl rfl rfl
  | dispatchStop id scheduler clientData hphase hcall hframes hscheduler htrigger =>
    rw [TaskScheduler.clearPending_eq htrigger]
    exact hw.setPending hscheduler htrigger none (by simp)
  | dispatchFrameArrived id scheduler clientData hphase hcall hframes hscheduler htrigger =>
    rw [TaskScheduler.clearPending_eq htrigger]
    refine (hw.setPending hscheduler htrigger none (by simp)).setCall (.delivering clientData)
      (by simp [hcall]) (by simp) ?_
    rintro src' ⟨⟩
    obtain ⟨-, src, halive, -, hdata⟩ := hw.owner scheduler id _ hscheduler htrigger
    simpa [hdata clientData rfl] using halive
  | deliverNotAwaiting src hcall =>
    exact hw.setCall .idle (by simp [hcall]) (by simp) (by simp [Call.source?])
  | deliverEmpty src hcall =>
    exact hw.setCall .idle (by simp [hcall]) (by simp) (by simp [Call.source?])
  | popNalu src nalu rest hcall =>
    have hw' := hw.setCall (.handing src nalu) (by simp [hcall]) (by simp) fun src' h =>
      hw.call_alive src' (by rw [hcall]; exact h)
    exact { hw' with }
  | afterGetting src nalu hcall =>
    obtain ⟨halive, hscheduler, htrigger⟩ := (s.sources src).fill_wiring nalu
    have hw' := (hw.setSource src ((s.sources src).fill nalu).afterGetting halive hscheduler
      htrigger).setCall .idle (by simp [hcall]) (by simp) (by simp [Call.source?])
    exact { hw' with }
  | clientReturn => exact { hw with }
  | destroy src hphase hcall halive =>
    refine hw.setCall (.unregistering src) (by simp [hcall]) (by simp) ?_
    rintro src' ⟨⟩
    exact halive
  | unregisterReader src hcall hfree => exact hw.unregisterReader hcall hfree
  | deleteNoTrigger src hcall hzero =>
    have hw' := hw.destroyed hcall rfl (fun i => by simp [hzero])
    rwa [State.setScheduler_self] at hw'
  | deleteEventTrigger src hcall hne =>
    refine hw.destroyed hcall rfl fun i => ?_
    by_cases hi : i = (s.sources src).frameArrivedTrigger <;>
      simp [hi, hne, TaskScheduler.deleteEventTrigger]
  | leaveEventLoop hphase =>
    exact { hw with
      server_phase := fun _ => Or.inr (Or.inl rfl)
      serving_server := by simp
      scheduler_none := by simp
      stop_trigger_zero := fun h => hw.stop_trigger_zero (Or.inl (h.elim id (by simp))) }
  | cleanupNoTrigger hphase hnone => exact hw.cleanupNoTrigger hnone
  | cleanupStopTrigger id hphase hid hne => exact hw.cleanupStopTrigger hid hne
  | closeServer hphase hcall hdead => exact hw.closeServer hphase hdead
  | deleteNoScheduler hphase hnone =>
    exact { hw with
      server_phase := fun h => by simpa [hphase] using hw.server_phase h
      serving_server := by simp
      scheduler_none := fun _ => hnone
      stop_trigger_zero := fun _ => hw.stop_trigger_zero (Or.inl hnone) }
  | deleteScheduler id hphase hid => exact hw.deleteScheduler hphase
  | clearQueue hphase hfree =>
    have hscheduler := hw.scheduler_none (Or.inr hphase)
    exact { hw with
      server_phase := fun h => by simpa [hphase] using hw.server_phase h
      serving_server := by simp
      scheduler_none := fun _ => hscheduler
      stop_trigger_zero := fun _ => hw.stop_trigger_zero (Or.inl hscheduler) }

theorem reachable [DecidableEq ε] (h : (machine ε).Reachable s) : s.Wired :=
  invariant new (fun _ _ _ hw ht => hw.transition ht) h

end Wired

end State

/-- **A push never wakes something dead.** In every reachable state the next `triggerEvent` of a
push refers to a scheduler, a trigger on it and a source that exist; the destructor of a source
takes its own entry out of the registry and no other; there is no reader when the scheduler is
deleted; and the event-loop thread is never in a member function of a destroyed source, so that
no `frameArrivedCallback` runs for one. -/
theorem push_wakes_living [DecidableEq ε] {s : State ε} (h : (machine ε).Reachable s) :
    (∀ e r wakes, s.pushing = some (e, r :: wakes) →
      (s.schedulers r.scheduler).alive = true ∧
        (∃ pending, (s.schedulers r.scheduler).triggers r.triggerId =
          some ⟨.frameArrivedCallback, pending⟩) ∧
        (s.sources r.clientData).alive = true) ∧
      (∀ src t, s.call = .unregistering src → s.step .unregisterReader = some t →
        ((s.sources src).frameArrivedTrigger ≠ 0 → s.reader src ∈ s.frameQueue.readers) ∧
          ∀ r, r ∈ t.frameQueue.readers ↔ r ∈ s.frameQueue.readers ∧ r.clientData ≠ src) ∧
      (∀ t, s.step .deleteScheduler = some t → s.frameQueue.readers = []) ∧
      ∀ src, s.call.source? = some src → (s.sources src).alive = true := by
  have hw := State.Wired.reachable h
  refine ⟨?_, ?_, ?_, hw.call_alive⟩
  · intro e r wakes hpushing
    obtain ⟨hsource, -, hscheduler, -, htrigger⟩ :=
      hw.wake_target hpushing List.mem_cons_self
    exact ⟨hscheduler, htrigger, hsource⟩
  · intro src t hcall ht
    have halive : (s.sources src).alive = true := hw.call_alive src (by rw [hcall]; rfl)
    refine ⟨fun hne => (hw.mem_readers _).mpr ⟨src, ⟨⟨halive, hne⟩, by simp [hcall]⟩, rfl⟩, ?_⟩
    have htransition := Transition.of_step ht
    cases htransition with
    | unregisterReader src' hcall' hfree =>
      obtain rfl : src = src' := by simpa [hcall] using hcall'
      intro r
      rw [H264FrameQueue.mem_unregisterReader]
      refine and_congr_right fun hr => ?_
      obtain ⟨src', hsrc', rfl⟩ := (hw.mem_readers r).mp hr
      refine not_congr ⟨fun htrigger => ?_, fun hsrc => ?_⟩
      · exact hw.distinct src' src hsrc'.1.1 halive htrigger hsrc'.1.2
      · have hsrc : src' = src := hsrc
        rw [hsrc]
        rfl
  · intro t ht
    have htransition := Transition.of_step ht
    refine hw.readers_eq_nil (hw.no_source ?_)
    cases htransition with
    | deleteNoScheduler hphase => simp [hphase]
    | deleteScheduler id hphase => simp [hphase]

/-- One source, and a push that is about to wake it. -/
def firstPush : List (Action Unit) :=
  [.setupLive555 true true 1 true, .construct 2, .registerReader,
    .push () (some [0x00, 0x00, 0x01, 0x65]) 0]

theorem push_wakes_living_firstPush :
    ∃ s, (machine Unit).exec .new firstPush = some s ∧ s.pushing = some ((), [⟨0, 2, 0⟩]) ∧
      (s.sources 0).alive = true := by
  obtain ⟨s, hrun, hpushing⟩ : ∃ s, (machine Unit).exec .new firstPush = some s ∧
      s.pushing = some ((), [⟨0, 2, 0⟩]) := ⟨_, rfl, rfl⟩
  exact ⟨s, hrun, hpushing, ((push_wakes_living ⟨firstPush, hrun⟩).1 () _ [] hpushing).2.2⟩

end RtspPush.Delivery
