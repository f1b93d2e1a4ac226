import RtspPush.Delivery.Request

/-!
# No trigger, reader or scheduler is left behind

A scheduler has few event triggers, and a server runs for long: what the constructors and the
set-up take has to be given back. `Tidy` is the half that `Wired` leaves open: only the current
scheduler is alive and has triggers, its stop trigger is the one in `stopTrigger_`, and no trigger
is registered twice. With it `nothing_left_behind` says exactly what is in use.
-/

namespace RtspPush.Delivery

open Lib

variable {ε : Type}

namespace State

/-- What is in use beside what the living sources use. -/
structure Tidy (s : State ε) : Prop where
  alive : ∀ id, (s.schedulers id).alive = true → s.scheduler_ = some id
  dead : ∀ id i, (s.schedulers id).alive = false → (s.schedulers id).triggers i = none
  stop : ∀ id i pending, (s.schedulers id).triggers i = some ⟨.stopEventCallback, pending⟩ →
    i = s.stopTrigger_ ∧ i ≠ 0
  nodup : (s.frameQueue.readers.map Reader.triggerId).Nodup

namespace Tidy

variable {s t : State ε}

theorem new : Tidy (.new : State ε) where
  alive id h := by cases h
  dead id i _ := rfl
  stop id i pending h := by cases h
  nodup := List.nodup_nil

/-- Nothing that is counted changes. -/
theorem of_same (hs : s.Tidy) (hschedulers : t.schedulers = s.schedulers)
    (hscheduler : t.scheduler_ = s.scheduler_) (hstop : t.stopTrigger_ = s.stopTrigger_)
    (hreaders : t.frameQueue.readers = s.frameQueue.readers) : t.Tidy where
  alive := by rw [hschedulers, hscheduler]; exact hs.alive
  dead := by rw [hschedulers]; exact hs.dead
  stop := by rw [hschedulers, hstop]; exact hs.stop
  nodup := by rw [hreaders]; exact hs.nodup

/-- A scheduler is replaced by one that lives as long and has no further stop trigger. -/
theorem setScheduler (hs : s.Tidy) {id : SchedulerId} {scheduler : TaskScheduler}
    (halive : scheduler.alive = (s.schedulers id).alive)
    (hdead : (s.schedulers id).alive = false → ∀ i, scheduler.triggers i = none)
    (hstop : ∀ i pending, scheduler.triggers i = some ⟨.stopEventCallback, pending⟩ →
      ∃ old, (s.schedulers id).triggers i = some ⟨.stopEventCallback, old⟩) :
    (s.setScheduler id scheduler).Tidy where
  alive id' h := by
    by_cases hid : id' = id
    · subst hid
      exact hs.alive id' (by simpa [halive] using h)
    · exact hs.alive id' (by simpa [hid] using h)
  dead id' i h := by
    by_cases hid : id' = id
    · subst hid
      simpa using hdead (by simpa [halive] using h) i
    · simpa [hid] using hs.dead id' i (by simpa [hid] using h)
  stop id' i pending h := by
    by_cases hid : id' = id
    · subst hid
      obtain ⟨old, hold⟩ := hstop i pending (by simpa using h)
      exact hs.stop id' i old hold
    · exact hs.stop id' i pending (by simpa [hid] using h)
  nodup := hs.nodup

/-- An event is raised or cleared. -/
theorem setPending (hs : s.Tidy) (id : SchedulerId) (i : EventTriggerId)
    (pending : Option ClientData) :
    (s.setScheduler id ((s.schedulers id).setTrigger i
      (((s.schedulers id).triggers i).map fun trigger =>
        { trigger with pending := pending }))).Tidy := by
  refine hs.setScheduler rfl (fun hdead j => ?_) fun j pending' h => ?_
  · rw [TaskScheduler.setTrigger_triggers]
    split
    · rw [hs.dead id i hdead]
      rfl
    · exact hs.dead id j hdead
  · rw [TaskScheduler.setTrigger_triggers] at h
    split at h
    · next hij =>
      obtain ⟨⟨handler, old⟩, htrigger, heq⟩ := Option.map_eq_some_iff.mp h
      cases heq
      exact ⟨old, hij ▸ htrigger⟩
    · exact ⟨pending', h⟩

/-- A trigger is deleted. -/
theorem deleteEventTrigger (hs : s.Tidy) (id : SchedulerId) (i : EventTriggerId) :
    (s.setScheduler id ((s.schedulers id).deleteEventTrigger i)).Tidy := by
  refine hs.setScheduler rfl (fun hdead j => ?_) fun j pending h => ?_
  · rw [TaskScheduler.deleteEventTrigger, TaskScheduler.setTrigger_triggers]
    split
    · rfl
    · exact hs.dead id j hdead
  · rw [TaskScheduler.deleteEventTrigger, TaskScheduler.setTrigger_triggers] at h
    split at h
    · cases h
    · exact ⟨pending, h⟩

/-- A source is constructed. -/
theorem createEventTrigger (hs : s.Tidy) (hw : s.Wired) {id : SchedulerId} {i : EventTriggerId}
    {created : TaskScheduler} (hid : s.scheduler_ = some id)
    (h : (s.schedulers id).createEventTrigger .frameArrivedCallback i = some created) :
    (s.setScheduler id created).Tidy := by
  rcases TaskScheduler.createEventTrigger_eq_some h with ⟨-, rfl⟩ | ⟨hne, hfree, rfl⟩
  · rw [setScheduler_self]
    exact hs
  · refine hs.setScheduler rfl (fun hdead => ?_) fun j pending hj => ?_
    · rw [hw.scheduler_alive id hid] at hdead
      cases hdead
    · rw [TaskScheduler.setTrigger_triggers] at hj
      split at hj
      · cases hj
      · exact ⟨pending, hj⟩

/-- A session sets up its scheduler; all others are dead. -/
theorem setup (hs : s.Tidy) (hw : s.Wired) (hphase : s.phase = .stopped) {id : SchedulerId}
    {scheduler : TaskScheduler}
    (hschedulers : t.schedulers = (s.setScheduler id scheduler).schedulers)
    (hscheduler : t.scheduler_ = some id) (halive : scheduler.alive = true)
    (hstop : ∀ i pending, scheduler.triggers i = some ⟨.stopEventCallback, pending⟩ →
      i = t.stopTrigger_ ∧ i ≠ 0)
    (hreaders : t.frameQueue.readers = s.frameQueue.readers) : t.Tidy := by
  have hnone := hw.scheduler_none (Or.inl hphase)
  have hdead : ∀ id', (s.schedulers id').alive = false := by
    intro id'
    by_contra hnot
    have hsome := hs.alive id' (by simpa using hnot)
    rw [hnone] at hsome
    cases hsome
  refine ⟨fun id' h => ?_, fun id' i h => ?_, fun id' i pending h => ?_, hreaders ▸ hs.nodup⟩
  · rw [hschedulers] at h
    by_cases hid : id' = id
    · rw [hscheduler, hid]
    · rw [State.setScheduler] at h
      simp [hid, hdead id'] at h
  · rw [hschedulers] at h ⊢
    by_cases hid : id' = id
    · simp [hid, halive] at h
    · simpa [hid] using hs.dead id' i (hdead id')
  · rw [hschedulers] at h
    by_cases hid : id' = id
    · exact hstop i pending (by simpa [hid] using h)
    · simp [hid, hs.dead id' i (hdead id')] at h

/-- No other scheduler than the current one has triggers. -/
theorem triggers_eq_none (hs : s.Tidy) {id id' : SchedulerId} (hid : s.scheduler_ = some id)
    (hne : id' ≠ id) (i : EventTriggerId) : (s.schedulers id').triggers i = none := by
  refine hs.dead id' i ?_
  by_contra halive
  have hcurrent := hs.alive id' (by simpa using halive)
  rw [hid] at hcurrent
  exact hne (Option.some.inj hcurrent).symm

theorem cleanupStopTrigger (hs : s.Tidy) {id : SchedulerId} (hid : s.scheduler_ = some id) :
    Tidy { s.setScheduler id ((s.schedulers id).deleteEventTrigger s.stopTrigger_) with
      stopTrigger_ := 0
      phase := .closing } := by
  refine { hs.deleteEventTrigger id s.stopTrigger_ with stop := fun id' i pending h => ?_ }
  -- the only stop trigger is the deleted one
  by_cases hid' : id' = id
  · subst hid'
    have hdeleted : ((s.schedulers id').deleteEventTrigger s.stopTrigger_).triggers i =
        some ⟨.stopEventCallback, pending⟩ := by simpa using h
    rw [TaskScheduler.deleteEventTrigger, TaskScheduler.setTrigger_triggers] at hdeleted
    split at hdeleted
    · cases hdeleted
    · next hne => exact absurd (hs.stop id' i pending hdeleted).1 hne
  · have hnone := hs.triggers_eq_none hid hid' i
    simp [hid', hnone] at h

theorem deleteScheduler (hs : s.Tidy) {id : SchedulerId} (hid : s.scheduler_ = some id) :
    Tidy { s.setScheduler id .unallocated with scheduler_ := none, phase := .clearing } where
  alive id' h := by
    by_cases hid' : id' = id
    · simp [hid', TaskScheduler.unallocated] at h
    · have hcurrent := hs.alive id' (by simpa [hid'] using h)
      rw [hid] at hcurrent
      exact absurd (Option.some.inj hcurrent).symm hid'
  dead id' i _ := by
    by_cases hid' : id' = id
    · simp [hid', TaskScheduler.unallocated]
    · simpa [hid'] using hs.triggers_eq_none hid hid' i
  stop id' i pending h := by
    by_cases hid' : id' = id
    · simp [hid', TaskScheduler.unallocated] at h
    · simp [hid', hs.triggers_eq_none hid hid' i] at h
  nodup := hs.nodup

/-- A source that registers itself has a trigger that no reader has. -/
theorem registerReader (hs : s.Tidy) (hw : s.Wired) {src : SourceId}
    (hcall : s.call = .constructing src) :
    Tidy { s with
      frameQueue := s.frameQueue.registerReader (some (s.sources src).scheduler)
        (s.sources src).frameArrivedTrigger src
      call := .idle } := by
  refine { hs with nodup := ?_ }
  simp only [H264FrameQueue.registerReader]
  split
  · exact hs.nodup
  · next hne =>
    have halive := hw.call_alive src (by rw [hcall]; rfl)
    simp only [List.map_append, List.map_cons, List.map_nil]
    refine List.nodup_append.mpr ⟨hs.nodup, by simp, fun id hid id' hid' heq => ?_⟩
    obtain ⟨r, hr, rfl⟩ := List.mem_map.mp hid
    obtain ⟨src', ⟨hregistered, hbehind, -⟩, rfl⟩ := (hw.mem_readers r).mp hr
    have hsame : (s.sources src').frameArrivedTrigger = (s.sources src).frameArrivedTrigger :=
      heq.trans (by simpa using hid')
    have hself := hw.distinct src' src hregistered.1 halive hsame hregistered.2
    exact hbehind (hself ▸ hcall)

theorem unregisterReader (hs : s.Tidy) (src : SourceId) (call : Call) :
    Tidy { s with
      frameQueue := s.frameQueue.unregisterReader (s.sources src).frameArrivedTrigger
      call := call } :=
  { hs with nodup := hs.nodup.sublist (List.filter_sublist.map _) }

theorem transition (hs : s.Tidy) (hw : s.Wired) {a : Action ε} (h : Transition s a t) :
    t.Tidy := by
  cases h with
  | pushNothing => exact hs
  | push e data timestampUs =>
    exact hs.of_same rfl rfl rfl (s.frameQueue.pushAnnexBFrame_readers data timestampUs)
  | wake e reader wakes =>
    exact { hs.setPending reader.scheduler reader.triggerId (some reader.clientData) with }
  | setupNoScheduler env stopTrigger server hphase =>
    exact hs.of_same rfl (hw.scheduler_none (Or.inl hphase)).symm rfl rfl
  | setupNoEnv stopTrigger server hphase =>
    exact hs.setup hw hphase rfl rfl rfl (by simp [TaskScheduler.new]) rfl
  | setup stopTrigger server created hphase hcreated =>
    rcases TaskScheduler.createEventTrigger_eq_some hcreated with ⟨-, rfl⟩ | ⟨hne, -, rfl⟩
    · exact hs.setup hw hphase rfl rfl rfl (by simp [TaskScheduler.new]) rfl
    · refine hs.setup hw hphase rfl rfl rfl (fun i pending h => ?_) rfl
      rw [TaskScheduler.setTrigger_triggers] at h
      split at h
      · next hi => exact ⟨hi, hi ▸ hne⟩
      · cases h
  | stopTriggerEvent id => exact hs.setPending id s.stopTrigger_ (some 0)
  | construct frameArrivedTrigger id created hphase hcall hid hcreated =>
    exact { hs.createEventTrigger hw hid hcreated with }
  | registerReader src hcall => exact hs.registerReader hw hcall
  | dispatchStop id scheduler => exact hs.setPending scheduler id none
  | dispatchFrameArrived id scheduler clientData =>
    exact { hs.setPending scheduler id none with }
  | unregisterReader src => exact hs.unregisterReader src _
  | deleteEventTrigger src =>
    have hs' := hs.deleteEventTrigger (s.sources src).scheduler (s.sources src).frameArrivedTrigger
    exact { hs' with }
  | cleanupStopTrigger id hphase hid => exact hs.cleanupStopTrigger hid
  | deleteScheduler id hphase hid => exact hs.deleteScheduler hid
  | _ => exact { hs with }

theorem openStep [DecidableEq ε] (hs : s.Tidy) (hw : s.Wired) {e : Event ε}
    (h : s.openStep e = some t) : t.Tidy := by
  cases e with
  | act a => exact hs.transition hw (.of_step h)
  | frameArrivedCallback src =>
    obtain ⟨-, rfl⟩ := frameArrivedCallback_iff.mp h
    exact { hs with }

theorem reachable [DecidableEq ε] (h : (openMachine ε).Reachable s) : s.Wired ∧ s.Tidy :=
  Machine.invariant (M := openMachine ε) (I := fun s => s.Wired ∧ s.Tidy) ⟨Wired.new, Tidy.new⟩
    (fun _ _ _ hs ht => ⟨hs.1.openStep ht, hs.2.openStep hs.1 ht⟩) h

end Tidy

/-- The trigger `i` is the stop trigger or that of a living source. -/
def Uses (s : State ε) (i : EventTriggerId) : Prop :=
  i ≠ 0 ∧ (i = s.stopTrigger_ ∨
    ∃ src, (s.sources src).alive = true ∧ (s.sources src).frameArrivedTrigger = i)

/-- A trigger is allocated while it is in use, and no longer. -/
theorem triggers_iff {s : State ε} (hw : s.Wired) (hs : s.Tidy) (id : SchedulerId)
    (i : EventTriggerId) : ((s.schedulers id).triggers i).isSome = true ↔
      s.scheduler_ = some id ∧ s.Uses i := by
  constructor
  · intro hsome
    obtain ⟨⟨handler, pending⟩, htrigger⟩ := Option.isSome_iff_exists.mp hsome
    have hid : s.scheduler_ = some id := by
      refine hs.alive id ?_
      by_contra hnot
      rw [hs.dead id i (by simpa using hnot)] at htrigger
      cases htrigger
    refine ⟨hid, ?_⟩
    cases handler with
    | stopEventCallback =>
      obtain ⟨hi, hne⟩ := hs.stop id i pending htrigger
      exact ⟨hne, Or.inl hi⟩
    | frameArrivedCallback =>
      obtain ⟨hne, src, halive, hsrc, -⟩ := hw.owner id i pending hid htrigger
      exact ⟨hne, Or.inr ⟨src, halive, hsrc⟩⟩
  · rintro ⟨hid, hne, hstop | ⟨src, halive, hsrc⟩⟩
    · obtain ⟨pending, htrigger⟩ := hw.stop_trigger id hid (hstop ▸ hne)
      rw [hstop, htrigger]
      rfl
    · obtain ⟨pending, htrigger⟩ := hw.source_trigger src halive (hsrc ▸ hne)
      have hscheduler : id = (s.sources src).scheduler :=
        Option.some.inj (hid.symm.trans (hw.source_scheduler src halive))
      rw [hscheduler, ← hsrc, htrigger]
      rfl

/-- The trigger of a living source is not the stop trigger. -/
theorem Wired.ne_stopTrigger {s : State ε} (hw : s.Wired) {src : SourceId}
    (halive : (s.sources src).alive = true) (hne : (s.sources src).frameArrivedTrigger ≠ 0) :
    (s.sources src).frameArrivedTrigger ≠ s.stopTrigger_ := by
  intro hsame
  obtain ⟨pending, htrigger⟩ := hw.source_trigger src halive hne
  obtain ⟨pending', hstop⟩ :=
    hw.stop_trigger _ (hw.source_scheduler src halive) (hsame ▸ hne)
  rw [hsame, hstop] at htrigger
  cases htrigger

end State

/-- **Nothing is left behind.** In every reachable state, whatever the sources do and however the
sessions end: the one scheduler alive is the current one; its triggers are the stop trigger and
those of the living sources, each of them one object's, and no other scheduler has any; the
readers are the sources with a trigger between `registerReader` and `unregisterReader`, each once;
and between sessions there is no scheduler, no trigger, no server, no source and no reader. -/
theorem nothing_left_behind [DecidableEq ε] {s : State ε} (h : (openMachine ε).Reachable s) :
    (∀ id, (s.schedulers id).alive = true ↔ s.scheduler_ = some id) ∧
      (∀ id i, ((s.schedulers id).triggers i).isSome = true ↔ s.scheduler_ = some id ∧ s.Uses i) ∧
      (∀ src, (s.sources src).alive = true → (s.sources src).frameArrivedTrigger ≠ 0 →
        (s.sources src).frameArrivedTrigger ≠ s.stopTrigger_ ∧
          ∀ src', (s.sources src').alive = true →
            (s.sources src').frameArrivedTrigger = (s.sources src).frameArrivedTrigger →
              src' = src) ∧
      ((s.frameQueue.readers.map Reader.triggerId).Nodup ∧
        ∀ r, r ∈ s.frameQueue.readers ↔ ∃ src, s.Registered src ∧ r = s.reader src) ∧
      (s.phase = .stopped → (∀ id, (s.schedulers id).alive = false) ∧
        (∀ id i, (s.schedulers id).triggers i = none) ∧ s.server_ = false ∧
        (∀ src, (s.sources src).alive = false) ∧ s.frameQueue.readers = []) := by
  obtain ⟨hw, hs⟩ := State.Tidy.reachable h
  refine ⟨fun id => ⟨hs.alive id, hw.scheduler_alive id⟩, State.triggers_iff hw hs,
    fun src halive hne => ⟨hw.ne_stopTrigger halive hne, fun src' halive' hsame =>
      hw.distinct src' src halive' halive hsame (hsame ▸ hne)⟩,
    ⟨hs.nodup, hw.mem_readers⟩, fun hphase => ?_⟩
  have hdead : ∀ id, (s.schedulers id).alive = false := by
    intro id
    by_contra hnot
    have hsome := hs.alive id (by simpa using hnot)
    rw [hw.scheduler_none (Or.inl hphase)] at hsome
    cases hsome
  have hserver : s.server_ = false := by
    by_contra hnot
    have hmay := hw.server_phase (by simpa using hnot)
    simp [hphase] at hmay
  have hsources := hw.no_source (by simp [hphase])
  exact ⟨hdead, fun id i => hs.dead id i (hdead id), hserver, hsources, hw.readers_eq_nil hsources⟩

/-- A session with a source, from set-up to the end of `cleanupLive555`. -/
def wholeSession : List (Event Unit) :=
  [.act (.setupLive555 true true 1 true), .act (.construct 2), .act .registerReader,
    .act .leaveEventLoop, .act .cleanupStopTrigger, .act (.destroy 0), .act .unregisterReader,
    .act .deleteEventTrigger, .act .closeServer, .act .deleteScheduler, .act .clearQueue]

theorem nothing_left_behind_wholeSession :
    ∃ s, (openMachine Unit).exec .new wholeSession = some s ∧ s.frameQueue.readers = [] ∧
      ∀ id i, (s.schedulers id).triggers i = none := by
  obtain ⟨s, hrun, hphase⟩ : ∃ s, (openMachine Unit).exec .new wholeSession = some s ∧
      s.phase = .stopped := ⟨_, rfl, rfl⟩
  obtain ⟨-, htriggers, -, -, hreaders⟩ := (nothing_left_behind ⟨wholeSession, hrun⟩).2.2.2.2 hphase
  exact ⟨s, hrun, hreaders, htriggers⟩

end RtspPush.Delivery
