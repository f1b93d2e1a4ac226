import Mathlib.Data.FinEnum
import Mathlib.Data.Set.Card
import RtspPush.Delivery.Wakeup
import RtspPush.Lib.Potential

/-!
# The stream never stalls

Between two requests the event loop only works off what is there: the wake-ups of a push, the
pending triggers, the call it is in. `State.todo` prices this, so that over any run the steps that
work something off are bounded by what pushes, requests and new sources have brought in; and when
nothing of the kind can be done any more, no source with a trigger that awaits data has any in the
queue. (A source whose `createEventTrigger` has returned 0 is woken by nobody.)
-/

namespace RtspPush.Delivery

open Lib

variable {ε : Type}

/-! ## What is to do -/

/-- A step that works off what is under way, rather than bring in something new. -/
def Action.worksOff : Action ε → Bool
  | .wake _ | .unlock _ | .registerReader | .dispatch _ | .popNalu | .afterGetting
  | .clientReturn | .unregisterReader | .deleteEventTrigger => true
  | _ => false

namespace Call

/-- The price of a call that the event-loop thread is in. -/
def rank : Call → Nat
  | .idle => 0
  | .constructing _ => 1
  | .delivering _ => 4
  | .handing _ _ => 3
  | .unregistering _ => 2
  | .deletingTrigger _ => 1

end Call

namespace State

/-- The triggers with an event pending. -/
def pendingTriggers (s : State ε) : Set EventTriggerId :=
  {id | ∃ scheduler handler clientData, s.scheduler_ = some scheduler ∧
    (s.schedulers scheduler).triggers id = some ⟨handler, some clientData⟩}

/-- What a push in its mutex section has to do: the wake-ups that are left, and its return. -/
def pushTodo (s : State ε) : Nat :=
  match s.pushing with
  | none => 0
  | some (_, wakes) => 6 * wakes.length + 1

/-- The potential: every wake-up may raise a trigger, every trigger may begin a `deliverFrame`, and
every `deliverFrame` may hand something over. -/
noncomputable def todo (s : State ε) : Nat :=
  s.pushTodo + 5 * s.pendingTriggers.ncard + s.call.rank + s.frames.length

/-- What a step brings in at most. -/
def brings (s : State ε) : Action ε → Nat
  | .push _ _ _ => 6 * s.frameQueue.readers.length + 1
  | .stopTriggerEvent => 5
  | .construct _ => 1
  | .getNextFrame _ _ _ => 4
  | .destroy _ => 2
  | _ => 0

/-- Nothing that is under way can be worked off. -/
def Quiet [DecidableEq ε] (s : State ε) : Prop :=
  ∀ a : Action ε, a.worksOff = true → s.step a = none

/-! ## A step pays for itself -/

variable {s t : State ε}

/-- Raising a trigger adds one at most. -/
theorem ncard_pending_triggerEvent (hscheduler : t.scheduler_ = s.scheduler_) {id : SchedulerId}
    {i : EventTriggerId} {clientData : ClientData}
    (hschedulers : t.schedulers = (s.setScheduler id
      ((s.schedulers id).triggerEvent i clientData)).schedulers) :
    t.pendingTriggers.ncard ≤ s.pendingTriggers.ncard + 1 := by
  refine (Set.ncard_le_ncard ?_).trans (Set.ncard_insert_le i s.pendingTriggers)
  rintro j ⟨scheduler, handler, data, hcurrent, htrigger⟩
  rw [hscheduler] at hcurrent
  by_cases hj : j = i
  · exact Or.inl hj
  · refine Or.inr ⟨scheduler, handler, data, hcurrent, ?_⟩
    rw [hschedulers] at htrigger
    simp only [setScheduler, TaskScheduler.triggerEvent] at htrigger
    split at htrigger
    · next hsame =>
      rw [TaskScheduler.setTrigger_triggers, if_neg hj, ← hsame] at htrigger
      exact htrigger
    · exact htrigger

/-- Setting a trigger to something that is not pending adds none, and takes it away from the
pending ones of the scheduler. -/
theorem mem_pending_of_setTrigger (hscheduler : t.scheduler_ = s.scheduler_) {id : SchedulerId}
    {i : EventTriggerId} {trigger : Option EventTrigger}
    (hschedulers : t.schedulers = (s.setScheduler id
      ((s.schedulers id).setTrigger i trigger)).schedulers)
    (hidle : ∀ handler clientData, trigger ≠ some ⟨handler, some clientData⟩)
    {j : EventTriggerId} (hj : j ∈ t.pendingTriggers) :
    j ∈ s.pendingTriggers ∧ (s.scheduler_ = some id → j ≠ i) := by
  obtain ⟨scheduler, handler, data, hcurrent, htrigger⟩ := hj
  rw [hscheduler] at hcurrent
  rw [hschedulers] at htrigger
  simp only [setScheduler] at htrigger
  split at htrigger
  · next hsame =>
    rw [TaskScheduler.setTrigger_triggers] at htrigger
    split at htrigger
    · exact absurd htrigger (hidle handler data)
    · next hne => exact ⟨⟨scheduler, handler, data, hcurrent, hsame ▸ htrigger⟩, fun _ => hne⟩
  · next hother =>
    refine ⟨⟨scheduler, handler, data, hcurrent, htrigger⟩, fun hid => ?_⟩
    rw [hcurrent] at hid
    exact absurd (Option.some.inj hid) hother

theorem ncard_pending_setTrigger (hscheduler : t.scheduler_ = s.scheduler_) {id : SchedulerId}
    {i : EventTriggerId} {trigger : Option EventTrigger}
    (hschedulers : t.schedulers = (s.setScheduler id
      ((s.schedulers id).setTrigger i trigger)).schedulers)
    (hidle : ∀ handler clientData, trigger ≠ some ⟨handler, some clientData⟩) :
    t.pendingTriggers.ncard ≤ s.pendingTriggers.ncard :=
  Set.ncard_le_ncard fun _ hj => (mem_pending_of_setTrigger hscheduler hschedulers hidle hj).1

/-- The loop takes an event. -/
theorem ncard_pending_dispatch (hscheduler : t.scheduler_ = s.scheduler_) {id : SchedulerId}
    (hid : s.scheduler_ = some id) {i : EventTriggerId} {handler : TaskFunc}
    {clientData : ClientData}
    (htrigger : (s.schedulers id).triggers i = some ⟨handler, some clientData⟩)
    (hschedulers : t.schedulers = (s.setScheduler id
      ((s.schedulers id).clearPending i)).schedulers) :
    t.pendingTriggers.ncard + 1 ≤ s.pendingTriggers.ncard := by
  have hmem : i ∈ s.pendingTriggers := ⟨id, handler, clientData, hid, htrigger⟩
  rw [TaskScheduler.clearPending_eq htrigger] at hschedulers
  have hsub : t.pendingTriggers ⊆ s.pendingTriggers \ {i} := by
    intro j hj
    obtain ⟨hold, hne⟩ := mem_pending_of_setTrigger hscheduler hschedulers (by simp) hj
    exact ⟨hold, hne hid⟩
  have hcard := Set.ncard_le_ncard hsub
  have hremoved := Set.ncard_sdiff_singleton_add_one hmem
  omega

/-- A scheduler that is new has no events. -/
theorem ncard_pending_eq_zero
    (h : ∀ scheduler i handler clientData, t.scheduler_ = some scheduler →
      (t.schedulers scheduler).triggers i ≠ some ⟨handler, some clientData⟩) :
    t.pendingTriggers.ncard = 0 := by
  have hempty : t.pendingTriggers = ∅ := by
    refine Set.eq_empty_of_forall_notMem ?_
    rintro i ⟨scheduler, handler, clientData, hscheduler, htrigger⟩
    exact h scheduler i handler clientData hscheduler htrigger
  rw [hempty, Set.ncard_empty]

/-- The potential by its parts: `raised` triggers are raised and `taken` ones taken. -/
theorem todo_le {work bring : Nat} (raised taken : Nat)
    (hpending : t.pendingTriggers.ncard + taken ≤ s.pendingTriggers.ncard + raised)
    (hrest : work + t.pushTodo + t.call.rank + t.frames.length + 5 * raised ≤
      s.pushTodo + s.call.rank + s.frames.length + 5 * taken + bring) :
    work + t.todo ≤ s.todo + bring := by
  rw [todo, todo]
  omega

/-- **A step that works something off is paid for**, by the potential or by what the step brings
in. -/
theorem todo_transition {a : Action ε} (h : Transition s a t) :
    (if a.worksOff then 1 else 0) + t.todo ≤ s.todo + s.brings a := by
  cases h with
  | wake e reader wakes hpushing =>
    refine todo_le 1 0 (ncard_pending_triggerEvent (s := s) rfl rfl) ?_
    simp [Action.worksOff, pushTodo, hpushing, brings]
    omega
  | stopTriggerEvent id hid hne =>
    exact todo_le 1 0 (ncard_pending_triggerEvent (s := s) rfl rfl)
      (by simp [Action.worksOff, pushTodo, brings])
  | dispatchStop id scheduler clientData hphase hcall hframes hscheduler htrigger =>
    refine todo_le 0 1 (ncard_pending_dispatch (s := s) rfl hscheduler htrigger rfl) ?_
    simp [Action.worksOff, pushTodo, brings]
    omega
  | dispatchFrameArrived id scheduler clientData hphase hcall hframes hscheduler htrigger =>
    refine todo_le 0 1 (ncard_pending_dispatch (s := s) rfl hscheduler htrigger rfl) ?_
    simp [Action.worksOff, pushTodo, brings, hcall, Call.rank]
    omega
  -- a scheduler is made, or the triggers of one are deleted
  | setupNoScheduler =>
    refine todo_le 0 0 ?_ (by simp [Action.worksOff, pushTodo, brings])
    rw [ncard_pending_eq_zero (by simp)]
    exact Nat.zero_le _
  | setupNoEnv =>
    refine todo_le 0 0 ?_ (by simp [Action.worksOff, pushTodo, brings])
    rw [ncard_pending_eq_zero ?_]
    · exact Nat.zero_le _
    · rintro scheduler i handler clientData ⟨⟩
      simp [TaskScheduler.new]
  | setup stopTrigger server created hphase hcreated =>
    refine todo_le 0 0 ?_ (by simp [Action.worksOff, pushTodo, brings])
    rw [ncard_pending_eq_zero ?_]
    · exact Nat.zero_le _
    · rintro scheduler i handler clientData ⟨⟩
      rcases TaskScheduler.createEventTrigger_eq_some hcreated with ⟨-, rfl⟩ | ⟨-, -, rfl⟩
      · simp [TaskScheduler.new]
      · simp [TaskScheduler.new]
  | construct frameArrivedTrigger id created hphase hcall hid hcreated =>
    refine todo_le 0 0 ?_ (by simp [Action.worksOff, pushTodo, brings, hcall, Call.rank]; omega)
    rcases TaskScheduler.createEventTrigger_eq_some hcreated with ⟨-, rfl⟩ | ⟨-, -, rfl⟩
    · rw [State.setScheduler_self]
      exact Nat.le_refl _
    · exact ncard_pending_setTrigger (s := s) rfl rfl (by simp)
  | deleteEventTrigger src hcall =>
    exact todo_le 0 0 (ncard_pending_setTrigger (s := s) rfl rfl (by simp))
      (by simp [Action.worksOff, pushTodo, brings, hcall, Call.rank]; omega)
  | cleanupStopTrigger =>
    exact todo_le 0 0 (ncard_pending_setTrigger (s := s) rfl rfl (by simp))
      (by simp [Action.worksOff, pushTodo, brings])
  | deleteScheduler =>
    refine todo_le 0 0 ?_ (by simp [Action.worksOff, pushTodo, brings])
    rw [ncard_pending_eq_zero (by simp)]
    exact Nat.zero_le _
  -- no trigger changes
  | push _ _ _ _ hfree =>
    exact todo_le 0 0 (Nat.le_refl _) (by simp [Action.worksOff, pushTodo, hfree, brings]; omega)
  | unlock _ hpushing =>
    exact todo_le 0 0 (Nat.le_refl _) (by simp [Action.worksOff, pushTodo, hpushing, brings])
  | registerReader _ hcall | getNextFrame _ _ _ _ hcall | deliverNotAwaiting _ hcall
    | deliverEmpty _ hcall | popNalu _ _ _ hcall | afterGetting _ _ hcall | destroy _ _ hcall
    | unregisterReader _ hcall | deleteNoTrigger _ hcall =>
    exact todo_le 0 0 (Nat.le_refl _)
      (by simp [Action.worksOff, pushTodo, hcall, brings, Call.rank]; omega)
  | clientReturn _ _ _ hframes =>
    exact todo_le 0 0 (Nat.le_refl _) (by simp [Action.worksOff, pushTodo, hframes, brings]; omega)
  | pushNothing => exact todo_le 0 0 (Nat.le_refl _) (by simp [Action.worksOff])
  | stopGettingFrames => exact todo_le 0 0 (Nat.le_refl _) (by simp [Action.worksOff, pushTodo])
  | leaveEventLoop => exact todo_le 0 0 (Nat.le_refl _) (by simp [Action.worksOff, pushTodo])
  | cleanupNoTrigger => exact todo_le 0 0 (Nat.le_refl _) (by simp [Action.worksOff, pushTodo])
  | closeServer => exact todo_le 0 0 (Nat.le_refl _) (by simp [Action.worksOff, pushTodo])
  | deleteNoScheduler => exact todo_le 0 0 (Nat.le_refl _) (by simp [Action.worksOff, pushTodo])
  | clearQueue => exact todo_le 0 0 (Nat.le_refl _) (by simp [Action.worksOff, pushTodo])

/-! ## When nothing is left to do -/

namespace Quiet

variable [DecidableEq ε]

theorem pushing_eq_none (hq : s.Quiet) : s.pushing = none := by
  match hpushing : s.pushing with
  | none => rfl
  | some (e, []) =>
    have hunlock := hq (.unlock e) rfl
    simp [State.step, State.unlock, hpushing] at hunlock
  | some (e, reader :: wakes) =>
    have hwake := hq (.wake e) rfl
    simp [State.step, State.wake, hpushing] at hwake

theorem call_eq_idle (hq : s.Quiet) : s.call = .idle := by
  have hfree := hq.pushing_eq_none
  cases hcall : s.call with
  | idle => rfl
  | constructing src =>
    have hregister := hq .registerReader rfl
    simp [State.step, State.registerReader, hcall, hfree] at hregister
  | delivering src =>
    have hpop := hq .popNalu rfl
    simp only [State.step, State.popNalu, hcall, hfree] at hpop
    split at hpop
    · cases hpop
    · split at hpop
      · next h => cases h
      · split at hpop <;> cases hpop
  | handing src nalu =>
    have hhand := hq .afterGetting rfl
    simp [State.step, State.afterGetting, hcall] at hhand
  | unregistering src =>
    have hunregister := hq .unregisterReader rfl
    simp [State.step, State.unregisterReader, hcall, hfree] at hunregister
  | deletingTrigger src =>
    have hdelete := hq .deleteEventTrigger rfl
    simp [State.step, State.deleteEventTrigger, hcall] at hdelete

theorem frames_eq_nil (hq : s.Quiet) : s.frames = [] := by
  cases hframes : s.frames with
  | nil => rfl
  | cons src frames =>
    have hreturn := hq .clientReturn rfl
    simp [State.step, State.clientReturn, hq.call_eq_idle, hframes] at hreturn

/-- The loop leaves no event of a source alone. -/
theorem not_pending (hq : s.Quiet) (hw : s.Wired) (hserving : s.phase = .serving) {src : SourceId}
    (halive : (s.sources src).alive = true) : ¬ s.Pending src := by
  intro hpending
  have hdispatch := hq (.dispatch (s.sources src).frameArrivedTrigger) rfl
  have hscheduler := hw.source_scheduler src halive
  rw [Pending] at hpending
  simp [State.step, State.dispatch, hserving, hq.call_eq_idle, hq.frames_eq_nil, hscheduler,
    hpending] at hdispatch

/-- **In the quiet nobody waits for data that is there.** -/
theorem queue_eq_nil (hq : s.Quiet) (hw : s.Wired) (ha : s.Awake) (hserving : s.phase = .serving)
    {src : SourceId} (hsrc : s.Waiting src) : s.frameQueue.queue = [] := by
  by_contra hqueue
  have hidle := hq.call_eq_idle
  rcases ha.woken hqueue src hsrc with (hpending | ⟨e, wakes, hwake, -⟩ | hdelivering) | ⟨nalu, h⟩
  · exact hq.not_pending hw hserving hsrc.1.1 hpending
  · rw [hq.pushing_eq_none] at hwake
    cases hwake
  · rw [hidle] at hdelivering
    cases hdelivering
  · rw [hidle] at h
    cases h

end Quiet

end State

/-- **The stream never stalls.** In every run, the steps of the event loop and of the pushes that
work something off are at most as many as the potential at its start and what has been brought in
since: a push brings one wake-up for each reader, a request one `deliverFrame`. So with nothing
brought in the loop comes to rest, and when it does in a session, every source with a trigger that
awaits data finds the queue empty. -/
theorem stream_never_stalls [DecidableEq ε] {s t : State ε} (hs : (machine ε).Reachable s)
    {as : List (Action ε)} (hrun : (machine ε).exec s as = some t) :
    as.countP Action.worksOff + t.todo ≤ s.todo + (machine ε).spent State.brings s as ∧
      (t.phase = .serving → t.Quiet → ∀ src, t.Waiting src → t.frameQueue.queue = []) := by
  constructor
  · have hstep : ∀ s a t, True → True → (machine ε).step s a = some t →
        True ∧ (if a.worksOff then 1 else 0) + t.todo ≤ s.todo + s.brings a :=
      fun s a t _ _ h => ⟨trivial, State.todo_transition (.of_step h)⟩
    have hpaid := (Machine.potential (P := fun _ _ => True) (I := fun _ => True) hstep trivial
      (Machine.along_true s as) hrun).2
    rwa [Machine.spent_countP hrun, Nat.one_mul] at hpaid
  · intro hserving hquiet src hsrc
    have ht := hs.exec hrun
    exact hquiet.queue_eq_nil (.reachable ht) (.reachable ht) hserving hsrc

/-- A source asks for a NALU before there is one, is woken by the push, and asks again. -/
def askedEarly : List (Action Unit) :=
  [.setupLive555 true true 1 true, .construct 2, .registerReader, .getNextFrame 0 0 100, .popNalu,
    .push () (some [0, 0, 1, 0x65]) 7, .wake (), .unlock (), .dispatch 2, .popNalu, .afterGetting,
    .clientReturn, .getNextFrame 0 0 100, .popNalu]

theorem asked_early_never_stalls :
    ∃ s, (machine Unit).exec .new askedEarly = some s ∧ s.Waiting 0 ∧
      s.handed = [⟨0, 1, 0, [0x65], 1, 0, ⟨0, 7⟩⟩] ∧
      askedEarly.countP Action.worksOff + s.todo ≤ (State.new : State Unit).todo + 16 ∧
      s.frameQueue.queue = [] := by
  obtain ⟨s, hrun, hserving, hsrc, hhanded, hquiet⟩ : ∃ s,
      (machine Unit).exec .new askedEarly = some s ∧ s.phase = .serving ∧ s.Waiting 0 ∧
        s.handed = [⟨0, 1, 0, [0x65], 1, 0, ⟨0, 7⟩⟩] ∧ s.Quiet := by
    refine ⟨_, rfl, rfl, ⟨⟨rfl, by decide, by decide, by decide, by decide⟩, rfl⟩, by decide,
      fun a ha => ?_⟩
    cases a with
    | dispatch id =>
      -- neither of its two triggers is pending
      by_cases hframe : id = 2
      · subst hframe
        rfl
      · by_cases hstop : id = 1
        · subst hstop
          rfl
        · simp [State.step, State.dispatch, TaskScheduler.triggerEvent, TaskScheduler.clearPending,
            TaskScheduler.setTrigger, TaskScheduler.new, MyH264Source.new, State.new, hframe,
            hstop]
    | _ => first | rfl | cases ha
  obtain ⟨hpaid, hempty⟩ := stream_never_stalls .init hrun
  exact ⟨s, hrun, hsrc, hhanded, hpaid, hempty hserving hquiet 0 hsrc⟩

end RtspPush.Delivery
