import Mathlib.Algebra.Order.BigOperators.Group.Finset
import Mathlib.Data.Fintype.Basic
import Mathlib.Data.Fintype.Card
import RtspPush.Lib.Potential
import RtspPush.Service.ConcurrentStop
import RtspPush.Service.StopProgress

/-!
# Stops come to their end

Any number of threads may be inside `stop` or the destructor at once. Once one of them has stored 1
in the watch variable and nobody is in a `start`, all that is under way is bounded: `left` counts
the steps that the callers and the RTSP thread have left at most, each of their steps lowers it, and
until everybody has returned somebody can step. Then the service is as it was before the `start`:
not running, its thread ended, its handle empty (`shutdown_completes`). What is said is said up to
the end of a run of the model, which a second `join()` during the first brings about too; where each
`stop` is `Alone` there is none, and nothing but `std::terminate` ends a run.
-/

namespace RtspPush.Service

open Lib

variable {ι : Type}

/-! ## The steps that are left -/

/-- The statements of a `stop` that are left, with the end of the destructor behind it. -/
def StopPoint.rank : StopPoint → Nat
  | .setWatch => 9
  | .copyScheduler => 8
  | .copyTrigger _ => 7
  | .trigger _ _ => 6
  | .joinable => 5
  | .join => 4
  | .joining _ => 3
  | .clearRunning => 2

def Caller.rank : Caller → Nat
  | .stopping point _ => point.rank
  | .destroying => 1
  | _ => 0

/-- The steps that the callers and the RTSP thread have left, or the end of the program. -/
def State.left [Fintype ι] (s : State ι) : Nat :=
  s.rtsp.rank + ∑ i, (s.callers i).rank + if s.crashed.isSome then 0 else 1

/-- The watch variable is set and nobody is about to clear it. -/
structure WindingDown (s : State ι) : Prop where
  watch : s.eventLoopWatchVariable_ ≠ 0
  noStart : NoStart s

/-- A step of the RTSP thread or of a call that is under way. -/
def Action.goesOn : Action ι → Bool
  | .continueCall _ => true
  | .rtsp _ => true
  | _ => false

/-- A call of `stop` or of the destructor. -/
def Action.isStop : Action ι → Bool
  | .stop _ _ => true
  | _ => false

/-- Every call has returned, and the next `start` can launch a thread. -/
structure Over (s : State ι) : Prop where
  callers : ∀ i, s.callers i = .outside ∨ s.callers i = .gone
  rtsp : s.rtsp = .ended
  running : s.running_ = false
  handle : s.rtspThread_ = none

/-- A caller or, whatever live555 answers, the RTSP thread can take a step. -/
def CanStep [DecidableEq ι] (s : State ι) : Prop :=
  (∃ i, (s.step (.continueCall i)).isSome = true) ∨
    ∀ reply, (s.step (.rtsp reply)).isSome = true

/-! ## A step lowers what is left -/

theorem RtspPoint.rank_le (point : RtspPoint) : point.rank ≤ 17 := by
  cases point with
  | cleanup point => cases point <;> simp [RtspPoint.rank, CleanupPoint.rank]
  | _ => simp [RtspPoint.rank]

theorem Caller.rank_le (c : Caller) : c.rank ≤ 9 := by
  cases c with
  | stopping point => cases point <;> simp [Caller.rank, StopPoint.rank]
  | _ => simp [Caller.rank]

/-- Each caller has nine steps left at most, the RTSP thread seventeen. -/
theorem State.left_le [Fintype ι] (s : State ι) : s.left ≤ 18 + 9 * Fintype.card ι := by
  have hcallers : ∑ i, (s.callers i).rank ≤ Fintype.card ι * 9 := by
    simpa using Finset.sum_le_card_nsmul Finset.univ (fun i => (s.callers i).rank) 9
      fun i _ => (s.callers i).rank_le
  have hrtsp := s.rtsp.rank_le
  rw [State.left]
  split <;> omega

section Measure

variable [Fintype ι] [DecidableEq ι] {s t : State ι} {i : ι} {c : Caller}

/-- One caller moves. -/
theorem sum_rank_setCaller (s : State ι) (i : ι) (c : Caller) :
    ∑ j, ((s.setCaller i c).callers j).rank + (s.callers i).rank =
      ∑ j, (s.callers j).rank + c.rank := by
  have hafter := Finset.add_sum_erase Finset.univ (fun j => ((s.setCaller i c).callers j).rank)
    (Finset.mem_univ i)
  have hbefore := Finset.add_sum_erase Finset.univ (fun j => (s.callers j).rank)
    (Finset.mem_univ i)
  have hothers : ∑ j ∈ Finset.univ.erase i, ((s.setCaller i c).callers j).rank =
      ∑ j ∈ Finset.univ.erase i, (s.callers j).rank :=
    Finset.sum_congr rfl fun j hj => by simp [Finset.ne_of_mem_erase hj]
  have hself : ((s.setCaller i c).callers i).rank = c.rank := by simp
  omega

/-- A caller comes to another point. -/
theorem left_of_caller (hcallers : t.callers = (s.setCaller i c).callers)
    (hrtsp : t.rtsp = s.rtsp) (hcrashed : t.crashed = s.crashed) :
    t.left + (s.callers i).rank = s.left + c.rank := by
  have hsum := sum_rank_setCaller s i c
  rw [State.left, State.left, hcallers, hrtsp, hcrashed]
  omega

omit [DecidableEq ι] in
/-- The program ends. -/
theorem left_of_crash (hcallers : t.callers = s.callers) (hrtsp : t.rtsp = s.rtsp)
    (hcrashed : s.crashed = none) (hcrash : t.crashed.isSome = true) : t.left + 1 = s.left := by
  rw [State.left, State.left, hcallers, hrtsp, hcrashed, hcrash]
  simp

theorem rank_afterStop (inDestructor : Bool) : (State.afterStop inDestructor).rank ≤ 1 := by
  cases inDestructor <;> decide

end Measure

namespace WindingDown

variable [DecidableEq ι] {s t : State ι}

/-- Nobody clears the watch variable. -/
theorem transition (hs : WindingDown s) {a : Action ι} (ha : a.NotStart) (h : Transition s a t) :
    WindingDown t := by
  refine ⟨?_, hs.noStart.transition ha h⟩
  cases h with
  | startNext i point args hcall => exact absurd hcall (hs.noStart i point args)
  | setWatch => simp
  | rtsp reply t h => exact h.frame.watch ▸ hs.watch
  | _ => exact hs.watch

/-- **One step.** A step of a call or of the RTSP thread lowers what is left, a new `stop` adds its
own steps, and a push changes nothing. -/
theorem left_le [Fintype ι] (hs : WindingDown s) {a : Action ι} (ha : a.NotStart)
    (hcrashed : s.crashed = none) (h : Transition s a t) :
    (if a.goesOn then 1 else 0) + t.left ≤ s.left + if a.isStop then 9 else 0 := by
  have hpoint : ∀ {i : ι} {c : Caller}, t.callers = (s.setCaller i c).callers → t.rtsp = s.rtsp →
      t.crashed = s.crashed → c.rank < (s.callers i).rank → 1 + t.left ≤ s.left := by
    intro i c hcallers hrtsp hcrash hrank
    have hleft := left_of_caller hcallers hrtsp hcrash
    omega
  have hcrash : t.callers = s.callers → t.rtsp = s.rtsp → t.crashed.isSome = true →
      1 + t.left ≤ s.left := by
    intro hcallers hrtsp hcrash
    have hleft := left_of_crash hcallers hrtsp hcrashed hcrash
    omega
  cases h with
  | startRunning | start => exact absurd ha (by simp [Action.NotStart])
  | startNext i _ args hcall | launch i args hcall | launchCrash i args hcall =>
    exact absurd hcall (hs.noStart i _ args)
  | stopNotRunning i d hcall =>
    have hleft := left_of_caller (s := s) (i := i) (c := State.afterStop d) rfl rfl rfl
    have hrank := rank_afterStop d
    change 0 + State.left _ ≤ s.left + 9
    omega
  | stop i d hcall =>
    have hleft := left_of_caller (s := s) (i := i) (c := .stopping .setWatch d)
      (t := { s.setCaller i (.stopping .setWatch d) with mutex := some i }) rfl rfl rfl
    have hrank : (Caller.stopping .setWatch d).rank = 9 := rfl
    change 0 + State.left _ ≤ s.left + 9
    omega
  | clearRunning i d hcall =>
    refine hpoint (i := i) (c := State.afterStop d) rfl rfl rfl ?_
    rw [hcall]
    exact Nat.lt_succ_of_le (rank_afterStop d)
  | joinTwice | joinCrash | destroyCrash => exact hcrash rfl rfl rfl
  | rtsp reply t h =>
    have hframe := h.frame
    have hrank := h.rank_lt hs.watch
    change 1 + t.left ≤ s.left
    rw [State.left, State.left, hframe.callers, hframe.crashed]
    omega
  | push => exact Nat.le_of_eq (Nat.zero_add _)
  | setWatch i _ hcall | copyScheduler i _ hcall | copyTrigger i _ _ hcall | trigger i _ _ _ hcall
    | joinable i _ hcall | notJoinable i _ hcall | join i _ _ hcall | joined i _ _ hcall
    | destroyMembers i hcall =>
    exact hpoint (i := i) rfl rfl rfl (by simp [hcall, Caller.rank, StopPoint.rank])

/-- **A run.** -/
theorem exec [Fintype ι] (hs : WindingDown s) {as : List (Action ι)} (has : ∀ a ∈ as, a.NotStart)
    (h : (machine ι).exec s as = some t) :
    WindingDown t ∧
      as.countP Action.goesOn + t.left ≤ s.left + 9 * as.countP Action.isStop := by
  have hstep : ∀ (s : State ι) (a : Action ι) (t : State ι), WindingDown s → a.NotStart →
      (machine ι).step s a = some t →
        WindingDown t ∧ (if a.goesOn then 1 else 0) + t.left ≤
          s.left + if a.isStop then 9 else 0 := by
    intro s a t hs ha ht
    obtain ⟨hcrashed, htrans⟩ := Transition.of_step ht
    exact ⟨hs.transition ha htrans, hs.left_le ha hcrashed htrans⟩
  have hrun := Machine.potential (M := machine ι) (P := fun _ a => a.NotStart) hstep hs
    ((Machine.along_iff_forall h).mpr has) h
  rwa [Machine.spent_countP h, Machine.spent_countP h, Nat.one_mul] at hrun

end WindingDown

/-! ## Somebody can step -/

/-- With the watch variable set, an RTSP thread in the handle is one that a `stop` will join. -/
def ToBeJoined (s : State ι) : Prop :=
  s.eventLoopWatchVariable_ ≠ 0 → s.rtspThread_.isSome = true →
    ∃ i, (s.callers i).signalled = true

namespace ToBeJoined

variable {s t : State ι}

/-- A caller moves that is not behind its store, or it stays there. -/
theorem goOn [DecidableEq ι] (hs : ToBeJoined s) {i : ι} {c : Caller}
    (hcallers : t.callers = (s.setCaller i c).callers)
    (hwatch : t.eventLoopWatchVariable_ = s.eventLoopWatchVariable_)
    (hthread : t.rtspThread_ = s.rtspThread_)
    (hsignalled : (s.callers i).signalled = true → c.signalled = true) : ToBeJoined t := by
  unfold ToBeJoined
  rw [hcallers, hwatch, hthread]
  intro hset hsome
  obtain ⟨j, hj⟩ := hs hset hsome
  refine ⟨j, ?_⟩
  by_cases hji : j = i
  · subst hji
    simpa using hsignalled hj
  · simpa [hji] using hj

theorem transition [DecidableEq ι] (hw : Watched s) (hs : ToBeJoined s) {a : Action ι}
    (h : Transition s a t) : ToBeJoined t := by
  cases h with
  | startRunning => exact hs
  | startNext i point args hcall hpoint =>
    cases point with
    | launch => exact absurd rfl hpoint
    | clearWatch => exact fun hset => absurd rfl hset
    | _ => exact hs.goOn rfl rfl rfl (by rw [hcall]; intro h; cases h)
  | launch i args hcall => exact fun hset => absurd (hw.cleared i (by rw [hcall]; rfl)) hset
  | setWatch i => exact fun _ _ => ⟨i, by simp; rfl⟩
  | notJoinable i d hcall hthread => exact fun _ hsome => by simp [hthread] at hsome
  | joined => exact fun _ hsome => by cases hsome
  | launchCrash => exact hs
  | joinTwice => exact hs
  | joinCrash => exact hs
  | destroyCrash => exact hs
  | push => exact hs
  | rtsp reply t h =>
    have hframe := h.frame
    unfold ToBeJoined
    rw [hframe.watch, hframe.rtspThread, hframe.callers]
    exact hs
  | copyScheduler i _ hcall | copyTrigger i _ _ hcall | trigger i _ _ _ hcall
    | joinable i _ hcall | join i _ _ hcall =>
    exact hs.goOn rfl rfl rfl fun _ => rfl
  | start i _ hcall | stopNotRunning i _ hcall | stop i _ hcall | clearRunning i _ hcall
    | destroyMembers i hcall =>
    exact hs.goOn rfl rfl rfl (by rw [hcall]; intro h; cases h)

theorem reachable [DecidableEq ι] (h : (machine ι).Reachable s) : ToBeJoined s := by
  have hstep : ∀ s a t, Shared s ∧ ToBeJoined s → (machine ι).step s a = some t →
      Shared t ∧ ToBeJoined t := by
    rintro s a t ⟨hs, hi⟩ ht
    exact ⟨hs.step ht, hi.transition hs.2 (Transition.of_step ht).2⟩
  exact (Machine.invariant (M := machine ι) ⟨Shared.new, fun h => absurd rfl h⟩ hstep h).2

end ToBeJoined

section CanStep

variable [DecidableEq ι] {s : State ι}

/-- Whoever is inside a mutex section of `stop` goes on. -/
theorem canStep_of_mutex (ho : Owned s) (hnone : NoStart s) (hcrashed : s.crashed = none) {i : ι}
    (hmutex : s.mutex = some i) : CanStep s := by
  have hheld := (ho.mutex i).mp hmutex
  refine Or.inl ⟨i, ?_⟩
  unfold Caller.holdsMutex at hheld
  split at hheld
  · next point args hcall => exact absurd hcall (hnone i point args)
  · next hcall => simp [State.step, hcrashed, State.continueCall, hcall, State.stopNext]
  · next hcall => simp [State.step, hcrashed, State.continueCall, hcall, State.stopNext]
  · next hcall => simp [State.step, hcrashed, State.continueCall, hcall, State.stopNext]
  · cases hheld

/-- An unfinished RTSP thread goes on, unless it has to wait for the mutex. -/
theorem canStep_of_live (hcrashed : s.crashed = none) (hfree : s.mutex = none)
    (hlive : s.rtsp ≠ .ended) : CanStep s := by
  refine Or.inr fun reply => ?_
  obtain ⟨t, ht⟩ := RtspStep.exists_step hlive hfree reply
  simp [State.step, hcrashed, ht]

/-- Behind the end of the RTSP thread nothing holds up a `stop`. -/
theorem canStep_of_ended (hnone : NoStart s) (hcrashed : s.crashed = none) (hfree : s.mutex = none)
    (hended : s.rtsp = .ended) {i : ι} (hbusy : s.callers i ≠ .outside ∧ s.callers i ≠ .gone) :
    CanStep s := by
  refine Or.inl ⟨i, ?_⟩
  simp only [State.step, hcrashed, State.continueCall]
  cases hcall : s.callers i with
  | outside => exact absurd hcall hbusy.1
  | starting point args => exact absurd hcall (hnone i point args)
  | stopping point d =>
    cases point with
    | joinable => by_cases hthread : s.rtspThread_.isSome = true <;> simp [State.stopNext, hthread]
    | join =>
      simp only [State.stopNext]
      cases s.rtspThread_ with
      | none => rfl
      | some thread => by_cases hjoiner : s.joiner.isSome = true <;> simp [hjoiner]
    | joining thread => simp [State.stopNext, hended]
    | clearRunning => simp [State.stopNext, hfree]
    | _ => rfl
  | destroying => rfl
  | gone => exact absurd hcall hbusy.2

/-- Either everything is over, or it goes on. -/
theorem WindingDown.over_or_canStep (hs : WindingDown s) (hreach : (machine ι).Reachable s)
    (hcrashed : s.crashed = none) : Over s ∨ CanStep s := by
  obtain ⟨ho, hw⟩ := Shared.reachable hreach
  cases hmutex : s.mutex with
  | some i => exact Or.inr (canStep_of_mutex ho hs.noStart hcrashed hmutex)
  | none =>
    by_cases hended : s.rtsp = .ended
    · by_cases hbusy : ∃ i, s.callers i ≠ .outside ∧ s.callers i ≠ .gone
      · obtain ⟨i, hi⟩ := hbusy
        exact Or.inr (canStep_of_ended hs.noStart hcrashed hmutex hended hi)
      · have hidle : ∀ i, s.callers i = .outside ∨ s.callers i = .gone := by
          intro i
          by_contra hi
          exact hbusy ⟨i, not_or.mp hi⟩
        refine Or.inl ⟨hidle, hended, ?_, ?_⟩
        · by_contra hrunning
          obtain ⟨i, hi⟩ := hw.ending (by simpa using hrunning) hs.watch
          rcases hidle i with h | h <;> rw [h] at hi <;> cases hi
        · by_contra hthread
          obtain ⟨i, hi⟩ := ToBeJoined.reachable hreach hs.watch
            (Option.isSome_iff_ne_none.mpr hthread)
          rcases hidle i with h | h <;> rw [h] at hi <;> cases hi
    · exact Or.inr (canStep_of_live hcrashed hmutex hended)

end CanStep

/-! ## The end of a run -/

/-- Where each `stop` is alone, a run stops at the destructor of a joinable handle or inside a
`start`. -/
theorem crashed_of_alone [DecidableEq ι] {as : List (Action ι)} {s : State ι}
    (hP : (machine ι).Along Alone .new as) (h : (machine ι).exec .new as = some s) :
    s.crashed = none ∨ s.crashed = some .destroyedJoinable ∨ ¬ NoStart s := by
  have hstep : ∀ calls s a t,
      Shared s ∧ Joined calls s ∧
        (s.crashed = none ∨ s.crashed = some .destroyedJoinable ∨ ¬ NoStart s) →
      Alone s a → (machine ι).step s a = some t →
      Shared t ∧ Joined (calls ++ joinCall s a) t ∧
        (t.crashed = none ∨ t.crashed = some .destroyedJoinable ∨ ¬ NoStart t) := by
    rintro calls s a t ⟨hs, hj, -⟩ ha ht
    obtain ⟨hcrashed, htrans⟩ := Transition.of_step ht
    refine ⟨hs.step ht, hj.transition hs.1 ha htrans, ?_⟩
    cases htrans with
    | launchCrash i args hcall => exact Or.inr (Or.inr fun hnone => hnone i .launch args hcall)
    | joinTwice i d thread hcall hthread hbusy => simp [hj.joiner_eq_none hs.1 hcall] at hbusy
    | joinCrash i d hcall hthread =>
      have hsome := hj.join i (by rw [hcall]; rfl)
      simp [hthread] at hsome
    | destroyCrash => exact Or.inr (Or.inl rfl)
    | rtsp reply t h => exact Or.inl (h.frame.crashed.trans hcrashed)
    | startNext i point args hcall hpoint =>
      cases point with
      | launch => exact absurd rfl hpoint
      | _ => exact Or.inl hcrashed
    | _ => exact Or.inl hcrashed
  exact (Machine.invariant_observed_exec (M := machine ι) hstep
    ⟨Shared.new, Joined.new, Or.inl rfl⟩ hP h).2.2

/-- **Stops come to their end.** From a state in which the watch variable is set and nobody is in a
`start`, the calls under way and the RTSP thread take at most `18 + 9 n` steps among `n` callers,
and each `stop` called meanwhile adds at most nine, in any order of all steps and whatever live555
answers. At every moment at which the program goes on, all calls have returned, with the thread
ended, `running_` false and the handle empty, or somebody can step. And if each `stop` has been
alone between its `joinable()` test and the end of its `join()`, the program goes on unless a
destructor has destroyed a joinable handle. -/
theorem shutdown_completes [Fintype ι] [DecidableEq ι] {bs : List (Action ι)} {s : State ι}
    (hs : (machine ι).exec .new bs = some s) (hdown : WindingDown s) :
    s.left ≤ 18 + 9 * Fintype.card ι ∧
      ∀ as t, (∀ a ∈ as, a.NotStart) → (machine ι).exec s as = some t →
        as.countP Action.goesOn + t.left ≤ s.left + 9 * as.countP Action.isStop ∧
          (t.crashed = none → Over t ∨ CanStep t) ∧
          ((machine ι).Along Alone .new (bs ++ as) →
            t.crashed = none ∨ t.crashed = some .destroyedJoinable) := by
  refine ⟨s.left_le, fun as t has ht => ?_⟩
  obtain ⟨hend, hleft⟩ := hdown.exec has ht
  have hrun : (machine ι).exec .new (bs ++ as) = some t := Machine.exec_append_iff.mpr ⟨s, hs, ht⟩
  refine ⟨hleft, fun hcrashed => hend.over_or_canStep ⟨_, hrun⟩ hcrashed, fun hP => ?_⟩
  rcases crashed_of_alone hP hrun with hnone | hdestroyed | hstart
  · exact Or.inl hnone
  · exact Or.inr hdestroyed
  · exact absurd hend.noStart hstart

/-- A `stop` has stored 1 in the watch variable. -/
def stopRequested : List (Action Bool) :=
  Action.start true ⟨8554, "live", "", ""⟩ :: List.replicate 5 (Action.continueCall true) ++
    [.stop true false, .continueCall true]

/-- It goes on, and another thread calls the destructor. -/
theorem stop_requested_completes :
    ∃ s t : State Bool, (machine Bool).exec .new stopRequested = some s ∧
      (machine Bool).exec s [.continueCall true, .continueCall true, .stop false true] = some t ∧
        2 + t.left ≤ s.left + 9 ∧ (Over t ∨ CanStep t) := by
  have hrun : (machine Bool).exec .new stopRequested = some _ := rfl
  have hdown := (shutdown_completes hrun ⟨?_, ?_⟩).2
    [.continueCall true, .continueCall true, .stop false true] _ ?_ rfl
  · exact ⟨_, _, hrun, rfl, hdown.1, hdown.2.1 rfl⟩
  · decide
  · intro i point args h
    cases i <;> cases h
  · simp [Action.NotStart]

end RtspPush.Service
