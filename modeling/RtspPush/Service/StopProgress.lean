import RtspPush.Service.Session

/-!
# A stop request ends the session

Once `stop` has stored 1 in the watch variable, only the next `start` clears it, and that has to
wait for the join. So `Requested` stays with the session: its thread finds the variable set at
every check, passes every other point once, and `RtspPoint.rank` counts the points it has left.
Nobody holds the mutex across the join, so that each of them can be passed.
-/

namespace RtspPush.Service

open Lib

/-! ## The points that are left -/

/-- The steps of `cleanupLive555()` that are left, with what `rtspThreadMain` does behind it. -/
def CleanupPoint.rank : CleanupPoint → Nat
  | .deleteStopTrigger => 8
  | .closeServer => 7
  | .deleteAuthDB => 6
  | .reclaimEnv => 5
  | .deleteScheduler => 4
  | .forgetScheduler => 3
  | .clearQueue => 2

/-- The steps that a thread has left at most, if it finds the watch variable set. -/
def RtspPoint.rank : RtspPoint → Nat
  | .createScheduler => 17
  | .createEnv => 16
  | .createStopTrigger => 15
  | .createAuthDB => 14
  | .createServer => 13
  | .publishURL => 12
  | .setStartOk => 11
  | .loopBody => 10
  | .loopCheck => 9
  | .cleanup point _ => point.rank
  | .clearRunning => 1
  | .ended => 0

namespace RtspStep

variable {ι : Type} {s t : State ι}

/-- With the watch variable set no iteration of the event loop begins. -/
theorem not_loopBody (h : RtspStep s t) (hwatch : s.eventLoopWatchVariable_ ≠ 0) :
    t.rtsp ≠ .loopBody := by
  cases h with
  | enterLoop h hzero => exact absurd hzero hwatch
  | cleanup point failed h => cases point <;> cases failed <;> simp [State.cleanupLive555]
  | _ => simp

theorem rank_lt (h : RtspStep s t) (hwatch : s.eventLoopWatchVariable_ ≠ 0) :
    t.rtsp.rank < s.rtsp.rank := by
  cases h with
  | enterLoop h hzero => exact absurd hzero hwatch
  | cleanup point failed h =>
    rw [h]
    cases point <;> cases failed <;> simp [State.cleanupLive555, RtspPoint.rank, CleanupPoint.rank]
  | _ => simp [*, RtspPoint.rank, CleanupPoint.rank]

/-- A thread that is not finished can take a step, whatever live555 answers, unless it has to wait
for the mutex. -/
theorem exists_step (hlive : s.rtsp ≠ .ended) (hmutex : s.mutex = none) (reply : Reply) :
    ∃ t, s.rtspThreadMain reply = some t := by
  unfold State.rtspThreadMain
  split
  case h_6 => simp [hmutex]
  case h_12 hended => exact absurd hended hlive
  all_goals
    try split
    all_goals exact ⟨_, rfl⟩

end RtspStep

/-! ## The request -/

/-- Behind the store of 1 in session `n`: the session's thread has ended, or the `stop` has not
joined it yet. -/
def Requested (n : Nat) (s : State Unit) : Prop :=
  n < s.session ∨ n = s.session ∧ (s.rtsp = .ended ∨ (s.callers ()).signalled = true)

namespace Requested

variable {n : Nat} {s t : State Unit}

theorem signalled (hr : Requested n s) (hsession : s.session = n) (hlive : s.rtsp ≠ .ended) :
    (s.callers ()).signalled = true := by
  rcases hr with hlt | ⟨-, hended | h⟩
  · omega
  · exact absurd hended hlive
  · exact h

/-- The caller goes on in the `stop`. -/
theorem goOn (hr : Requested n s) {c : Caller} (hc : c.signalled = true) {mutex : Option Unit}
    {joiner : Option Unit} {watch : UInt8} :
    Requested n { s.setCaller () c with
      mutex := mutex
      joiner := joiner
      eventLoopWatchVariable_ := watch } :=
  hr.imp_right fun ⟨hn, _⟩ => ⟨hn, Or.inr (by simpa using hc)⟩

/-- The RTSP thread has ended, and the caller may be anywhere. -/
theorem ofEnded (hr : Requested n s) (hsession : t.session = s.session) (hended : t.rtsp = .ended) :
    Requested n t := by
  rw [Requested, hsession]
  exact hr.imp_right fun ⟨hn, _⟩ => ⟨hn, Or.inl hended⟩

/-- The store itself. -/
theorem of_setWatch {d : Bool} (hcall : s.callers () = .stopping .setWatch d)
    (h : s.step (.continueCall ()) = some t) : Requested t.session t := by
  have hcrashed := (Transition.of_step h).1
  have ht : s.stopNext () d .setWatch = some t := by
    simpa [State.step, hcrashed, State.continueCall, hcall] using h
  cases ht
  exact Or.inr ⟨rfl, Or.inr (by simp [Caller.signalled, Caller.toJoin])⟩

theorem transition (hs : Held s) (hr : Requested n s) {a : Action Unit} (h : Transition s a t) :
    Requested n t := by
  cases h with
  | startRunning => exact hr
  | start i args hcall hfree hrunning =>
    exact hr.ofEnded rfl (hs.ended_of_not_running hrunning)
  | startNext i point args hcall hpoint =>
    have hended := hs.starting point args hcall
    cases point with
    | launch => exact absurd rfl hpoint
    | _ => exact hr.ofEnded rfl hended
  | launch i args hcall hthread =>
    have hle : n ≤ s.session := hr.elim Nat.le_of_lt fun h => Nat.le_of_eq h.1
    exact Or.inl (Nat.lt_succ_of_le hle)
  | stopNotRunning i inDestructor hcall hfree hrunning =>
    exact hr.ofEnded rfl (hs.ended_of_not_running hrunning)
  | stop i inDestructor hcall hfree hrunning =>
    -- a request for this session whose `stop` is over means that the thread has ended
    refine hr.imp_right fun h => ⟨h.1, Or.inl (h.2.resolve_right ?_)⟩
    simp [hcall, Caller.signalled, Caller.toJoin]
  | setWatch => exact hr.goOn rfl
  | copyScheduler => exact hr.goOn rfl
  | copyTrigger => exact hr.goOn rfl
  | trigger => exact hr.goOn rfl
  | joinable => exact hr.goOn rfl
  | join => exact hr.goOn rfl
  | notJoinable i inDestructor hcall hthread =>
    exact absurd hthread (hs.rtspThread_ne_none (by rw [hcall]; rfl))
  | joined i inDestructor thread hcall hended =>
    exact hr.ofEnded rfl (hended (hs.joining thread inDestructor hcall))
  | clearRunning i inDestructor hcall => exact hr.ofEnded rfl (hs.joined inDestructor hcall)
  | destroyMembers i hcall => exact hr.ofEnded rfl (hs.destroying (Or.inl hcall))
  | launchCrash | joinTwice | joinCrash | destroyCrash | push => exact hr
  | rtsp reply t h =>
    have hframe := h.frame
    have hsame := hr.imp_right fun h => And.intro h.1 (h.2.resolve_left hframe.live)
    rw [Requested, hframe.session, hframe.callers]
    exact hsame.imp_right fun h => ⟨h.1, Or.inr h.2⟩

theorem exec {as : List (Action Unit)} (hr : Requested n s) (hs : Held s)
    (h : (machine Unit).exec s as = some t) : Held t ∧ Requested n t := by
  have hstep := Held.step_and (P := fun _ _ => True) (I := Requested n)
    fun _ _ _ hs hr _ _ h => hr.transition hs h
  exact Machine.invariant_along hstep ⟨hs, hr⟩ (Machine.along_true s as) h

end Requested

/-- The program is not terminated while an RTSP thread is unfinished. -/
def CrashesEnded (s : State Unit) : Prop := s.rtsp ≠ .ended → s.crashed = none

namespace CrashesEnded

variable {s t : State Unit}

theorem transition (hs : Held s) (hcrashed : s.crashed = none) {a : Action Unit}
    (h : Transition s a t) : CrashesEnded t := by
  cases h with
  | launchCrash i args hcall => exact absurd (hs.starting _ args hcall)
  | joinCrash i inDestructor hcall hthread =>
    exact absurd hthread (hs.rtspThread_ne_none (by rw [hcall]; rfl))
  | joinTwice i inDestructor thread hcall hthread hjoiner =>
    simp [hs.joiner (by simp [hcall])] at hjoiner
  | destroyCrash i hcall => exact absurd (hs.destroying (Or.inl hcall))
  | rtsp reply t h => exact fun _ => h.frame.crashed.trans hcrashed
  | startNext i point args hcall hpoint =>
    cases point with
    | launch => exact absurd rfl hpoint
    | _ => exact fun _ => hcrashed
  | _ => exact fun _ => hcrashed

theorem reachable (h : (machine Unit).Reachable s) : CrashesEnded s := by
  have hstep := Held.step_and (P := fun _ _ => True) (I := CrashesEnded)
    fun _ _ _ hs _ _ hcrashed h => transition hs hcrashed h
  obtain ⟨as, has⟩ := h
  have hnew : CrashesEnded .new := fun _ => rfl
  exact (Machine.invariant_along hstep ⟨Held.new, hnew⟩ (Machine.along_true _ as) has).2

end CrashesEnded

/-- **A stop request is never lost and never deadlocks.** From the store of 1 on, as long as the
session's thread is unfinished, the watch variable is set and no iteration of the event loop
begins; and a `join` of an unfinished thread finds it able to take a step, whatever live555
answers, with fewer steps left behind it. -/
theorem stop_request_kept :
    (∀ s t u d as, (machine Unit).Reachable s → s.callers () = .stopping .setWatch d →
      s.step (.continueCall ()) = some t → (machine Unit).exec t as = some u →
      u.session = t.session → u.rtsp ≠ .ended →
        u.eventLoopWatchVariable_ ≠ 0 ∧
          ∀ reply v, u.step (.rtsp reply) = some v → v.rtsp ≠ .loopBody) ∧
    ∀ s thread d, (machine Unit).Reachable s → s.callers () = .stopping (.joining thread) d →
      s.rtsp ≠ .ended →
        ∀ reply, ∃ t, s.step (.rtsp reply) = some t ∧ t.rtsp.rank < s.rtsp.rank := by
  constructor
  · intro s t u d as hreach hcall ht hu hsession hlive
    have hheld := Held.reachable (hreach.step (a := .continueCall ()) ht)
    obtain ⟨hheld, hrequested⟩ := (Requested.of_setWatch hcall ht).exec hheld hu
    have hwatch := hheld.signalled (hrequested.signalled hsession hlive)
    refine ⟨hwatch, fun reply v hv => ?_⟩
    cases (Transition.of_step hv).2 with
    | rtsp reply t h => exact h.not_loopBody hwatch
  · intro s thread d hreach hcall hlive reply
    have hheld := Held.reachable hreach
    obtain ⟨t, ht⟩ := RtspStep.exists_step hlive (hheld.mutex (by rw [hcall]; rfl)) reply
    refine ⟨t, ?_, (RtspStep.of_rtspThreadMain ht).rank_lt (hheld.signalled (by rw [hcall]; rfl))⟩
    simpa [State.step, CrashesEnded.reachable hreach hlive] using ht

/-- A `stop` that finds the RTSP thread in the event loop, without a stop trigger. -/
def stopInLoop : List (Action Unit) :=
  Action.start () ⟨8554, "live", "", ""⟩ :: List.replicate 5 (Action.continueCall ()) ++
    List.replicate 8 (Action.rtsp ⟨true, 0, none, 0⟩) ++ [Action.stop () false]

theorem stop_request_kept_stopInLoop :
    (∃ u, (machine Unit).exec .new
        (stopInLoop ++ [.continueCall (), .rtsp ⟨true, 0, none, 0⟩]) = some u ∧
      u.eventLoopWatchVariable_ ≠ 0) ∧
    ∃ s t, (machine Unit).exec .new (stopInLoop ++ List.replicate 6 (.continueCall ())) = some s ∧
      s.step (.rtsp ⟨true, 0, none, 0⟩) = some t ∧ t.rtsp.rank < s.rtsp.rank := by
  constructor
  · refine ⟨_, rfl, (stop_request_kept.1 _ _ _ false [.rtsp ⟨true, 0, none, 0⟩]
      ⟨stopInLoop, rfl⟩ rfl rfl rfl rfl ?_).1⟩
    exact nofun
  · obtain ⟨t, ht⟩ := stop_request_kept.2 _ 1 false
      ⟨stopInLoop ++ List.replicate 6 (.continueCall ()), rfl⟩ rfl nofun ⟨true, 0, none, 0⟩
    exact ⟨_, t, rfl, ht⟩

end RtspPush.Service
