import RtspPush.Service.Basic

/-!
# What each step can do

`RtspStep` lists the outcomes of a step of the RTSP thread and `Transition` those of every action,
each with the facts that hold before it and the state it leads to. `RtspFrame` says what the RTSP
thread may touch of what it shares with the callers: only `running_`, and only at the end of a
failed set-up.
-/

namespace RtspPush.Service

open Lib

variable {ι : Type}

/-! ## The RTSP thread -/

/-- The outcomes of a step of the RTSP thread. -/
inductive RtspStep (s : State ι) : State ι → Prop
  | createScheduler (h : s.rtsp = .createScheduler) :
      RtspStep s { s with
        scheduler_ := some s.nextScheduler
        nextScheduler := s.nextScheduler + 1
        ledger := s.note (.created .scheduler) true
        rtsp := .createEnv }
  | noScheduler (h : s.rtsp = .createScheduler) :
      RtspStep s { s with scheduler_ := none, rtsp := .cleanup .deleteStopTrigger true }
  | createEnv (h : s.rtsp = .createEnv) :
      RtspStep s { s with
        env_ := true
        ledger := s.note (.created .env) true
        rtsp := .createStopTrigger }
  | noEnv (h : s.rtsp = .createEnv) :
      RtspStep s { s with env_ := false, rtsp := .cleanup .deleteStopTrigger true }
  | createStopTrigger (stopTrigger : EventTriggerId) (h : s.rtsp = .createStopTrigger) :
      RtspStep s { s with
        stopTrigger_ := stopTrigger
        ledger := s.note (.created .stopTrigger) (stopTrigger != 0)
        rtsp := .createAuthDB }
  | createAuthDB (needed : Bool) (h : s.rtsp = .createAuthDB) :
      RtspStep s { s with
        authDB_ := if needed then true else s.authDB_
        ledger := s.note (.created .authDB) needed
        rtsp := .createServer }
  | createServer (h : s.rtsp = .createServer) :
      RtspStep s { s with
        server_ := true
        ledger := s.note (.created .server) true
        rtsp := .publishURL }
  | noServer (h : s.rtsp = .createServer) :
      RtspStep s { s with server_ := false, rtsp := .cleanup .deleteStopTrigger true }
  | publishURL (url : String) (h : s.rtsp = .publishURL) (hfree : s.mutex = none) :
      RtspStep s { s with rtspURL_ := url, rtsp := .setStartOk }
  | setStartOk (h : s.rtsp = .setStartOk) :
      RtspStep s { s with startOk_ := true, rtsp := .loopCheck }
  | leaveLoop (h : s.rtsp = .loopCheck) (hwatch : s.eventLoopWatchVariable_ ≠ 0) :
      RtspStep s { s with rtsp := .cleanup .deleteStopTrigger false }
  | enterLoop (h : s.rtsp = .loopCheck) (hwatch : s.eventLoopWatchVariable_ = 0) :
      RtspStep s { s with rtsp := .loopBody }
  | loopBody (pops : Nat) (h : s.rtsp = .loopBody) :
      RtspStep s { s with frameQueue_ := State.popNalus s.frameQueue_ pops, rtsp := .loopCheck }
  | cleanup (point : CleanupPoint) (failed : Bool) (h : s.rtsp = .cleanup point failed) :
      RtspStep s (s.cleanupLive555 failed point)
  | clearRunning (h : s.rtsp = .clearRunning) :
      RtspStep s { s with running_ := false, rtsp := .ended }

theorem RtspStep.of_rtspThreadMain {s t : State ι} {reply : Reply}
    (h : s.rtspThreadMain reply = some t) : RtspStep s t := by
  unfold State.rtspThreadMain at h
  split at h
  · next hpoint =>
    split at h
    · exact Option.some.inj h ▸ .createScheduler hpoint
    · exact Option.some.inj h ▸ .noScheduler hpoint
  · next hpoint =>
    split at h
    · exact Option.some.inj h ▸ .createEnv hpoint
    · exact Option.some.inj h ▸ .noEnv hpoint
  · next hpoint => exact Option.some.inj h ▸ .createStopTrigger reply.stopTrigger hpoint
  · next hpoint => exact Option.some.inj h ▸ .createAuthDB _ hpoint
  · next hpoint =>
    split at h
    · exact Option.some.inj h ▸ .createServer hpoint
    · exact Option.some.inj h ▸ .noServer hpoint
  · next hpoint =>
    split at h
    · cases h
    · next hfree => exact Option.some.inj h ▸ .publishURL _ hpoint (by simpa using hfree)
  · next hpoint => exact Option.some.inj h ▸ .setStartOk hpoint
  · next hpoint =>
    split at h
    · next hwatch => exact Option.some.inj h ▸ .leaveLoop hpoint hwatch
    · next hwatch => exact Option.some.inj h ▸ .enterLoop hpoint (not_not.mp hwatch)
  · next hpoint => exact Option.some.inj h ▸ .loopBody reply.pops hpoint
  · next point failed hpoint => exact Option.some.inj h ▸ .cleanup point failed hpoint
  · next hpoint => exact Option.some.inj h ▸ .clearRunning hpoint
  · cases h

/-- A step of the RTSP thread, as the callers see it. -/
structure RtspFrame (s t : State ι) : Prop where
  callers : t.callers = s.callers
  mutex : t.mutex = s.mutex
  rtspThread : t.rtspThread_ = s.rtspThread_
  joiner : t.joiner = s.joiner
  session : t.session = s.session
  watch : t.eventLoopWatchVariable_ = s.eventLoopWatchVariable_
  crashed : t.crashed = s.crashed
  live : s.rtsp ≠ .ended
  running : t.running_ = s.running_ ∨
    (s.rtsp = .clearRunning ∧ t.running_ = false ∧ t.rtsp = .ended)

theorem RtspStep.frame {s t : State ι} (h : RtspStep s t) : RtspFrame s t := by
  cases h with
  | cleanup point failed h =>
    cases point <;> exact ⟨rfl, rfl, rfl, rfl, rfl, rfl, rfl, by simp [h], Or.inl rfl⟩
  | clearRunning h =>
    exact ⟨rfl, rfl, rfl, rfl, rfl, rfl, rfl, by simp [h], Or.inr ⟨h, rfl, rfl⟩⟩
  | _ => exact ⟨rfl, rfl, rfl, rfl, rfl, rfl, rfl, by simp [*], Or.inl rfl⟩

/-! ## All actions -/

variable [DecidableEq ι]

/-- The outcomes of the steps. -/
inductive Transition (s : State ι) : Action ι → State ι → Prop
  | startRunning (i : ι) (args : StartArgs) (hcall : s.callers i = .outside)
      (hfree : s.mutex = none) (hrunning : s.running_ = true) :
      Transition s (.start i args) s
  | start (i : ι) (args : StartArgs) (hcall : s.callers i = .outside) (hfree : s.mutex = none)
      (hrunning : s.running_ = false) :
      Transition s (.start i args)
        { s.setCaller i (.starting .config args) with mutex := some i }
  | startNext (i : ι) (point : StartPoint) (args : StartArgs)
      (hcall : s.callers i = .starting point args) (hpoint : point ≠ .launch) :
      Transition s (.continueCall i) (s.startNext i args point)
  | launch (i : ι) (args : StartArgs) (hcall : s.callers i = .starting .launch args)
      (hthread : s.rtspThread_ = none) :
      Transition s (.continueCall i)
        { s.setCaller i .outside with
          rtspThread_ := some (s.session + 1)
          session := s.session + 1
          rtsp := .createScheduler
          mutex := none }
  | launchCrash (i : ι) (args : StartArgs) (hcall : s.callers i = .starting .launch args)
      (hthread : s.rtspThread_.isSome = true) :
      Transition s (.continueCall i) { s with crashed := some .assignedJoinable }
  | stopNotRunning (i : ι) (inDestructor : Bool) (hcall : s.callers i = .outside)
      (hfree : s.mutex = none) (hrunning : s.running_ = false) :
      Transition s (.stop i inDestructor) (s.setCaller i (State.afterStop inDestructor))
  | stop (i : ι) (inDestructor : Bool) (hcall : s.callers i = .outside)
      (hfree : s.mutex = none) (hrunning : s.running_ = true) :
      Transition s (.stop i inDestructor)
        { s.setCaller i (.stopping .setWatch inDestructor) with mutex := some i }
  | setWatch (i : ι) (inDestructor : Bool)
      (hcall : s.callers i = .stopping .setWatch inDestructor) :
      Transition s (.continueCall i)
        { s.setCaller i (.stopping .copyScheduler inDestructor) with
          eventLoopWatchVariable_ := 1 }
  | copyScheduler (i : ι) (inDestructor : Bool)
      (hcall : s.callers i = .stopping .copyScheduler inDestructor) :
      Transition s (.continueCall i)
        (s.setCaller i (.stopping (.copyTrigger s.scheduler_) inDestructor))
  | copyTrigger (i : ι) (inDestructor : Bool) (scheduler : Option SchedulerId)
      (hcall : s.callers i = .stopping (.copyTrigger scheduler) inDestructor) :
      Transition s (.continueCall i)
        { s.setCaller i (.stopping (.trigger scheduler s.stopTrigger_) inDestructor) with
          mutex := none }
  | trigger (i : ι) (inDestructor : Bool) (scheduler : Option SchedulerId)
      (stopTrigger : EventTriggerId)
      (hcall : s.callers i = .stopping (.trigger scheduler stopTrigger) inDestructor) :
      Transition s (.continueCall i) (s.setCaller i (.stopping .joinable inDestructor))
  | joinable (i : ι) (inDestructor : Bool)
      (hcall : s.callers i = .stopping .joinable inDestructor)
      (hthread : s.rtspThread_.isSome = true) :
      Transition s (.continueCall i) (s.setCaller i (.stopping .join inDestructor))
  | notJoinable (i : ι) (inDestructor : Bool)
      (hcall : s.callers i = .stopping .joinable inDestructor) (hthread : s.rtspThread_ = none) :
      Transition s (.continueCall i) (s.setCaller i (.stopping .clearRunning inDestructor))
  | join (i : ι) (inDestructor : Bool) (thread : Nat)
      (hcall : s.callers i = .stopping .join inDestructor)
      (hthread : s.rtspThread_ = some thread) (hjoiner : s.joiner = none) :
      Transition s (.continueCall i)
        { s.setCaller i (.stopping (.joining thread) inDestructor) with joiner := some i }
  | joinTwice (i : ι) (inDestructor : Bool) (thread : Nat)
      (hcall : s.callers i = .stopping .join inDestructor)
      (hthread : s.rtspThread_ = some thread) (hjoiner : s.joiner.isSome = true) :
      Transition s (.continueCall i) { s with crashed := some .joinedTwice }
  | joinCrash (i : ι) (inDestructor : Bool) (hcall : s.callers i = .stopping .join inDestructor)
      (hthread : s.rtspThread_ = none) :
      Transition s (.continueCall i) { s with crashed := some .joinedNotJoinable }
  | joined (i : ι) (inDestructor : Bool) (thread : Nat)
      (hcall : s.callers i = .stopping (.joining thread) inDestructor)
      (hended : thread = s.session → s.rtsp = .ended) :
      Transition s (.continueCall i)
        { s.setCaller i (.stopping .clearRunning inDestructor) with
          rtspThread_ := none
          joiner := none }
  | clearRunning (i : ι) (inDestructor : Bool)
      (hcall : s.callers i = .stopping .clearRunning inDestructor) (hfree : s.mutex = none) :
      Transition s (.continueCall i)
        { s.setCaller i (State.afterStop inDestructor) with running_ := false }
  | destroyMembers (i : ι) (hcall : s.callers i = .destroying) (hthread : s.rtspThread_ = none) :
      Transition s (.continueCall i) (s.setCaller i .gone)
  | destroyCrash (i : ι) (hcall : s.callers i = .destroying)
      (hthread : s.rtspThread_.isSome = true) :
      Transition s (.continueCall i) { s with crashed := some .destroyedJoinable }
  | rtsp (reply : Reply) (t : State ι) (h : RtspStep s t) : Transition s (.rtsp reply) t
  | push (data : Option (List UInt8)) (timestampUs : UInt64) :
      Transition s (.push data timestampUs)
        { s with frameQueue_ := (s.frameQueue_.pushAnnexBFrame data timestampUs).1 }

namespace Transition

variable {s t : State ι}

omit [DecidableEq ι] in
/-- The guard of `start` and `stop`: the caller is in no call, and the mutex is free. -/
theorem outside_and_free {i : ι} (h : ¬ (s.callers i ≠ .outside ∨ s.mutex.isSome = true)) :
    s.callers i = .outside ∧ s.mutex = none := by
  obtain ⟨hcall, hfree⟩ := not_or.mp h
  exact ⟨not_not.mp hcall, by simpa using hfree⟩

theorem of_start {i : ι} {args : StartArgs} (h : s.start i args = some t) :
    Transition s (.start i args) t := by
  unfold State.start at h
  split at h
  · cases h
  next hready =>
  obtain ⟨hcall, hfree⟩ := outside_and_free hready
  split at h
  · next hrunning => exact Option.some.inj h ▸ .startRunning i args hcall hfree hrunning
  · next hrunning =>
    exact Option.some.inj h ▸ .start i args hcall hfree (by simpa using hrunning)

theorem of_startNext {i : ι} {point : StartPoint} {args : StartArgs}
    (hcall : s.callers i = .starting point args) :
    Transition s (.continueCall i) (s.startNext i args point) := by
  by_cases hpoint : point = .launch
  · subst hpoint
    simp only [State.startNext]
    split
    · next hthread => exact .launchCrash i args hcall hthread
    · next hthread => exact .launch i args hcall (by simpa using hthread)
  · exact .startNext i point args hcall hpoint

theorem of_stop {i : ι} {inDestructor : Bool} (h : s.stop i inDestructor = some t) :
    Transition s (.stop i inDestructor) t := by
  unfold State.stop at h
  split at h
  · cases h
  next hready =>
  obtain ⟨hcall, hfree⟩ := outside_and_free hready
  split at h
  · next hrunning =>
    exact Option.some.inj h ▸ .stopNotRunning i inDestructor hcall hfree (by simpa using hrunning)
  · next hrunning =>
    exact Option.some.inj h ▸ .stop i inDestructor hcall hfree (by simpa using hrunning)

theorem of_stopNext {i : ι} {point : StopPoint} {inDestructor : Bool}
    (hcall : s.callers i = .stopping point inDestructor)
    (h : s.stopNext i inDestructor point = some t) : Transition s (.continueCall i) t := by
  cases point with
  | setWatch => exact Option.some.inj h ▸ .setWatch i inDestructor hcall
  | copyScheduler => exact Option.some.inj h ▸ .copyScheduler i inDestructor hcall
  | copyTrigger scheduler => exact Option.some.inj h ▸ .copyTrigger i inDestructor scheduler hcall
  | trigger scheduler stopTrigger =>
    exact Option.some.inj h ▸ .trigger i inDestructor scheduler stopTrigger hcall
  | joinable =>
    simp only [State.stopNext] at h
    split at h
    · next hthread => exact Option.some.inj h ▸ .joinable i inDestructor hcall hthread
    · next hthread =>
      exact Option.some.inj h ▸ .notJoinable i inDestructor hcall (by simpa using hthread)
  | join =>
    simp only [State.stopNext] at h
    split at h
    · next thread hthread =>
      split at h
      · next hjoiner =>
        exact Option.some.inj h ▸ .joinTwice i inDestructor thread hcall hthread hjoiner
      · next hjoiner =>
        exact Option.some.inj h ▸
          .join i inDestructor thread hcall hthread (by simpa using hjoiner)
    · next hthread => exact Option.some.inj h ▸ .joinCrash i inDestructor hcall hthread
  | joining thread =>
    simp only [State.stopNext] at h
    split at h
    · cases h
    · next hended =>
      refine Option.some.inj h ▸ .joined i inDestructor thread hcall fun hthread => ?_
      by_contra hlive
      exact hended ⟨hthread, hlive⟩
  | clearRunning =>
    simp only [State.stopNext] at h
    split at h
    · cases h
    · next hfree =>
      exact Option.some.inj h ▸ .clearRunning i inDestructor hcall (by simpa using hfree)

theorem of_destroyMembers {i : ι} (hcall : s.callers i = .destroying) :
    Transition s (.continueCall i) (s.destroyMembers i) := by
  unfold State.destroyMembers
  split
  · next hthread => exact .destroyCrash i hcall hthread
  · next hthread => exact .destroyMembers i hcall (by simpa using hthread)

/-- **The step function does what `Transition` lists**, and nothing behind a crash. -/
theorem of_step {a : Action ι} (h : s.step a = some t) : s.crashed = none ∧ Transition s a t := by
  unfold State.step at h
  split at h
  · cases h
  next hcrashed =>
  refine ⟨by simpa using hcrashed, ?_⟩
  cases a with
  | start i args => exact of_start h
  | stop i inDestructor => exact of_stop h
  | continueCall i =>
    simp only [State.continueCall] at h
    split at h
    · cases h
    · next point args hcall => exact Option.some.inj h ▸ of_startNext hcall
    · next point inDestructor hcall => exact of_stopNext hcall h
    · next hcall => exact Option.some.inj h ▸ of_destroyMembers hcall
    · cases h
  | rtsp reply => exact .rtsp reply t (.of_rtspThreadMain h)
  | push data timestampUs => exact Option.some.inj h ▸ .push data timestampUs

end Transition

end RtspPush.Service
