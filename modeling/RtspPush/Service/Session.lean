import RtspPush.Service.Step

/-!
# A session under one controlling thread

`Held` is what holds in every reachable state when one thread issues all calls: an unfinished RTSP
thread is the one in `rtspThread_` and `running_` is set, a `stop` that is to join finds that
thread in the handle, and from its store on the watch variable stays set.
-/

namespace RtspPush.Service

open Lib

/-! ## The invariant -/

/-- The caller is inside a mutex section. -/
def Caller.holdsMutex : Caller → Bool
  | .starting _ _ => true
  | .stopping .setWatch _ => true
  | .stopping .copyScheduler _ => true
  | .stopping (.copyTrigger _) _ => true
  | _ => false

/-- The caller is in a `stop` of a running service that has not joined yet. -/
def Caller.toJoin : Caller → Bool
  | .stopping .clearRunning _ => false
  | .stopping _ _ => true
  | _ => false

/-- The caller is in a `stop` that has stored 1 in the watch variable and has not joined yet. -/
def Caller.signalled : Caller → Bool
  | .stopping .setWatch _ => false
  | c => c.toJoin

theorem Caller.toJoin_of_signalled {c : Caller} (h : c.signalled = true) : c.toJoin = true := by
  unfold Caller.signalled at h
  split at h
  · cases h
  · exact h

/-- What holds at every moment when one thread issues all calls. -/
structure Held (s : State Unit) : Prop where
  mutex : (s.callers ()).holdsMutex = false → s.mutex = none
  live : s.rtsp ≠ .ended → s.running_ = true ∧ s.rtspThread_ = some s.session
  running : s.callers () = .outside → s.running_ = true → s.rtspThread_ = some s.session
  starting : ∀ point args, s.callers () = .starting point args → s.rtsp = .ended
  launch : ∀ args, s.callers () = .starting .launch args → s.running_ = true
  toJoin : (s.callers ()).toJoin = true → s.rtspThread_ = some s.session
  joiner : (∀ thread d, s.callers () ≠ .stopping (.joining thread) d) → s.joiner = none
  joining : ∀ thread d, s.callers () = .stopping (.joining thread) d → thread = s.session
  joined : ∀ d, s.callers () = .stopping .clearRunning d → s.rtsp = .ended
  destroying : s.callers () = .destroying ∨ s.callers () = .gone → s.rtsp = .ended
  signalled : (s.callers ()).signalled = true → s.eventLoopWatchVariable_ ≠ 0

namespace Held

variable {s t : State Unit}

theorem new : Held .new where
  mutex _ := rfl
  live h := absurd rfl h
  running _ h := by cases h
  starting _ _ _ := rfl
  launch _ h := by cases h
  toJoin h := by cases h
  joiner _ := rfl
  joining _ _ h := by cases h
  joined _ _ := rfl
  destroying _ := rfl
  signalled h := by cases h

/-- The RTSP thread moves. Being unfinished, it finds the caller outside or in a `stop` that has
not joined yet. -/
theorem rtsp (hs : Held s) (h : RtspStep s t) : Held t := by
  have hframe := h.frame
  obtain ⟨hrunning, hthread⟩ := hs.live hframe.live
  have hcaller : t.callers () = s.callers () := by rw [hframe.callers]
  have hkept : t.rtspThread_ = some t.session := by
    rw [hframe.rtspThread, hframe.session, hthread]
  refine
    { mutex := ?_
      live := ?_
      running := fun _ _ => hkept
      starting := ?_
      launch := ?_
      toJoin := fun _ => hkept
      joiner := ?_
      joining := ?_
      joined := ?_
      destroying := ?_
      signalled := ?_ }
  · rw [hcaller, hframe.mutex]
    exact hs.mutex
  · intro hlive
    rcases hframe.running with hsame | ⟨-, -, hended⟩
    · exact ⟨hsame.trans hrunning, hkept⟩
    · exact absurd hended hlive
  · intro point args hcall
    exact absurd (hs.starting point args (hcaller ▸ hcall)) hframe.live
  · intro args hcall
    exact absurd (hs.starting _ args (hcaller ▸ hcall)) hframe.live
  · rw [hcaller, hframe.joiner]
    exact hs.joiner
  · rw [hcaller, hframe.session]
    exact hs.joining
  · intro d hcall
    exact absurd (hs.joined d (hcaller ▸ hcall)) hframe.live
  · intro hcall
    exact absurd (hs.destroying (hcaller ▸ hcall)) hframe.live
  · rw [hcaller, hframe.watch]
    exact hs.signalled

/-- A `stop` that is to join finds a thread in the handle. -/
theorem rtspThread_ne_none (hs : Held s) (h : (s.callers ()).toJoin = true) :
    s.rtspThread_ ≠ none := by
  rw [hs.toJoin h]
  nofun

theorem ended_of_not_running (hs : Held s) (h : s.running_ = false) : s.rtsp = .ended := by
  by_contra hlive
  rw [(hs.live hlive).1] at h
  cases h

/-- The caller goes on in a `stop` that is to join the thread in the handle. -/
theorem goOn (hs : Held s) (hthread : s.rtspThread_ = some s.session) {c : Caller}
    (hc : c.toJoin = true) {mutex : Option Unit} (hmutex : c.holdsMutex = false → mutex = none)
    {joiner : Option Unit}
    (hjoiner : (∀ thread d, c ≠ .stopping (.joining thread) d) → joiner = none)
    (hjoining : ∀ thread d, c = .stopping (.joining thread) d → thread = s.session) {watch : UInt8}
    (hwatch : c.signalled = true → watch ≠ 0) :
    Held { s.setCaller () c with
      mutex := mutex
      joiner := joiner
      eventLoopWatchVariable_ := watch } where
  mutex := by simpa using hmutex
  live := hs.live
  running _ _ := hthread
  starting point args h := by
    obtain rfl : c = .starting point args := by simpa using h
    cases hc
  launch args h := by
    obtain rfl : c = .starting .launch args := by simpa using h
    cases hc
  toJoin _ := hthread
  joiner h := hjoiner (by simpa using h)
  joining := by simpa using hjoining
  joined d h := by
    obtain rfl : c = .stopping .clearRunning d := by simpa using h
    cases hc
  destroying h := by
    rcases h with h | h
    · obtain rfl : c = .destroying := by simpa using h
      cases hc
    · obtain rfl : c = .gone := by simpa using h
      cases hc
  signalled := by simpa using hwatch

/-- With the RTSP thread ended, the caller is in no `stop` that is to join it. -/
theorem ofEnded (hended : s.rtsp = .ended) {c : Caller} (hs : c = s.callers ())
    (hmutex : c.holdsMutex = false → s.mutex = none) (hjoiner : s.joiner = none)
    (hrunning : c = .outside → s.running_ = false)
    (hlaunch : ∀ args, c = .starting .launch args → s.running_ = true)
    (hc : c.toJoin = false) : Held s where
  mutex := hs ▸ hmutex
  live h := absurd hended h
  running h hr := by
    rw [hrunning (hs.trans h)] at hr
    cases hr
  starting _ _ _ := hended
  launch := hs ▸ hlaunch
  toJoin h := by
    rw [← hs, hc] at h
    cases h
  joiner _ := hjoiner
  joining thread d h := by
    rw [hs, h] at hc
    cases hc
  joined _ _ := hended
  destroying _ := hended
  signalled h := by
    rw [← hs] at h
    rw [Caller.toJoin_of_signalled h] at hc
    cases hc

/-- **Every step keeps the invariant.** -/
theorem transition (hs : Held s) {a : Action Unit} (h : Transition s a t) : Held t := by
  cases h with
  | startRunning => exact hs
  | start i args hcall hfree hrunning =>
    exact ofEnded (hs.ended_of_not_running hrunning) rfl (by simp [Caller.holdsMutex])
      (hs.joiner (by simp [hcall])) (by simp) (by simp) (by simp [Caller.toJoin])
  | startNext i point args hcall hpoint =>
    have hended := hs.starting point args hcall
    cases point with
    | launch => exact absurd rfl hpoint
    | _ =>
      exact ofEnded (by simpa [State.startNext] using hended) rfl
        (by simp [State.startNext, Caller.holdsMutex]) (hs.joiner (by simp [hcall]))
        (by simp [State.startNext]) (by simp [State.startNext])
        (by simp [State.startNext, Caller.toJoin])
  | launch i args hcall hthread =>
    have hrunning := hs.launch args hcall
    have hjoiner := hs.joiner (by simp [hcall])
    constructor <;> simp [Caller.holdsMutex, Caller.toJoin, Caller.signalled, hrunning, hjoiner]
  | launchCrash => exact { hs with }
  | stopNotRunning i inDestructor hcall hfree hrunning =>
    exact ofEnded (hs.ended_of_not_running hrunning) rfl (fun _ => hfree)
      (hs.joiner (by simp [hcall])) (fun _ => hrunning)
      (by cases inDestructor <;> simp [State.afterStop])
      (by cases inDestructor <;> simp [State.afterStop, Caller.toJoin])
  | stop i inDestructor hcall hfree hrunning =>
    exact hs.goOn (hs.running hcall hrunning) (c := .stopping .setWatch inDestructor) rfl
      (by simp [Caller.holdsMutex]) (fun _ => hs.joiner (by simp [hcall])) (by simp)
      (by simp [Caller.signalled])
  | setWatch i inDestructor hcall =>
    exact hs.goOn (hs.toJoin (by rw [hcall]; rfl)) (c := .stopping .copyScheduler inDestructor) rfl
      (by simp [Caller.holdsMutex]) (fun _ => hs.joiner (by simp [hcall])) (by simp)
      (fun _ => by decide)
  | copyScheduler i inDestructor hcall =>
    exact hs.goOn (hs.toJoin (by rw [hcall]; rfl))
      (c := .stopping (.copyTrigger s.scheduler_) inDestructor) rfl (by simp [Caller.holdsMutex])
      (fun _ => hs.joiner (by simp [hcall])) (by simp)
      (fun _ => hs.signalled (by rw [hcall]; rfl))
  | copyTrigger i inDestructor scheduler hcall =>
    exact hs.goOn (hs.toJoin (by rw [hcall]; rfl))
      (c := .stopping (.trigger scheduler s.stopTrigger_) inDestructor) rfl (fun _ => rfl)
      (fun _ => hs.joiner (by simp [hcall])) (by simp)
      (fun _ => hs.signalled (by rw [hcall]; rfl))
  | trigger i inDestructor scheduler stopTrigger hcall =>
    exact hs.goOn (hs.toJoin (by rw [hcall]; rfl)) (c := .stopping .joinable inDestructor) rfl
      (fun _ => hs.mutex (by rw [hcall]; rfl)) (fun _ => hs.joiner (by simp [hcall])) (by simp)
      (fun _ => hs.signalled (by rw [hcall]; rfl))
  | joinable i inDestructor hcall =>
    exact hs.goOn (hs.toJoin (by rw [hcall]; rfl)) (c := .stopping .join inDestructor) rfl
      (fun _ => hs.mutex (by rw [hcall]; rfl)) (fun _ => hs.joiner (by simp [hcall])) (by simp)
      (fun _ => hs.signalled (by rw [hcall]; rfl))
  | notJoinable i inDestructor hcall hthread =>
    exact absurd hthread (hs.rtspThread_ne_none (by rw [hcall]; rfl))
  | join i inDestructor thread hcall hthread =>
    have hsession := hs.toJoin (by rw [hcall]; rfl)
    exact hs.goOn hsession (c := .stopping (.joining thread) inDestructor) rfl
      (fun _ => hs.mutex (by rw [hcall]; rfl)) (by simp)
      (fun thread' d hc => by
        cases hc
        exact Option.some.inj (hthread.symm.trans hsession))
      (fun _ => hs.signalled (by rw [hcall]; rfl))
  | joinTwice => exact { hs with }
  | joinCrash => exact { hs with }
  | joined i inDestructor thread hcall hended =>
    exact ofEnded (hended (hs.joining thread inDestructor hcall)) rfl
      (fun _ => hs.mutex (by rw [hcall]; rfl)) rfl (by simp) (by simp) (by simp [Caller.toJoin])
  | clearRunning i inDestructor hcall hfree =>
    exact ofEnded (hs.joined inDestructor hcall) rfl (fun _ => hfree)
      (hs.joiner (by simp [hcall])) (fun _ => rfl)
      (by cases inDestructor <;> simp [State.afterStop])
      (by cases inDestructor <;> simp [State.afterStop, Caller.toJoin])
  | destroyMembers i hcall hthread =>
    exact ofEnded (hs.destroying (Or.inl hcall)) rfl (fun _ => hs.mutex (by rw [hcall]; rfl))
      (hs.joiner (by simp [hcall])) (by simp) (by simp) (by simp [Caller.toJoin])
  | destroyCrash => exact { hs with }
  | rtsp reply t h => exact hs.rtsp h
  | push => exact { hs with }

/-- What the transitions preserve under `Held` and a condition on the steps taken is preserved,
with `Held`, by the machine. -/
theorem step_and {P : State Unit → Action Unit → Prop} {I : State Unit → Prop}
    (hI : ∀ s a t, Held s → I s → P s a → s.crashed = none → Transition s a t → I t) :
    ∀ s a t, Held s ∧ I s → P s a → (machine Unit).step s a = some t → Held t ∧ I t := by
  rintro s a t ⟨hs, hi⟩ hP ht
  obtain ⟨hcrashed, h⟩ := Transition.of_step ht
  exact ⟨hs.transition h, hI s a t hs hi hP hcrashed h⟩

theorem reachable (h : (machine Unit).Reachable s) : Held s :=
  Machine.invariant (M := machine Unit) new
    (fun _ _ _ hs ht => hs.transition (Transition.of_step ht).2) h

end Held

end RtspPush.Service
