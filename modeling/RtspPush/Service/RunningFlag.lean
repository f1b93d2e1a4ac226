import RtspPush.Service.Callers

/-!
# Whether `running_` tells that a session is served

`stop` ends with a locked `running_ = false` that does not look again at which session it is about.
A `stop` that found the handle already joined by another one may come to it when a later `start`
has launched the next RTSP thread, and then leaves a live server with `running_` false.
`running_agrees_iff` says which stores do that: `StoresInOrder` is the exact condition, and
`ResetsWhenEnded`, which is about the store in `stop` alone, is enough for it.
-/

namespace RtspPush.Service

open Lib

variable {ι : Type}

/-- `running_` is true while an RTSP thread is unfinished. -/
def Agrees (s : State ι) : Prop := s.rtsp.unfinished = true → s.running_ = true

/-- The next step of `i` is the store with which its `stop` ends. -/
def ResetsRunning (s : State ι) (i : ι) : Prop :=
  s.crashed = none ∧ s.mutex = none ∧ ∃ d, s.callers i = .stopping .clearRunning d

/-- The next step of `i` launches an RTSP thread. -/
def Launches (s : State ι) (i : ι) : Prop :=
  s.crashed = none ∧ s.rtspThread_ = none ∧ ∃ args, s.callers i = .starting .launch args

/-- A `stop` makes its final store when the RTSP thread has ended. -/
def ResetsWhenEnded (s : State ι) : Action ι → Prop
  | .continueCall i => ResetsRunning s i → s.rtsp = .ended
  | _ => True

/-- A `stop` makes its final store when no RTSP thread is unfinished, and a `start` launches its
thread while its own store in `running_` stands. -/
def StoresInOrder (s : State ι) : Action ι → Prop
  | .continueCall i =>
    (ResetsRunning s i → s.rtsp.unfinished = false) ∧ (Launches s i → s.running_ = true)
  | _ => True

/-- A session that goes on was under way before. -/
theorem RtspStep.unfinished {s t : State ι} (h : RtspStep s t)
    (ht : t.rtsp.unfinished = true) : s.rtsp.unfinished = true := by
  cases h with
  | clearRunning => cases ht
  | _ => simp [*, RtspPoint.unfinished]

variable [DecidableEq ι]

theorem ResetsRunning.step {s : State ι} {i : ι} (h : ResetsRunning s i) :
    ∃ d, s.step (.continueCall i) =
      some { s.setCaller i (State.afterStop d) with running_ := false } := by
  obtain ⟨hcrashed, hfree, d, hcall⟩ := h
  exact ⟨d, by simp [State.step, State.continueCall, State.stopNext, hcrashed, hcall, hfree]⟩

theorem Launches.step {s : State ι} {i : ι} (h : Launches s i) :
    s.step (.continueCall i) = some { s.setCaller i .outside with
      rtspThread_ := some (s.session + 1)
      session := s.session + 1
      rtsp := .createScheduler
      mutex := none } := by
  obtain ⟨hcrashed, hthread, args, hcall⟩ := h
  simp [State.step, State.continueCall, State.startNext, hcrashed, hcall, hthread]

namespace Agrees

variable {s t : State ι}

/-- Only the final store of a `stop` and the launch can break the agreement. -/
theorem transition (hs : Agrees s) {a : Action ι} (hP : StoresInOrder s a)
    (hcrashed : s.crashed = none) (h : Transition s a t) : Agrees t := by
  cases h with
  | startNext i point args hcall hpoint =>
    cases point with
    | launch => exact absurd rfl hpoint
    | setRunning => exact fun _ => rfl
    | _ => exact hs
  | launch i args hcall hthread => exact fun _ => hP.2 ⟨hcrashed, hthread, args, hcall⟩
  | clearRunning i inDestructor hcall hfree =>
    have hdone := hP.1 ⟨hcrashed, hfree, inDestructor, hcall⟩
    exact fun hlive => absurd (hdone.symm.trans hlive) Bool.false_ne_true
  | rtsp reply t h =>
    intro hlive
    rcases h.frame.running with hsame | ⟨-, -, hended⟩
    · exact hsame.trans (hs (h.unfinished hlive))
    · rw [hended] at hlive
      cases hlive
  | _ => exact hs

/-- A store out of order breaks the agreement at once. -/
theorem exists_step_not {a : Action ι} (hP : ¬ StoresInOrder s a) :
    ∃ t, (machine ι).step s a = some t ∧ ¬ Agrees t := by
  cases a with
  | continueCall i =>
    rcases not_and_or.mp hP with hreset | hlaunch
    · obtain ⟨hnext, hlive⟩ := Classical.not_imp.mp hreset
      obtain ⟨d, hstep⟩ := hnext.step
      exact ⟨_, hstep, fun h => absurd (h (by simpa using hlive)) Bool.false_ne_true⟩
    · obtain ⟨hnext, hrunning⟩ := Classical.not_imp.mp hlaunch
      exact ⟨_, hnext.step, fun h => hrunning (h rfl)⟩
  | start | stop | rtsp | push => exact absurd trivial hP

end Agrees

/-- A session from its launch to the end of its thread: `running_` stays set, and no `start` is
under way. -/
structure Serving (s : State ι) : Prop where
  running : s.rtsp ≠ .ended → s.running_ = true
  starting : ∀ i point args, s.callers i = .starting point args → s.rtsp = .ended
  launch : ∀ i args, s.callers i = .starting .launch args → s.running_ = true

namespace Serving

variable {s t : State ι}

omit [DecidableEq ι] in
theorem new : Serving (.new : State ι) := ⟨fun h => absurd rfl h, fun _ _ _ _ => rfl, nofun⟩

/-- A caller moves; inside `start` it finds no thread, and at the launch `running_` set. -/
theorem goOn (hi : Serving s) {i : ι} {c : Caller}
    (hcallers : t.callers = (s.setCaller i c).callers) (hrtsp : t.rtsp = s.rtsp)
    (hrunning : t.running_ = s.running_)
    (hstarting : ∀ point args, c = .starting point args → s.rtsp = .ended)
    (hlaunch : ∀ args, c = .starting .launch args → s.running_ = true) : Serving t := by
  refine ⟨by rw [hrtsp, hrunning]; exact hi.running, fun j point args hj => ?_, fun j args hj => ?_⟩
  · rw [hcallers] at hj
    rw [hrtsp]
    by_cases hji : j = i
    · exact hstarting point args (by simpa [hji] using hj)
    · exact hi.starting j point args (by simpa [hji] using hj)
  · rw [hcallers] at hj
    rw [hrunning]
    by_cases hji : j = i
    · exact hlaunch args (by simpa [hji] using hj)
    · exact hi.launch j args (by simpa [hji] using hj)

/-- A caller moves and is not inside `start` afterwards. -/
theorem goOutside (hi : Serving s) {i : ι} {c : Caller}
    (hcallers : t.callers = (s.setCaller i c).callers) (hrtsp : t.rtsp = s.rtsp)
    (hrunning : t.running_ = s.running_) (hc : ∀ point args, c ≠ .starting point args) :
    Serving t :=
  hi.goOn hcallers hrtsp hrunning (fun point args h => absurd h (hc point args))
    fun args h => absurd h (hc .launch args)

omit [DecidableEq ι] in
/-- Nobody is inside `start`. -/
theorem ofNone (hrunning : s.rtsp ≠ .ended → s.running_ = true)
    (hnone : ∀ i point args, s.callers i ≠ .starting point args) : Serving s :=
  ⟨hrunning, fun i point args h => absurd h (hnone i point args),
    fun i args h => absurd h (hnone i .launch args)⟩

theorem transition (hs : Shared s) (hi : Serving s) {a : Action ι} (hP : ResetsWhenEnded s a)
    (hcrashed : s.crashed = none) (h : Transition s a t) : Serving t := by
  cases h with
  | startRunning => exact hi
  | start i args hcall hfree hstopped =>
    have hended : s.rtsp = .ended := by
      by_contra hlive
      rw [hi.running hlive] at hstopped
      cases hstopped
    exact hi.goOn rfl rfl rfl (fun _ _ _ => hended) (by intro _ h; cases h)
  | startNext i point args hcall hpoint =>
    have hended := hi.starting i point args hcall
    cases point with
    | setRunning => exact ⟨fun _ => rfl, fun _ _ _ _ => hended, fun _ _ _ => rfl⟩
    | launch => exact absurd rfl hpoint
    | _ => exact hi.goOn rfl rfl rfl (fun _ _ _ => hended) (by intro _ h; cases h)
  | launch i args hcall hthread =>
    refine ofNone (fun _ => hi.launch i args hcall) fun j point args' hj => ?_
    by_cases hji : j = i
    · simp [hji] at hj
    · -- whoever is inside a `start` holds the mutex, so nobody else is
      have hold := State.callers_of_setCaller hj (by intro h; cases h)
      exact hji (hs.1.eq_of_holdsMutex (by rw [hold]; rfl) (by rw [hcall]; rfl))
  | stopNotRunning i inDestructor =>
    exact hi.goOutside rfl rfl rfl (by cases inDestructor <;> intro _ _ h <;> cases h)
  | clearRunning i inDestructor hcall hfree =>
    have hended := hP ⟨hcrashed, hfree, inDestructor, hcall⟩
    refine ofNone (fun hlive => absurd hended hlive) fun j point args hj => ?_
    have hold := State.callers_of_setCaller hj (by cases inDestructor <;> intro h <;> cases h)
    have hheld := hs.1.holdsMutex_eq_false hfree j
    simp [hold, Caller.holdsMutex] at hheld
  | rtsp reply t h =>
    have hframe := h.frame
    refine ofNone (fun hlive => ?_) fun j point args hj => ?_
    · rcases hframe.running with hsame | ⟨-, -, hended⟩
      · exact hsame.trans (hi.running hframe.live)
      · exact absurd hended hlive
    · exact hframe.live (hi.starting j point args (hframe.callers ▸ hj))
  | launchCrash => exact { hi with }
  | joinTwice => exact { hi with }
  | joinCrash => exact { hi with }
  | destroyCrash => exact { hi with }
  | push => exact { hi with }
  | _ => exact hi.goOutside rfl rfl rfl (by intro _ _ h; cases h)

omit [DecidableEq ι] in
/-- While `stop` resets `running_` in time, the stores are in order. -/
theorem storesInOrder (hi : Serving s) {a : Action ι} (hP : ResetsWhenEnded s a) :
    StoresInOrder s a := by
  cases a with
  | continueCall i =>
    refine ⟨fun h => ?_, fun ⟨_, _, args, hcall⟩ => hi.launch i args hcall⟩
    rw [hP h]
    rfl
  | _ => trivial

end Serving

/-- **When `running_` agrees with the RTSP thread.** In every run of any number of callers it does
so in every state exactly when the stores in it are in order; and they are if every `stop` makes
its final store when the RTSP thread has ended. -/
theorem running_agrees_iff (as : List (Action ι)) :
    ((machine ι).Throughout Agrees .new as ↔ (machine ι).Along StoresInOrder .new as) ∧
      ((machine ι).Along ResetsWhenEnded .new as → (machine ι).Along StoresInOrder .new as) := by
  refine ⟨⟨Machine.along_of_throughout fun _ _ _ hP => Agrees.exists_step_not hP, ?_⟩, ?_⟩
  · refine Machine.throughout_of_along (fun s a t hs hP ht => ?_) (nofun : Agrees .new)
    obtain ⟨hcrashed, h⟩ := Transition.of_step ht
    exact hs.transition hP hcrashed h
  · refine Machine.Along.imp (I := fun s => Shared s ∧ Serving s) (fun s a t hs hP ht => ?_)
      (fun s a hs hP => hs.2.storesInOrder hP) ⟨Shared.new, Serving.new⟩
    obtain ⟨hcrashed, h⟩ := Transition.of_step ht
    exact ⟨hs.1.step ht, hs.2.transition hs.1 hP hcrashed h⟩

/-- Two threads pass the check of `stop`; the second finds the handle joined by the first, which
then starts the next session. -/
def staleStop : List (Action Bool) :=
  let args : StartArgs := ⟨8554, "live", "", ""⟩
  let start : List (Action Bool) := .start true args :: List.replicate 5 (.continueCall true)
  let enter (i : Bool) : List (Action Bool) :=
    .stop i false :: List.replicate 4 (.continueCall i)
  start ++ enter true ++ enter false ++ List.replicate 2 (Action.continueCall true) ++
    List.replicate 15 (Action.rtsp ⟨true, 1, some "rtsp://127.0.0.1:8554/live", 0⟩) ++
    [Action.continueCall true, .continueCall false, .continueCall true] ++ start ++
    [Action.continueCall false]

/-- The second thread's store makes `running_` false under the new session. -/
theorem stale_stop_resets_running : ¬ (machine Bool).Throughout Agrees .new staleStop := by
  intro h
  have hend : ((machine Bool).exec .new staleStop).map (fun s => (s.rtsp, s.running_, s.session)) =
      some (.createScheduler, false, 2) := rfl
  obtain ⟨s, hs, hpoint⟩ := Option.map_eq_some_iff.mp hend
  simp only [Prod.mk.injEq] at hpoint
  have hrunning := h staleStop (List.prefix_refl _) s hs (by rw [hpoint.1]; rfl)
  rw [hpoint.2.1] at hrunning
  cases hrunning

end RtspPush.Service
