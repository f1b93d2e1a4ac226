import RtspPush.Service.Callers

/-!
# What the true of `start` is worth

`start` decides on `running_` alone. That stays true through the whole window between the store to
the watch variable and the final store of a `stop`, and through the clean-up of a failed set-up,
so that a `start` that falls there returns true and launches nothing. `start_honest_iff` says
that these are all the cases: with no such `stop` under way and the set-up not failed, a running
service has an RTSP thread in its set-up or its event loop.
-/

namespace RtspPush.Service

open Lib

variable {ι : Type}

/-- The RTSP thread is at work, and neither has a `stop` begun to end its session nor has its
set-up failed. -/
structure Serves (s : State ι) : Prop where
  live : s.rtsp ≠ .ended
  watch : s.eventLoopWatchVariable_ = 0
  failed : s.rtsp.failed = false

/-- The step has launched an RTSP thread. -/
structure Launched (s t : State ι) : Prop where
  session : t.session = s.session + 1
  rtspThread : t.rtspThread_ = some t.session
  rtsp : t.rtsp = .createScheduler

/-- The step with which a `start` of `i` returns: its only one, or the last one. -/
def StartReturns (s t : State ι) (a : Action ι) (i : ι) : Prop :=
  t.callers i = .outside ∧
    ((∃ args, a = .start i args) ∨
      a = .continueCall i ∧ ∃ point args, s.callers i = .starting point args)

/-- A `start` that finds `running_` set and returns true for it. -/
def FindsRunning (s : State ι) (i : ι) : Prop :=
  s.crashed = none ∧ s.callers i = .outside ∧ s.mutex = none ∧ s.running_ = true

/-- A `start` finds `running_` set outside the window of every `stop` whose store in the watch
variable still stands, and not after a failure of the set-up. -/
def FindsServed (s : State ι) : Action ι → Prop
  | .start i _ => FindsRunning s i →
      s.rtsp.failed = false ∧ ∀ j, (s.callers j).ending = true → s.eventLoopWatchVariable_ = 0
  | _ => True

variable [DecidableEq ι]

/-- A `start` that returns has launched an RTSP thread or found the service served. -/
def StartHonest (s : State ι) (a : Action ι) : Prop :=
  ∀ t i, (machine ι).step s a = some t → StartReturns s t a i → Launched s t ∨ Serves s

namespace FindsServed

variable {s : State ι}

omit [DecidableEq ι] in
theorem serves (hs : Shared s) {i : ι} {args : StartArgs} (hP : FindsServed s (.start i args))
    (h : FindsRunning s i) : Serves s := by
  obtain ⟨hfailed, hnone⟩ := hP h
  obtain ⟨hwatch, hlive⟩ := hs.2.serving hs.1 h.2.2.1 h.2.2.2 hnone
  exact ⟨hlive, hwatch, hfailed⟩

/-- The other way to return is to launch a thread. -/
theorem startHonest (hs : Shared s) {a : Action ι} (hP : FindsServed s a) : StartHonest s a := by
  rintro t i ht ⟨hout, hcall⟩
  obtain ⟨hcrashed, h⟩ := Transition.of_step ht
  rcases hcall with ⟨args, rfl⟩ | ⟨rfl, point, args, hcall⟩
  · right
    cases h with
    | startRunning _ _ hcall hfree hrunning =>
      exact hP.serves hs ⟨hcrashed, hcall, hfree, hrunning⟩
    | start => simp at hout
  · left
    cases h with
    | launch => exact ⟨rfl, rfl, rfl⟩
    | startNext _ point args hcall hpoint =>
      cases point with
      | launch => exact absurd rfl hpoint
      | _ => simp [State.startNext] at hout
    | _ => simp_all

theorem of_startHonest {a : Action ι} (h : StartHonest s a) : FindsServed s a := by
  cases a with
  | start i args =>
    rintro ⟨hcrashed, hcall, hfree, hrunning⟩
    have hstep : (machine ι).step s (.start i args) = some s := by
      simp [machine, State.step, State.start, hcrashed, hcall, hfree, hrunning]
    rcases h s i hstep ⟨hcall, Or.inl ⟨args, rfl⟩⟩ with hlaunched | hserves
    · exact absurd hlaunched.session (Nat.succ_ne_self _).symm
    · exact ⟨hserves.failed, fun _ _ => hserves.watch⟩
  | stop | continueCall | rtsp | push => trivial

end FindsServed

/-- **When the true of `start` can be relied on.** In every run of any number of callers each
`start` that returns has launched an RTSP thread or found one whose session nobody had begun to
end, exactly when no `start` of the run falls into the window of a `stop` or into the clean-up of
a failed set-up. -/
theorem start_honest_iff (as : List (Action ι)) :
    (machine ι).Along StartHonest .new as ↔ (machine ι).Along FindsServed .new as := by
  have hstep : ∀ s a t, Shared s → (machine ι).step s a = some t → Shared t :=
    fun _ _ _ hs ht => hs.step ht
  constructor
  · exact Machine.Along.imp (fun s a t hs _ => hstep s a t hs)
      (fun _ _ _ h => FindsServed.of_startHonest h) Shared.new
  · exact Machine.Along.imp (fun s a t hs _ => hstep s a t hs)
      (fun _ _ hs hP => hP.startHonest hs) Shared.new

/-- The state in which one thread is in `stop`, behind the trigger, and a second calls `start`. -/
def startWhileStopping : List (Action Bool) :=
  Action.start true ⟨8554, "live", "", ""⟩ :: List.replicate 5 (Action.continueCall true) ++
    List.replicate 8 (Action.rtsp ⟨true, 1, some "rtsp://127.0.0.1:8554/live", 0⟩) ++
    Action.stop true false :: List.replicate 4 (Action.continueCall true)

/-- The second thread's `start` returns true, has launched nothing and finds a session that the
`stop` is ending. -/
theorem start_lost :
    ¬ (machine Bool).Along StartHonest .new
      (startWhileStopping ++ [.start false ⟨8554, "live", "", ""⟩]) := by
  intro h
  have hend : ((machine Bool).exec .new startWhileStopping).map (fun s =>
      (s.crashed, s.callers false, s.mutex, s.running_, s.callers true,
        s.eventLoopWatchVariable_)) =
      some (none, .outside, none, true, .stopping .joinable false, 1) := rfl
  obtain ⟨s, hs, hstate⟩ := Option.map_eq_some_iff.mp hend
  simp only [Prod.mk.injEq] at hstate
  obtain ⟨hcrashed, hcall, hfree, hrunning, hstop, hwatch⟩ := hstate
  have hserved := FindsServed.of_startHonest (h.of_exec hs)
  have hzero := (hserved ⟨hcrashed, hcall, hfree, hrunning⟩).2 true (by rw [hstop]; rfl)
  rw [hwatch] at hzero
  cases hzero

end RtspPush.Service
