import RtspPush.CApi.Chronicle

/-!
# What `live555_rtsp_start` returns

The polling loop of `live555_rtsp_start` has 100 rounds, and when they are over it returns 0 like
after a published URL. `result_tells_iff` says that the result is right except there: a set-up that
has not published its URL by then, be it that it takes longer or that it fails behind the last
check, is reported as a success. `start_gives_up` says that this happens to every set-up that rests
during the call.
-/

namespace RtspPush.CApi

open Lib Service

universe u

variable {ε : Type u}

/-- The latest session has failed. -/
structure Failed (s : State ε) : Prop where
  running : s.service.running_ = false
  ended : s.service.rtsp = .ended
  notPublished : ∀ url, (s.service.session, url) ∉ s.published

/-- The result of a call that has launched a session tells what became of it. -/
def ResultTells (s : State ε) : Prop :=
  ∀ result, s.control = .started true result →
    (result = 0 → Published s) ∧ (result < 0 → Failed s)

/-- The polling loop of a call that has launched a session ends with its last round only when the
URL has been published. -/
def InTime (s : State ε) : Action ε → Prop
  | .continueCall => ∀ i, s.service.crashed = none → s.control = .sleep true i → 100 ≤ i + 1 →
      Published s
  | _ => True

/-- The polling loop of a call that has launched a session. -/
def Control.polling : Control → Bool
  | .readURL true _ => true
  | .checkRunning true _ => true
  | .sleep true _ => true
  | _ => false

/-- Where a polling call finds `running_` false, the session has published nothing. -/
def FailureSeen (s : State ε) : Prop :=
  s.control.polling = true → s.service.running_ = false →
    ∀ url, (s.service.session, url) ∉ s.published

/-- The caller comes out of `start` by its launch, with `running_` set. -/
theorem running_of_launch {s t : Service.State Unit} (hs : Held s) {point : StartPoint}
    {args : StartArgs} (hstart : s.callers () = .starting point args)
    (h : Service.Transition s (.continueCall ()) t) (hout : t.callers () = .outside) :
    t.running_ = true := by
  cases h with
  | launch _ args hcall => exact hs.launch args hcall
  | startNext _ point args hcall hpoint =>
    cases point with
    | launch => exact absurd rfl hpoint
    | _ => simp [State.startNext] at hout
  | _ => simp_all

variable [DecidableEq ε]

namespace FailureSeen

variable {s t : State ε}

omit [DecidableEq ε] in
theorem new : FailureSeen (.new : State ε) := nofun

omit [DecidableEq ε] in
/-- The controlling thread has moved on in its loop. -/
theorem of_polling (hf : FailureSeen s) (hpolling : s.control.polling = t.control.polling)
    (hservice : t.service = s.service) (hpublished : t.published = s.published) :
    FailureSeen t := by
  unfold FailureSeen
  rw [← hpolling, hservice, hpublished]
  exact hf

theorem transition (hs : Backed s) (hf : FailureSeen s) {a : Action ε} (h : Transition s a t) :
    FailureSeen t := by
  cases h with
  | launched service hcall h hout =>
    obtain ⟨point, args, hstart⟩ := hs.synced.inStart hcall
    intro _ hstopped
    rw [running_of_launch hs.held hstart h hout] at hstopped
    cases hstopped
  | noURL launched i hcall =>
    exact hf.of_polling (by cases launched <;> simp [hcall, Control.polling]) rfl rfl
  | running launched i hcall =>
    exact hf.of_polling (by cases launched <;> simp [hcall, Control.polling]) rfl rfl
  | nextRound launched i hcall =>
    exact hf.of_polling (by cases launched <;> simp [hcall, Control.polling]) rfl rfl
  | startNext service hcall => exact fun hpolling => by simp [Control.polling] at hpolling
  | stopNext service hcall => exact fun hpolling => by simp [Control.polling] at hpolling
  | refused => exact hf
  | checked => exact hf
  | pushFrame => exact hf
  | pushReturn => exact hf
  | rtsp reply service h =>
    exact fun _ hstopped url =>
      hs.not_published_of_reset (Service.Transition.rtsp reply _ h) rfl hstopped url
  | _ => exact fun hpolling => by simp [Control.polling] at hpolling

end FailureSeen

namespace ResultTells

variable {s t : State ε}

omit [DecidableEq ε] in
theorem new : ResultTells (.new : State ε) := nofun

omit [DecidableEq ε] in
/-- A point of the API that is not the return of a launching `live555_rtsp_start`. -/
theorem of_not_started (h : ∀ result, t.control ≠ .started true result) : ResultTells t :=
  fun result hresult => absurd hresult (h result)

omit [DecidableEq ε] in
theorem of_encoders (hr : ResultTells s) (encoders : ε → Encoder) :
    ResultTells { s with encoders := encoders } := by
  intro result hcall
  obtain ⟨hzero, hneg⟩ := hr result hcall
  exact ⟨hzero, fun hresult => { hneg hresult with }⟩

omit [DecidableEq ε] in
/-- A step of the RTSP thread takes nothing back. -/
theorem rtsp (hr : ResultTells s) {service : Service.State Unit}
    (h : RtspStep s.service service) : ResultTells { s with
      service := service
      published :=
        if s.service.rtsp = .publishURL then (s.service.session, service.rtspURL_) :: s.published
        else s.published } := by
  intro result hcall
  obtain ⟨hzero, hneg⟩ := hr result hcall
  refine ⟨fun hresult => ?_, fun hresult => absurd (hneg hresult).ended h.frame.live⟩
  obtain ⟨url, hurl, hmem⟩ := hzero hresult
  exact ⟨url, hurl, mem_published_of_rtsp h hmem⟩

theorem transition (hs : Backed s) (hf : FailureSeen s) (hr : ResultTells s) {a : Action ε}
    (hP : InTime s a) (hcrashed : s.service.crashed = none) (h : Transition s a t) :
    ResultTells t := by
  cases h with
  | foundURL launched i hcall hurl =>
    rintro result ⟨⟩
    exact ⟨fun _ => ⟨_, hurl, hs.chronicle.current hurl⟩, fun h => absurd h (by decide)⟩
  | notRunning launched i hcall hstopped =>
    rintro result ⟨⟩
    refine ⟨fun h => absurd h (by decide), fun _ => ?_⟩
    exact ⟨hstopped, hs.held.ended_of_not_running hstopped,
      hf (by simp [hcall, Control.polling]) hstopped⟩
  | lastRound launched i hcall hi =>
    rintro result ⟨⟩
    exact ⟨fun _ => hP i hcrashed hcall hi, fun h => absurd h (by decide)⟩
  | refused => exact hr.of_encoders _
  | checked => exact hr.of_encoders _
  | pushReturn => exact hr.of_encoders _
  | pushFrame =>
    intro result hcall
    obtain ⟨hzero, hneg⟩ := hr result hcall
    exact ⟨hzero, fun hresult => { hneg hresult with }⟩
  | rtsp reply service h => exact hr.rtsp h
  | _ => exact of_not_started (by simp)

/-- Leaving the loop too early is a wrong 0. -/
theorem exists_step_not {a : Action ε} (hP : ¬ InTime s a) :
    ∃ t, (machine ε).step s a = some t ∧ ¬ ResultTells t := by
  cases a with
  | continueCall =>
    simp only [InTime] at hP
    push Not at hP
    obtain ⟨i, hcrashed, hcall, hi, hnot⟩ := hP
    refine ⟨{ s with control := .started true 0 }, ?_, fun h => hnot ((h 0 rfl).1 rfl)⟩
    simp [machine, State.step, State.continueCall, hcrashed, hcall, Nat.not_lt_of_ge hi]
  | start | stop | getURL | push | continuePush | rtsp => exact absurd trivial hP

end ResultTells

/-- **When the result of `live555_rtsp_start` tells the outcome.** In every run, whatever the set-up
does and however it is interleaved with the loop, each result of a call made while no session is
running is right exactly when no such call leaves its loop behind the last round before the URL has
been published. -/
theorem result_tells_iff (as : List (Action ε)) :
    (machine ε).Throughout ResultTells .new as ↔ (machine ε).Along InTime .new as := by
  constructor
  · exact Machine.along_of_throughout fun _ _ _ hP => ResultTells.exists_step_not hP
  · intro hP bs hbs t ht
    have hstep := Backed.step_and (ε := ε) (P := InTime)
      (I := fun s => FailureSeen s ∧ ResultTells s)
      fun s a t hs hi hP hcrashed h =>
        ⟨hi.1.transition hs h, hi.2.transition hs hi.1 hP hcrashed h⟩
    exact (Machine.throughout_of_along hstep ⟨Backed.new, FailureSeen.new, ResultTells.new⟩ hP
      bs hbs t ht).2.2

/-! ## A set-up that outlasts the loop -/

/-- The loop at its round `i`, while the set-up rests. -/
structure Resting (s : State ε) (launched : Bool) (i : Nat) : Prop where
  noCrash : s.service.crashed = none
  free : s.service.mutex = none
  noURL : s.service.rtspURL_ = ""
  running : s.service.running_ = true
  control : s.control = .readURL launched i

variable {s : State ε} {launched : Bool} {i : Nat}

/-- The accesses of a round up to the sleep. -/
theorem Resting.exec_checks (h : Resting s launched i) :
    (machine ε).exec s [.continueCall, .continueCall] =
      some { s with g_rtspURL := "", control := .sleep launched i } := by
  simp [Machine.exec, machine, State.step, State.continueCall, h.noCrash, h.free, h.noURL,
    h.running, h.control]

/-- A round that is not the last one. -/
theorem Resting.exec_round (h : Resting s launched i) (hi : i + 1 < 100) :
    ∃ t, (machine ε).exec s (List.replicate 3 .continueCall) = some t ∧
      t.service = s.service ∧ t.published = s.published ∧ Resting t launched (i + 1) := by
  have hsleep : (machine ε).exec { s with g_rtspURL := "", control := .sleep launched i }
      [.continueCall] =
      some { s with g_rtspURL := "", control := .readURL launched (i + 1) } := by
    simp [Machine.exec, machine, State.step, State.continueCall, h.noCrash, hi]
  exact ⟨_, Machine.exec_append_iff.mpr ⟨_, h.exec_checks, hsleep⟩, rfl, rfl,
    { h with control := rfl }⟩

/-- **The loop gives up with 0**: if the set-up rests during the call, `live555_rtsp_start` returns
0 behind its last round. -/
theorem Resting.start_gives_up (n : Nat) :
    ∀ {s : State ε} {i : Nat}, Resting s launched i → i + n + 1 = 100 →
      ∃ t, (machine ε).exec s (List.replicate (3 * (n + 1)) .continueCall) = some t ∧
        t.service = s.service ∧ t.published = s.published ∧ t.control = .started launched 0 := by
  induction n with
  | zero =>
    intro s i h hi
    have hlast : ¬ i + 1 < 100 := by omega
    have hsleep : (machine ε).exec { s with g_rtspURL := "", control := .sleep launched i }
        [.continueCall] = some { s with g_rtspURL := "", control := .started launched 0 } := by
      simp [Machine.exec, machine, State.step, State.continueCall, h.noCrash, hlast]
    exact ⟨_, Machine.exec_append_iff.mpr ⟨_, h.exec_checks, hsleep⟩, rfl, rfl, rfl⟩
  | succ n ih =>
    intro s i h hi
    obtain ⟨u, hu, hservice, hpublished, hround⟩ := h.exec_round (by omega)
    obtain ⟨t, ht, htservice, htpublished, hcontrol⟩ := ih hround (by omega)
    refine ⟨t, ?_, htservice.trans hservice, htpublished.trans hpublished, hcontrol⟩
    have hsplit : 3 * (n + 1 + 1) = 3 + 3 * (n + 1) := by omega
    rw [hsplit, ← List.replicate_append_replicate]
    exact Machine.exec_append_iff.mpr ⟨u, hu, ht⟩

/-- A `live555_rtsp_start` up to its polling loop. -/
def startedPolling : List (Action Unit) := .start none :: List.replicate 5 .continueCall

/-- A set-up that takes longer than the loop: the call returns 0, and no URL has been published. -/
theorem slow_setup_reported_ready :
    ¬ (machine Unit).Throughout ResultTells .new
      (startedPolling ++ List.replicate 300 .continueCall) := by
  intro h
  have hstart : ((machine Unit).exec .new startedPolling).map (fun s =>
      (s.service.crashed, s.service.mutex, s.service.rtspURL_, s.service.running_, s.control,
        s.published)) =
      some (none, none, "", true, .readURL true 0, []) := rfl
  obtain ⟨s, hs, hstate⟩ := Option.map_eq_some_iff.mp hstart
  simp only [Prod.mk.injEq] at hstate
  obtain ⟨hcrashed, hfree, hurl, hrunning, hcontrol, hpublished⟩ := hstate
  have hresting : Resting s true 0 := ⟨hcrashed, hfree, hurl, hrunning, hcontrol⟩
  obtain ⟨t, ht, -, htpublished, htcontrol⟩ := hresting.start_gives_up 99 rfl
  have hresult := h _ (List.prefix_refl _) t (Machine.exec_append_iff.mpr ⟨s, hs, ht⟩)
  obtain ⟨url, -, hmem⟩ := (hresult 0 htcontrol).1 rfl
  simp [htpublished, hpublished] at hmem

end RtspPush.CApi
