import RtspPush.CApi.Basic
import RtspPush.Service.Step

/-!
# What each step of the C API can do

`Transition` lists the outcomes of the steps, each with the step of the service in it, and
`ServiceStep` is what is left of them for the service alone.
-/

namespace RtspPush.CApi

open Lib Service

universe u

variable {ε : Type u} [DecidableEq ε]

/-- The outcomes of the steps. -/
inductive Transition (s : State ε) : Action ε → State ε → Prop
  | startRunning (config : Option Config) (service : Service.State Unit)
      (hcall : s.control = .outside)
      (h : Service.Transition s.service (.start () (startArgs config)) service)
      (hout : service.callers () = .outside) :
      Transition s (.start config) { s with service := service, control := .readURL false 0 }
  | start (config : Option Config) (service : Service.State Unit) (hcall : s.control = .outside)
      (h : Service.Transition s.service (.start () (startArgs config)) service)
      (hin : service.callers () ≠ .outside) :
      Transition s (.start config) { s with service := service, control := .inStart }
  | startNext (service : Service.State Unit) (hcall : s.control = .inStart)
      (h : Service.Transition s.service (.continueCall ()) service)
      (hin : service.callers () ≠ .outside) :
      Transition s .continueCall { s with service := service, control := .inStart }
  | launched (service : Service.State Unit) (hcall : s.control = .inStart)
      (h : Service.Transition s.service (.continueCall ()) service)
      (hout : service.callers () = .outside) :
      Transition s .continueCall { s with service := service, control := .readURL true 0 }
  | foundURL (launched : Bool) (i : Nat) (hcall : s.control = .readURL launched i)
      (hurl : s.service.rtspURL_ ≠ "") :
      Transition s .continueCall
        { s with g_rtspURL := s.service.rtspURL_, control := .started launched 0 }
  | noURL (launched : Bool) (i : Nat) (hcall : s.control = .readURL launched i)
      (hurl : s.service.rtspURL_ = "") :
      Transition s .continueCall
        { s with g_rtspURL := s.service.rtspURL_, control := .checkRunning launched i }
  | notRunning (launched : Bool) (i : Nat) (hcall : s.control = .checkRunning launched i)
      (hrunning : s.service.running_ = false) :
      Transition s .continueCall { s with control := .started launched (-2) }
  | running (launched : Bool) (i : Nat) (hcall : s.control = .checkRunning launched i)
      (hrunning : s.service.running_ = true) :
      Transition s .continueCall { s with control := .sleep launched i }
  | nextRound (launched : Bool) (i : Nat) (hcall : s.control = .sleep launched i)
      (hi : i + 1 < 100) :
      Transition s .continueCall { s with control := .readURL launched (i + 1) }
  | lastRound (launched : Bool) (i : Nat) (hcall : s.control = .sleep launched i)
      (hi : 100 ≤ i + 1) :
      Transition s .continueCall { s with control := .started launched 0 }
  | startReturn (launched : Bool) (result : Int) (hcall : s.control = .started launched result) :
      Transition s .continueCall { s with control := .outside }
  | stopNotRunning (service : Service.State Unit) (hcall : s.control = .outside)
      (h : Service.Transition s.service (.stop () false) service)
      (hout : service.callers () = .outside) :
      Transition s .stop { s with service := service, control := .clearURL }
  | stop (service : Service.State Unit) (hcall : s.control = .outside)
      (h : Service.Transition s.service (.stop () false) service)
      (hin : service.callers () ≠ .outside) :
      Transition s .stop { s with service := service, control := .inStop }
  | stopNext (service : Service.State Unit) (hcall : s.control = .inStop)
      (h : Service.Transition s.service (.continueCall ()) service)
      (hin : service.callers () ≠ .outside) :
      Transition s .continueCall { s with service := service, control := .inStop }
  | stopped (service : Service.State Unit) (hcall : s.control = .inStop)
      (h : Service.Transition s.service (.continueCall ()) service)
      (hout : service.callers () = .outside) :
      Transition s .continueCall { s with service := service, control := .clearURL }
  | clearURL (hcall : s.control = .clearURL) :
      Transition s .continueCall { s with g_rtspURL := "", control := .outside }
  | getURL (hcall : s.control = .outside) :
      Transition s .getURL { s with
        g_rtspURL := s.service.rtspURL_
        control := .gotURL (if s.service.rtspURL_ = "" then none else some s.service.rtspURL_) }
  | urlReturn (url : Option String) (hcall : s.control = .gotURL url) :
      Transition s .continueCall { s with control := .outside }
  | refused (e : ε) (data : Option (List UInt8)) (timestampUs : UInt64) (result : Int)
      (hcall : s.encoders e = .outside) :
      Transition s (.push e data timestampUs) (s.setEncoder e (.pushed result))
  | checked (e : ε) (data : List UInt8) (timestampUs : UInt64) (hcall : s.encoders e = .outside)
      (hdata : data ≠ []) (hrunning : s.service.running_ = true) :
      Transition s (.push e (some data) timestampUs)
        (s.setEncoder e (.pushing (currentSession s.service) data timestampUs))
  | pushFrame (e : ε) (session : Nat) (data : List UInt8) (timestampUs : UInt64)
      (hcall : s.encoders e = .pushing session data timestampUs) :
      Transition s (.continuePush e)
        { s.setEncoder e (.pushed 0) with
          service := { s.service with
            frameQueue_ := (s.service.frameQueue_.pushAnnexBFrame (some data) timestampUs).1 } }
  | pushReturn (e : ε) (result : Int) (hcall : s.encoders e = .pushed result) :
      Transition s (.continuePush e) (s.setEncoder e .outside)
  | rtsp (reply : Reply) (service : Service.State Unit) (h : RtspStep s.service service) :
      Transition s (.rtsp reply) { s with
        service := service
        published :=
          if s.service.rtsp = .publishURL then (s.service.session, service.rtspURL_) :: s.published
          else s.published }

namespace Transition

variable {s t : State ε}

omit [DecidableEq ε] in
/-- What a call of the controlling thread makes of a step of the service. -/
theorem service_call {a : Service.Action Unit} {c d : Control}
    (h : (s.service.step a).map (fun service =>
      { s with service := service, control := if service.callers () = .outside then c else d }) =
      some t) :
    ∃ service, Service.Transition s.service a service ∧
      ((service.callers () = .outside ∧ t = { s with service := service, control := c }) ∨
        (service.callers () ≠ .outside ∧ t = { s with service := service, control := d })) := by
  obtain ⟨service, hstep, rfl⟩ := Option.map_eq_some_iff.mp h
  refine ⟨service, (Service.Transition.of_step hstep).2, ?_⟩
  by_cases hout : service.callers () = .outside
  · exact Or.inl ⟨hout, by simp [hout]⟩
  · exact Or.inr ⟨hout, by simp [hout]⟩

theorem of_start {config : Option Config} (h : s.live555_rtsp_start config = some t) :
    Transition s (.start config) t := by
  unfold State.live555_rtsp_start at h
  split at h
  · cases h
  next hcall =>
  have hcall : s.control = .outside := not_not.mp hcall
  obtain ⟨service, hservice, ⟨hout, rfl⟩ | ⟨hin, rfl⟩⟩ := service_call h
  · exact .startRunning config service hcall hservice hout
  · exact .start config service hcall hservice hin

theorem of_stop (h : s.live555_rtsp_stop = some t) : Transition s .stop t := by
  unfold State.live555_rtsp_stop at h
  split at h
  · cases h
  next hcall =>
  have hcall : s.control = .outside := not_not.mp hcall
  obtain ⟨service, hservice, ⟨hout, rfl⟩ | ⟨hin, rfl⟩⟩ := service_call h
  · exact .stopNotRunning service hcall hservice hout
  · exact .stop service hcall hservice hin

theorem of_getURL (h : s.live555_rtsp_get_url = some t) : Transition s .getURL t := by
  unfold State.live555_rtsp_get_url at h
  split at h
  · cases h
  · next hready => exact Option.some.inj h ▸ .getURL (not_not.mp (not_or.mp hready).1)

theorem of_continueCall (h : s.continueCall = some t) : Transition s .continueCall t := by
  unfold State.continueCall at h
  split at h
  · cases h
  · next hcall =>
    obtain ⟨service, hservice, ⟨hout, rfl⟩ | ⟨hin, rfl⟩⟩ := service_call h
    · exact .launched service hcall hservice hout
    · exact .startNext service hcall hservice hin
  · next launched i hcall =>
    split at h
    · cases h
    obtain rfl := Option.some.inj h
    by_cases hurl : s.service.rtspURL_ = ""
    · simpa [hurl] using Transition.noURL launched i hcall hurl
    · simpa [hurl] using Transition.foundURL launched i hcall hurl
  · next launched i hcall =>
    obtain rfl := Option.some.inj h
    cases hrunning : s.service.running_ with
    | false => exact .notRunning launched i hcall hrunning
    | true => exact .running launched i hcall hrunning
  · next launched i hcall =>
    obtain rfl := Option.some.inj h
    by_cases hi : i + 1 < 100
    · simpa [hi] using Transition.nextRound launched i hcall hi
    · simpa [hi] using Transition.lastRound launched i hcall (Nat.le_of_not_lt hi)
  · next launched result hcall => exact Option.some.inj h ▸ .startReturn launched result hcall
  · next hcall =>
    obtain ⟨service, hservice, ⟨hout, rfl⟩ | ⟨hin, rfl⟩⟩ := service_call h
    · exact .stopped service hcall hservice hout
    · exact .stopNext service hcall hservice hin
  · next hcall => exact Option.some.inj h ▸ .clearURL hcall
  · next url hcall => exact Option.some.inj h ▸ .urlReturn url hcall

theorem of_push {e : ε} {data : Option (List UInt8)} {timestampUs : UInt64}
    (h : s.live555_rtsp_push_h264_annexb e data timestampUs = some t) :
    Transition s (.push e data timestampUs) t := by
  unfold State.live555_rtsp_push_h264_annexb at h
  split at h
  · cases h
  next hcall =>
  have hcall : s.encoders e = .outside := not_not.mp hcall
  split at h
  · exact Option.some.inj h ▸ .refused e _ timestampUs (-1) hcall
  · exact Option.some.inj h ▸ .refused e _ timestampUs (-1) hcall
  · split at h
    · exact Option.some.inj h ▸ .refused e _ timestampUs (-2) hcall
    · next hrunning =>
      exact Option.some.inj h ▸ .checked e _ timestampUs hcall nofun (by simpa using hrunning)

theorem of_continuePush {e : ε} (h : s.continuePush e = some t) :
    Transition s (.continuePush e) t := by
  unfold State.continuePush at h
  split at h
  · cases h
  · next session data timestampUs hcall =>
    obtain ⟨service, hstep, rfl⟩ := Option.map_eq_some_iff.mp h
    cases (Service.Transition.of_step hstep).2
    exact .pushFrame e session data timestampUs hcall
  · next result hcall => exact Option.some.inj h ▸ .pushReturn e result hcall

/-- **The step function does what `Transition` lists**, and nothing behind a crash. -/
theorem of_step {a : Action ε} (h : s.step a = some t) :
    s.service.crashed = none ∧ Transition s a t := by
  unfold State.step at h
  split at h
  · cases h
  next hcrashed =>
  refine ⟨by simpa using hcrashed, ?_⟩
  cases a with
  | start config => exact of_start h
  | stop => exact of_stop h
  | getURL => exact of_getURL h
  | continueCall => exact of_continueCall h
  | push e data timestampUs => exact of_push h
  | continuePush e => exact of_continuePush h
  | rtsp reply =>
    obtain ⟨service, hstep, rfl⟩ := Option.map_eq_some_iff.mp h
    cases (Service.Transition.of_step hstep).2 with
    | rtsp _ _ hrtsp => exact .rtsp reply service hrtsp

end Transition

/-- What a step of the API is for the service. -/
inductive ServiceStep (s t : State ε) (a : Action ε) : Prop
  | idle (hservice : t.service = s.service) (hpublished : t.published = s.published)
  | call (b : Service.Action Unit) (hrtsp : ∀ reply, b ≠ .rtsp reply)
      (hpush : ∀ data timestampUs, b ≠ .push data timestampUs)
      (h : Service.Transition s.service b t.service) (hpublished : t.published = s.published)
  | push (e : ε) (session : Nat) (data : List UInt8) (timestampUs : UInt64)
      (ha : a = .continuePush e) (hcall : s.encoders e = .pushing session data timestampUs)
      (h : Service.Transition s.service (.push (some data) timestampUs) t.service)
      (hpublished : t.published = s.published)
  | rtsp (reply : Reply) (h : Service.Transition s.service (.rtsp reply) t.service)
      (hpublished : t.published =
        if s.service.rtsp = .publishURL then (s.service.session, t.service.rtspURL_) :: s.published
        else s.published)

theorem Transition.service {s t : State ε} {a : Action ε} (h : Transition s a t) :
    ServiceStep s t a := by
  cases h with
  | startRunning _ _ _ h => exact .call _ (by simp) (by simp) h rfl
  | start _ _ _ h => exact .call _ (by simp) (by simp) h rfl
  | startNext _ _ h => exact .call _ (by simp) (by simp) h rfl
  | launched _ _ h => exact .call _ (by simp) (by simp) h rfl
  | stopNotRunning _ _ h => exact .call _ (by simp) (by simp) h rfl
  | stop _ _ h => exact .call _ (by simp) (by simp) h rfl
  | stopNext _ _ h => exact .call _ (by simp) (by simp) h rfl
  | stopped _ _ h => exact .call _ (by simp) (by simp) h rfl
  | pushFrame e session data timestampUs hcall =>
    exact .push e session data timestampUs rfl hcall (.push (some data) timestampUs) rfl
  | rtsp reply _ h => exact .rtsp reply (.rtsp reply _ h) rfl
  | _ => exact .idle rfl rfl

/-- For the service alone, it is one step or none. -/
theorem ServiceStep.eq_or_transition {s t : State ε} {a : Action ε} (h : ServiceStep s t a) :
    t.service = s.service ∨ ∃ b, Service.Transition s.service b t.service := by
  cases h with
  | idle hservice => exact Or.inl hservice
  | call b hrtsp hpush hstep => exact Or.inr ⟨b, hstep⟩
  | push e session data timestampUs ha hcall hstep => exact Or.inr ⟨_, hstep⟩
  | rtsp reply hstep => exact Or.inr ⟨_, hstep⟩

end RtspPush.CApi
