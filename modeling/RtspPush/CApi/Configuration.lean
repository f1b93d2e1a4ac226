import RtspPush.CApi.Step
import RtspPush.Lib.Refinement
import RtspPush.Service.Configuration

/-!
# A session has the configuration of its own `live555_rtsp_start`

The C API runs the service with one caller (`refines_service`), so that what holds of every run of
the service with one caller holds behind the API. With the calls of `live555_rtsp_start` counted
beside it, `start_configured` says whose configuration a session is set up with.
-/

namespace RtspPush.CApi

open Lib Service
open Service.SetupEvent

universe u

variable {ε : Type u}

/-! ## The service behind the API -/

/-- What a step of the API is for the service. -/
def serviceSteps (s : State ε) : Action ε → List (Service.Action Unit)
  | .start config => [.start () (startArgs config)]
  | .stop => [.stop () false]
  | .continueCall =>
    match s.control with
    | .inStart => [.continueCall ()]
    | .inStop => [.continueCall ()]
    | _ => []
  | .continuePush e =>
    match s.encoders e with
    | .pushing _ data timestampUs => [.push (some data) timestampUs]
    | _ => []
  | .rtsp reply => [.rtsp reply]
  | _ => []

variable [DecidableEq ε] {s t : State ε}

omit [DecidableEq ε] in
/-- A step of the service inside a step of the API. -/
theorem exec_of_map {a : Service.Action Unit} {f : Service.State Unit → State ε}
    (hf : ∀ service, (f service).service = service)
    (h : (s.service.step a).map f = some t) :
    (Service.machine Unit).exec s.service [a] = some t.service := by
  obtain ⟨service, hstep, rfl⟩ := Option.map_eq_some_iff.mp h
  rw [hf]
  exact Machine.exec_cons_iff.mpr ⟨service, hstep, rfl⟩

omit [DecidableEq ε] in
theorem exec_continueCall (h : s.continueCall = some t) :
    (Service.machine Unit).exec s.service (serviceSteps s .continueCall) = some t.service := by
  unfold State.continueCall at h
  simp only [serviceSteps]
  cases hcontrol : s.control with
  | outside => simp [hcontrol] at h
  | inStart | inStop =>
    rw [hcontrol] at h
    exact exec_of_map (fun _ => rfl) h
  | readURL launched i =>
    simp only [hcontrol] at h
    split at h
    · cases h
    · cases h
      rfl
  | _ =>
    simp only [hcontrol, Option.some.injEq] at h
    subst h
    rfl

theorem service_of_push {e : ε} {data : Option (List UInt8)} {timestampUs : UInt64}
    (h : s.live555_rtsp_push_h264_annexb e data timestampUs = some t) : t.service = s.service := by
  cases Transition.of_push h <;> rfl

theorem exec_continuePush {e : ε} (h : s.continuePush e = some t) :
    (Service.machine Unit).exec s.service (serviceSteps s (.continuePush e)) = some t.service := by
  unfold State.continuePush at h
  simp only [serviceSteps]
  cases hencoder : s.encoders e with
  | outside => simp [hencoder] at h
  | pushing session data timestampUs =>
    rw [hencoder] at h
    exact exec_of_map (fun _ => rfl) h
  | pushed result =>
    simp only [hencoder, Option.some.injEq] at h
    subst h
    rfl

/-- **The C API runs the service with one caller.** -/
theorem refines_service :
    Machine.Refines (machine ε) (Service.machine Unit) State.service serviceSteps where
  init := rfl
  step s a t h := by
    have hstep : s.step a = some t := h
    unfold State.step at hstep
    split at hstep
    · cases hstep
    · cases a with
      | start config =>
        simp only [State.live555_rtsp_start] at hstep
        split at hstep
        · cases hstep
        · exact exec_of_map (fun _ => rfl) hstep
      | stop =>
        simp only [State.live555_rtsp_stop] at hstep
        split at hstep
        · cases hstep
        · exact exec_of_map (fun _ => rfl) hstep
      | getURL =>
        cases Transition.of_getURL hstep
        rfl
      | continueCall => exact exec_continueCall hstep
      | push e data timestampUs =>
        rw [service_of_push hstep]
        rfl
      | continuePush e => exact exec_continuePush hstep
      | rtsp reply => exact exec_of_map (fun _ => rfl) hstep

/-! ## The calls of `live555_rtsp_start` -/

/-- The parameters that a `start` which finds no session running is called with. -/
def starting (s : Service.State Unit) : Service.Action Unit → List StartArgs
  | .start _ args => if s.running_ then [] else [args]
  | _ => []

/-- The same of the API. -/
def asked (s : State ε) : Action ε → List StartArgs
  | .start config => if s.service.running_ then [] else [startArgs config]
  | _ => []

/-- The call of `start` that has not launched its thread yet. -/
def pendingStart (s : Service.State Unit) : List StartArgs :=
  match s.callers () with
  | .starting _ args => [args]
  | _ => []

/-- A `start` that finds no session running goes on to its launch. -/
theorem starting_step {s t : Service.State Unit} {a : Service.Action Unit}
    (h : s.step a = some t) :
    pendingStart s ++ starting s a = launches (setupEvents s a) ++ pendingStart t := by
  obtain ⟨-, htrans⟩ := Service.Transition.of_step h
  cases htrans with
  | startRunning i args hcall hfree hrunning =>
    simp [pendingStart, starting, setupEvents, launches, hcall, hrunning]
  | start i args hcall hfree hrunning =>
    simp [pendingStart, starting, setupEvents, launches, hcall, hrunning]
  | startNext i point args hcall hpoint =>
    cases point with
    | launch => exact absurd rfl hpoint
    | _ => simp [State.startNext, pendingStart, starting, setupEvents, launches, hcall]
  | launch i args hcall hthread | launchCrash i args hcall hthread =>
    simp [pendingStart, starting, setupEvents, launches, hcall, hthread]
  | rtsp reply t hrtsp =>
    have hnone : launches (setupEvents s (.rtsp reply)) = [] := by
      simp only [setupEvents]
      split
      · split <;> rfl
      · rfl
      · rfl
      · rfl
    simp [hnone, pendingStart, starting, hrtsp.frame.callers]
  | push data timestampUs => simp [pendingStart, starting, setupEvents, launches]
  | stopNotRunning i inDestructor hcall =>
    cases inDestructor <;>
      simp [State.afterStop, pendingStart, starting, setupEvents, launches, hcall]
  | clearRunning i inDestructor hcall =>
    cases inDestructor <;>
      simp [State.afterStop, pendingStart, starting, setupEvents, launches, hcall]
  | stop i _ hcall | setWatch i _ hcall | copyScheduler i _ hcall | copyTrigger i _ _ hcall
    | trigger i _ _ _ hcall | joinable i _ hcall | notJoinable i _ hcall | join i _ _ hcall
    | joinTwice i _ _ hcall | joinCrash i _ hcall | joined i _ _ hcall | destroyMembers i hcall
    | destroyCrash i hcall =>
    simp [pendingStart, starting, setupEvents, launches, hcall]

omit [DecidableEq ε] in
/-- Nothing else of the API calls the `start` of the service. -/
theorem starting_serviceSteps {a : Action ε} (ha : ∀ config, a ≠ .start config)
    {service : Service.State Unit} {b : Service.Action Unit} (hb : b ∈ serviceSteps s a) :
    starting service b = [] := by
  cases a with
  | start config => exact absurd rfl (ha config)
  | stop | rtsp reply =>
    rw [List.mem_singleton.mp hb]
    rfl
  | getURL => cases hb
  | push e data timestampUs => cases hb
  | continueCall =>
    simp only [serviceSteps] at hb
    split at hb
    · rw [List.mem_singleton.mp hb]
      rfl
    · rw [List.mem_singleton.mp hb]
      rfl
    · cases hb
  | continuePush e =>
    simp only [serviceSteps] at hb
    split at hb
    · rw [List.mem_singleton.mp hb]
      rfl
    · cases hb

/-- The calls of the service are those of the API. -/
theorem observed_starting {as : List (Action ε)} (h : (machine ε).exec s as = some t) :
    (Service.machine Unit).observed starting s.service ((machine ε).observed serviceSteps s as) =
      (machine ε).observed asked s as := by
  refine refines_service.observed (fun s a t hstep => ?_) h
  have hrun := refines_service.step s a t hstep
  cases a with
  | start config =>
    obtain ⟨service, hservice, -⟩ := Machine.exec_cons_iff.mp hrun
    rw [serviceSteps, Machine.observed_cons hservice]
    simp [starting, asked, Machine.observed]
  | _ => exact Machine.observed_eq_nil (fun _ _ hb => starting_serviceSteps (by simp) hb) s.service

/-! ## Every run -/

/-- The run `as` for the service. -/
def serviceRun (as : List (Action ε)) : List (Service.Action Unit) :=
  (machine ε).observed serviceSteps .new as

theorem launches_eq {as : List (Action ε)} (h : (machine ε).exec .new as = some s) :
    (machine ε).observed asked .new as =
      launches (shownSetup (serviceRun as)) ++ pendingStart s.service := by
  have hrun := refines_service.exec h
  have hconserved := Machine.conserved (M := Service.machine Unit) (fun _ _ _ => starting_step) hrun
  have hshown : launches (shownSetup (serviceRun as)) = (Service.machine Unit).observed
      (fun s a => launches (setupEvents s a)) .new (serviceRun as) :=
    Machine.flatMap_observed _ _
  rw [hshown, ← observed_starting h]
  exact hconserved

/-- **A session has the configuration of its own `live555_rtsp_start`.** In every run of the C API,
of one controlling thread and any number of encoders, the sessions are the
`live555_rtsp_start` calls that found no session running, in order, the last one perhaps not
launched yet; and whatever the RTSP thread of a session reads of the port, the name and the
credentials is what that call was given, with the defaults standing in for a null configuration, a
port of 0, null strings and the empty name. Its server is created with an authentication database
exactly when the call gave a user name or a password, and the database has got these. -/
theorem start_configured {as : List (Action ε)} (h : (machine ε).exec .new as = some s) :
    (machine ε).observed asked .new as =
        launches (shownSetup (serviceRun as)) ++ pendingStart s.service ∧
      (launches (shownSetup (serviceRun as))).length = s.service.session ∧
      ∀ e ∈ shownSetup (serviceRun as), Proper (shownSetup (serviceRun as)) e :=
  ⟨launches_eq h, setUpProperly_of_resets (resetsWhenEnded_of_one_caller _) _
    (refines_service.exec h)⟩

/-- A session with a password and a second `live555_rtsp_start`, which finds it running. -/
def guardedRun : List (Action Unit) :=
  Action.start (some ⟨0, none, some "camera", some "secret"⟩) ::
    List.replicate 5 Action.continueCall ++
    List.replicate 6 (Action.rtsp ⟨true, 1, some "rtsp://127.0.0.1:8554/live", 0⟩) ++
    List.replicate 2 Action.continueCall ++ [Action.start none]

theorem guarded_start_configured :
    shownSetup (serviceRun guardedRun) =
        [.launched ⟨8554, "live", "camera", "secret"⟩, .addUserRecord 1 "camera" "secret",
          .createServer 1 8554 true, .createServerMediaSession 1 "live"] ∧
      (machine Unit).observed asked .new guardedRun = [⟨8554, "live", "camera", "secret"⟩] ∧
      ∀ e ∈ shownSetup (serviceRun guardedRun), Proper (shownSetup (serviceRun guardedRun)) e := by
  have hrun : (machine Unit).exec .new guardedRun = some _ := rfl
  exact ⟨rfl, (start_configured hrun).1, (start_configured hrun).2.2⟩

end RtspPush.CApi
