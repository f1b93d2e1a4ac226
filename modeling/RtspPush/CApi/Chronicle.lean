import RtspPush.CApi.Step
import RtspPush.Service.Callers

/-!
# The service behind the C API

In every reachable state: the service has the invariants of one caller (`Held`) and of
its mutex and watch variable (`Shared`), that caller is the controlling thread (`Synced`), and
`rtspURL_` holds what the latest session has published (`Chronicle`).
-/

namespace RtspPush.CApi

open Lib Service

universe u

variable {ε : Type u}

/-! ## The controlling thread -/

/-- The controlling thread of the API is the caller of the service, and nobody is in its
destructor. -/
structure Synced (s : State ε) : Prop where
  outside : s.control ≠ .inStart → s.control ≠ .inStop → s.service.callers () = .outside
  inStart : s.control = .inStart → ∃ point args, s.service.callers () = .starting point args
  inStop : s.control = .inStop → ∃ point, s.service.callers () = .stopping point false

namespace Synced

variable {s t : State ε}

theorem new : Synced (.new : State ε) := ⟨fun _ _ => rfl, nofun, nofun⟩

/-- A point of the API outside the service. -/
theorem of_outside (hcall : t.service.callers () = .outside) (hstart : t.control ≠ .inStart)
    (hstop : t.control ≠ .inStop) : Synced t :=
  ⟨fun _ _ => hcall, fun h => absurd h hstart, fun h => absurd h hstop⟩

/-- The other threads leave the controlling thread and its calls alone. -/
theorem of_same (hs : Synced s) (hcontrol : t.control = s.control)
    (hcallers : t.service.callers = s.service.callers) : Synced t := by
  constructor
  · rw [hcontrol, hcallers]
    exact hs.outside
  · rw [hcontrol, hcallers]
    exact hs.inStart
  · rw [hcontrol, hcallers]
    exact hs.inStop

theorem transition [DecidableEq ε] (hs : Synced s) {a : Action ε} (h : Transition s a t) :
    Synced t := by
  have houtside := hs.outside
  cases h with
  | startRunning config service hcall h hout => exact of_outside hout (by simp) (by simp)
  | launched service hcall h hout => exact of_outside hout (by simp) (by simp)
  | stopNotRunning service hcall h hout => exact of_outside hout (by simp) (by simp)
  | stopped service hcall h hout => exact of_outside hout (by simp) (by simp)
  | start config service hcall h hin =>
    cases h with
    | startRunning _ _ hservice => exact absurd hservice hin
    | start => exact ⟨by simp, fun _ => ⟨.config, startArgs config, by simp⟩, by simp⟩
  | startNext service hcall h hin =>
    obtain ⟨point, args, hstart⟩ := hs.inStart hcall
    refine ⟨by simp, fun _ => ?_, by simp⟩
    cases h with
    | startNext _ point args hcaller hpoint =>
      cases point with
      | launch => exact absurd rfl hpoint
      | _ => exact ⟨_, args, by simp [State.startNext]; rfl⟩
    | launch => simp at hin
    | launchCrash => exact ⟨point, args, hstart⟩
    | _ => simp_all
  | stop service hcall h hin =>
    cases h with
    | stopNotRunning => simp [State.afterStop] at hin
    | stop => exact ⟨by simp, by simp, fun _ => ⟨.setWatch, by simp⟩⟩
  | stopNext service hcall h hin =>
    obtain ⟨point, hstop⟩ := hs.inStop hcall
    refine ⟨by simp, by simp, fun _ => ?_⟩
    cases h with
    | clearRunning _ _ hcaller => simp_all [State.afterStop]
    | _ => simp_all
  | refused => exact hs.of_same rfl rfl
  | checked => exact hs.of_same rfl rfl
  | pushFrame => exact hs.of_same rfl rfl
  | pushReturn => exact hs.of_same rfl rfl
  | rtsp reply service h => exact hs.of_same rfl h.frame.callers
  | _ => exact of_outside (by simp_all) (by simp) (by simp)

end Synced

/-! ## The published URLs -/

/-- The point is behind the publication of the URL, in a session whose set-up has not failed. -/
def behindURL : RtspPoint → Bool
  | .setStartOk => true
  | .loopCheck => true
  | .loopBody => true
  | .cleanup _ false => true
  | .ended => true
  | _ => false

/-- The caller is in a `start` that has cleared `rtspURL_`. -/
def urlCleared : Caller → Bool
  | .starting .config _ => false
  | .starting _ _ => true
  | _ => false

/-- The set-up of the latest session has published a non-empty URL. -/
def Published (s : State ε) : Prop := ∃ url, url ≠ "" ∧ (s.service.session, url) ∈ s.published

/-- `rtspURL_` is what the latest session has published, until the next `start` clears it. -/
structure Chronicle (s : Service.State Unit) (published : List (Nat × String)) : Prop where
  earlier : ∀ n url, (n, url) ∈ published → n ≤ s.session
  current : s.rtspURL_ ≠ "" → (s.session, s.rtspURL_) ∈ published
  cleared : urlCleared (s.callers ()) = true → s.rtspURL_ = ""
  latest : ∀ url, (s.session, url) ∈ published →
    s.rtspURL_ = url ∨ urlCleared (s.callers ()) = true
  behind : ∀ url, (s.session, url) ∈ published → behindURL s.rtsp = true

namespace Chronicle

variable {s t : Service.State Unit} {published : List (Nat × String)}

theorem new : Chronicle .new [] := ⟨nofun, fun h => absurd rfl h, nofun, nofun, nofun⟩

/-- A launch begins a session that has published nothing. -/
theorem not_published (hc : Chronicle s published) (url : String) :
    (s.session + 1, url) ∉ published := by
  intro h
  have hle := hc.earlier _ _ h
  omega

/-- A step that does nothing to `rtspURL_`, and begins or ends no `start`. -/
theorem of_same (hc : Chronicle s published) (hsession : t.session = s.session)
    (hurl : t.rtspURL_ = s.rtspURL_) (hrtsp : t.rtsp = s.rtsp)
    (hcleared : urlCleared (t.callers ()) = urlCleared (s.callers ())) :
    Chronicle t published := by
  constructor
  · rw [hsession]
    exact hc.earlier
  · rw [hsession, hurl]
    exact hc.current
  · rw [hcleared, hurl]
    exact hc.cleared
  · rw [hsession, hcleared, hurl]
    exact hc.latest
  · rw [hsession, hrtsp]
    exact hc.behind

theorem call (hc : Chronicle s published) {b : Service.Action Unit}
    (hb : ∀ reply, b ≠ .rtsp reply) (h : Service.Transition s b t) : Chronicle t published := by
  cases h with
  | startRunning => exact hc
  | startNext i point args hcall hpoint =>
    cases point with
    | config =>
      have hin : urlCleared ((s.startNext i args .config).callers ()) = true := by
        simp [State.startNext, urlCleared]
      exact { hc with
        current := fun h => absurd rfl h
        cleared := fun _ => rfl
        latest := fun _ _ => Or.inr hin }
    | launch => exact absurd rfl hpoint
    | _ => exact hc.of_same rfl rfl rfl (by simp [State.startNext, hcall, urlCleared])
  | launch i args hcall =>
    have hempty : s.rtspURL_ = "" := hc.cleared (by rw [hcall]; rfl)
    exact {
      earlier := fun n url h => Nat.le_succ_of_le (hc.earlier n url h)
      current := fun h => absurd hempty h
      cleared := fun _ => hempty
      latest := fun url h => absurd h (hc.not_published url)
      behind := fun url h => absurd h (hc.not_published url) }
  | stopNotRunning i inDestructor hcall | clearRunning i inDestructor hcall =>
    exact hc.of_same rfl rfl rfl
      (by cases inDestructor <;> simp [hcall, State.afterStop, urlCleared])
  | rtsp reply => exact absurd rfl (hb reply)
  | launchCrash => exact { hc with }
  | joinTwice => exact { hc with }
  | joinCrash => exact { hc with }
  | destroyCrash => exact { hc with }
  | push => exact { hc with }
  | start _ _ hcall | stop _ _ hcall | setWatch _ _ hcall | copyScheduler _ _ hcall
    | copyTrigger _ _ _ hcall | trigger _ _ _ _ hcall | joinable _ _ hcall
    | notJoinable _ _ hcall | join _ _ _ hcall | joined _ _ _ hcall | destroyMembers _ hcall =>
    exact hc.of_same rfl rfl rfl (by simp [hcall, urlCleared])

/-- Behind the publication the RTSP thread comes back to it in no way. -/
theorem behindURL_of_rtspStep (h : RtspStep s t) (hs : behindURL s.rtsp = true) :
    behindURL t.rtsp = true := by
  cases h with
  | cleanup point failed hpoint =>
    rw [hpoint] at hs
    cases failed with
    | false => cases point <;> rfl
    | true => cases hs
  | _ => simp_all [behindURL]

theorem rtspURL_of_rtspStep (h : RtspStep s t) (hs : s.rtsp ≠ .publishURL) :
    t.rtspURL_ = s.rtspURL_ := by
  cases h with
  | publishURL url hpoint => exact absurd hpoint hs
  | cleanup point => cases point <;> rfl
  | _ => rfl

/-- The RTSP thread publishes once in a session. -/
theorem rtsp (hs : Held s) (hc : Chronicle s published) (h : RtspStep s t) :
    Chronicle t (if s.rtsp = .publishURL then (s.session, t.rtspURL_) :: published
      else published) := by
  have hframe := h.frame
  by_cases hpoint : s.rtsp = .publishURL
  · rw [if_pos hpoint]
    have hfirst (url : String) : (s.session, url) ∉ published := by
      intro hmem
      have hbehind := hc.behind url hmem
      simp [hpoint, behindURL] at hbehind
    have hcaller : urlCleared (t.callers ()) = false := by
      rw [hframe.callers]
      cases hstart : s.callers () with
      | starting point args => exact absurd (hs.starting point args hstart) hframe.live
      | _ => rfl
    have hlast (url : String) (h : (t.session, url) ∈ (s.session, t.rtspURL_) :: published) :
        t.rtspURL_ = url := by
      rw [hframe.session] at h
      rcases List.mem_cons.mp h with heq | hold
      · exact (congrArg Prod.snd heq).symm
      · exact absurd hold (hfirst url)
    refine ⟨fun n url h => ?_, fun _ => ?_, fun h => ?_, fun url h => Or.inl (hlast url h),
      fun url _ => ?_⟩
    · rw [hframe.session]
      rcases List.mem_cons.mp h with heq | hold
      · exact Nat.le_of_eq (congrArg Prod.fst heq)
      · exact hc.earlier n url hold
    · rw [hframe.session]
      exact List.mem_cons_self
    · rw [hcaller] at h
      cases h
    · cases h with
      | publishURL => rfl
      | _ => simp_all
  · rw [if_neg hpoint]
    have hurl := rtspURL_of_rtspStep h hpoint
    constructor
    · rw [hframe.session]
      exact hc.earlier
    · rw [hframe.session, hurl]
      exact hc.current
    · rw [hframe.callers, hurl]
      exact hc.cleared
    · rw [hframe.session, hframe.callers, hurl]
      exact hc.latest
    · rw [hframe.session]
      exact fun url hmem => behindURL_of_rtspStep h (hc.behind url hmem)

end Chronicle

/-- What a session has published stays published. -/
theorem mem_published_of_rtsp {s t : Service.State Unit} {published : List (Nat × String)}
    {url : String} (h : RtspStep s t) (hmem : (s.session, url) ∈ published) :
    (t.session, url) ∈
      if s.rtsp = .publishURL then (s.session, t.rtspURL_) :: published else published := by
  rw [h.frame.session]
  split
  · exact List.mem_cons_of_mem _ hmem
  · exact hmem

/-! ## Every reachable state -/

/-- The invariants of the service and its caller. -/
structure Backed (s : State ε) : Prop where
  held : Held s.service
  shared : Shared s.service
  synced : Synced s
  chronicle : Chronicle s.service s.published

namespace Backed

variable {s t : State ε}

theorem new : Backed (.new : State ε) := ⟨Held.new, Shared.new, Synced.new, Chronicle.new⟩

theorem transition [DecidableEq ε] (hs : Backed s) {a : Action ε} (h : Transition s a t) :
    Backed t := by
  have hsynced := hs.synced.transition h
  cases h.service with
  | idle hservice hpublished =>
    refine ⟨?_, ?_, hsynced, ?_⟩
    · rw [hservice]
      exact hs.held
    · rw [hservice]
      exact hs.shared
    · rw [hservice, hpublished]
      exact hs.chronicle
  | call b hrtsp hpush h hpublished =>
    refine ⟨hs.held.transition h, hs.shared.transition h, hsynced, ?_⟩
    rw [hpublished]
    exact hs.chronicle.call hrtsp h
  | push e session data timestampUs ha hcall h hpublished =>
    refine ⟨hs.held.transition h, hs.shared.transition h, hsynced, ?_⟩
    rw [hpublished]
    exact hs.chronicle.call (by simp) h
  | rtsp reply h hpublished =>
    refine ⟨hs.held.transition h, hs.shared.transition h, hsynced, ?_⟩
    rw [hpublished]
    cases h with
    | rtsp _ _ h => exact hs.chronicle.rtsp hs.held h

/-- The RTSP thread resets `running_` only after a failed set-up, which has published nothing. -/
theorem not_published_of_reset (hs : Backed s) {reply : Reply}
    (h : Service.Transition s.service (.rtsp reply) t.service)
    (hpublished : t.published =
      if s.service.rtsp = .publishURL then (s.service.session, t.service.rtspURL_) :: s.published
      else s.published) (hstopped : t.service.running_ = false) (url : String) :
    (t.service.session, url) ∉ t.published := by
  cases h with
  | rtsp _ _ h =>
    have hframe := h.frame
    rcases hframe.running with hsame | ⟨hpoint, -, -⟩
    · rw [hsame, (hs.held.live hframe.live).1] at hstopped
      cases hstopped
    · rw [hpublished, if_neg (by simp [hpoint]), hframe.session]
      intro hmem
      have hbehind := hs.chronicle.behind url hmem
      simp [hpoint, behindURL] at hbehind

/-- A running service that nobody is calling has an unfinished RTSP thread. -/
theorem live (hs : Backed s) (hcall : s.service.callers () = .outside)
    (hrunning : s.service.running_ = true) : s.service.rtsp ≠ .ended := by
  have hfree : s.service.mutex = none := hs.held.mutex (by rw [hcall]; rfl)
  refine (hs.shared.2.serving hs.shared.1 hfree hrunning fun i hending => ?_).2
  rw [hcall] at hending
  cases hending

variable [DecidableEq ε]

theorem step (hs : Backed s) {a : Action ε} (h : (machine ε).step s a = some t) : Backed t :=
  hs.transition (Transition.of_step h).2

theorem exec {as : List (Action ε)} (h : (machine ε).exec .new as = some s) : Backed s :=
  Machine.invariant_exec (M := machine ε) (fun _ _ _ hs ht => hs.step ht) new h

/-- What the transitions preserve under `Backed` and a condition on the steps taken is preserved,
with `Backed`, by the machine. -/
theorem step_and {P : State ε → Action ε → Prop} {I : State ε → Prop}
    (hI : ∀ s a t, Backed s → I s → P s a → s.service.crashed = none → Transition s a t → I t) :
    ∀ s a t, Backed s ∧ I s → P s a → (machine ε).step s a = some t → Backed t ∧ I t := by
  rintro s a t ⟨hs, hi⟩ hP ht
  obtain ⟨hcrashed, h⟩ := Transition.of_step ht
  exact ⟨hs.transition h, hI s a t hs hi hP hcrashed h⟩

end Backed

end RtspPush.CApi
