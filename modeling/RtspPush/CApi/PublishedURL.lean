import RtspPush.CApi.Chronicle

/-!
# Which session `live555_rtsp_get_url` tells of

The URL lives in two copies. `live555_rtsp_stop` clears `g_rtspURL`, but `rtspURL_` of the service
only goes with the next `start`, and `live555_rtsp_get_url` reads that one again. `url_current_iff`
says that the URL is that of a running session except when it is asked for after the end of a
session that has published one.
-/

namespace RtspPush.CApi

open Lib Service

universe u

variable {ε : Type u}

/-- A URL that `live555_rtsp_get_url` returns is that of the running session. -/
def URLCurrent (s : State ε) : Prop :=
  ∀ url, s.control = .gotURL (some url) →
    s.service.running_ = true ∧ s.service.rtsp ≠ .ended ∧
      (s.service.session, url) ∈ s.published

/-- `live555_rtsp_get_url` can read the URL now. -/
def ReadsURL (s : State ε) : Prop :=
  s.service.crashed = none ∧ s.control = .outside ∧ s.service.mutex = none

/-- While no session is running, `live555_rtsp_get_url` is called only if the latest one has
published no URL. -/
def AskedInSession (s : State ε) : Action ε → Prop
  | .getURL => ReadsURL s → s.service.running_ = false → ¬ Published s
  | _ => True

namespace URLCurrent

variable {s t : State ε}

theorem new : URLCurrent (.new : State ε) := nofun

/-- A point of the API that is not the return of `live555_rtsp_get_url` with a URL. -/
theorem of_not_gotURL (h : ∀ url, t.control ≠ .gotURL (some url)) : URLCurrent t :=
  fun url hcall => absurd hcall (h url)

theorem of_encoders (hu : URLCurrent s) (encoders : ε → Encoder) :
    URLCurrent { s with encoders := encoders } := hu

/-- What holds of the URL when it is read holds while it is returned: the session goes on. -/
theorem rtsp (hs : Backed s) (hu : URLCurrent s) (reply : Reply)
    (h : RtspStep s.service t.service) (ht : Backed t) (hcontrol : t.control = s.control)
    (hpublished : t.published =
      if s.service.rtsp = .publishURL then (s.service.session, t.service.rtspURL_) :: s.published
      else s.published) : URLCurrent t := by
  intro url hcall
  obtain ⟨hrunning, -, hmem⟩ := hu url (hcontrol.symm.trans hcall)
  have hmem : (t.service.session, url) ∈ t.published := hpublished ▸ mem_published_of_rtsp h hmem
  have hrunning : t.service.running_ = true := by
    by_contra hstopped
    exact hs.not_published_of_reset (Service.Transition.rtsp reply _ h) hpublished
      (by simpa using hstopped) url hmem
  have hcaller := ht.synced.outside (by simp [hcall]) (by simp [hcall])
  exact ⟨hrunning, ht.live hcaller hrunning, hmem⟩

variable [DecidableEq ε]

theorem transition (hs : Backed s) (hu : URLCurrent s) {a : Action ε} (hP : AskedInSession s a)
    (hcrashed : s.service.crashed = none) (h : Transition s a t) : URLCurrent t := by
  have ht := hs.transition h
  cases h with
  | getURL hcall =>
    intro url hgot
    obtain ⟨hurl, rfl⟩ : s.service.rtspURL_ ≠ "" ∧ s.service.rtspURL_ = url := by
      simpa using hgot
    have hmem := hs.chronicle.current hurl
    have hcaller := hs.synced.outside (by simp [hcall]) (by simp [hcall])
    have hreads : ReadsURL s := ⟨hcrashed, hcall, hs.held.mutex (by rw [hcaller]; rfl)⟩
    have hrunning : s.service.running_ = true := by
      by_contra hstopped
      exact hP hreads (by simpa using hstopped) ⟨_, hurl, hmem⟩
    exact ⟨hrunning, hs.live hcaller hrunning, hmem⟩
  | refused => exact hu.of_encoders _
  | checked => exact hu.of_encoders _
  | pushFrame => exact hu.of_encoders _
  | pushReturn => exact hu.of_encoders _
  | rtsp reply service h => exact rtsp hs hu reply h ht rfl rfl
  | _ => exact of_not_gotURL (by simp)

/-- Asking behind a session that has published its URL gets that URL. -/
theorem exists_step_not (hs : Backed s) {a : Action ε} (hP : ¬ AskedInSession s a) :
    ∃ t, (machine ε).step s a = some t ∧ ¬ URLCurrent t := by
  cases a with
  | getURL =>
    simp only [AskedInSession] at hP
    push Not at hP
    obtain ⟨⟨hcrashed, hcall, hfree⟩, hstopped, url, hurl, hmem⟩ := hP
    have hcaller := hs.synced.outside (by simp [hcall]) (by simp [hcall])
    have hlatest : s.service.rtspURL_ = url :=
      (hs.chronicle.latest url hmem).resolve_right (by simp [hcaller, urlCleared])
    have hstep : s.step (.getURL : Action ε) = some { s with
        g_rtspURL := s.service.rtspURL_
        control :=
          .gotURL (if s.service.rtspURL_ = "" then none else some s.service.rtspURL_) } := by
      simp [State.step, State.live555_rtsp_get_url, hcrashed, hcall, hfree]
    refine ⟨_, hstep, fun h => ?_⟩
    have hrunning := (h url (by simp [hlatest, hurl])).1
    simp [hstopped] at hrunning
  | start | stop | continueCall | push | continuePush | rtsp => exact absurd trivial hP

end URLCurrent

/-- **When the returned URL is that of the running session.** In every run each URL that
`live555_rtsp_get_url` returns is the one that the running session has published, exactly when it is
never called behind the end of a session that had published its URL. -/
theorem url_current_iff [DecidableEq ε] (as : List (Action ε)) :
    (machine ε).Throughout URLCurrent .new as ↔ (machine ε).Along AskedInSession .new as := by
  constructor
  · intro h
    refine Machine.along_of_throughout (I := fun s => Backed s ∧ URLCurrent s) ?_
      fun bs hbs t ht => ⟨Backed.exec ht, h bs hbs t ht⟩
    rintro s a ⟨hs, -⟩ hP
    obtain ⟨t, ht, hnot⟩ := URLCurrent.exists_step_not hs hP
    exact ⟨t, ht, fun h => hnot h.2⟩
  · intro hP bs hbs t ht
    have hstep := Backed.step_and (ε := ε) (P := AskedInSession) (I := URLCurrent)
      fun s a t hs hu hP hcrashed h => hu.transition hs hP hcrashed h
    exact (Machine.throughout_of_along hstep ⟨Backed.new, URLCurrent.new⟩ hP bs hbs t ht).2

/-- A session that has published its URL and has been stopped, and then `live555_rtsp_get_url`. -/
def urlAfterStop : List (Action Unit) :=
  Action.start none :: List.replicate 5 Action.continueCall ++
    List.replicate 8 (Action.rtsp ⟨true, 1, some "rtsp://127.0.0.1:8554/live", 0⟩) ++
    [Action.continueCall, .continueCall, .stop] ++ List.replicate 6 Action.continueCall ++
    List.replicate 9 (Action.rtsp ⟨true, 1, none, 0⟩) ++ List.replicate 3 Action.continueCall ++
    [Action.getURL]

/-- It returns the URL of the session that has ended. -/
theorem url_after_stop_stale : ¬ (machine Unit).Throughout URLCurrent .new urlAfterStop := by
  intro h
  have hend : ((machine Unit).exec .new urlAfterStop).map
      (fun s => (s.control, s.service.running_)) =
      some (.gotURL (some "rtsp://127.0.0.1:8554/live"), false) := rfl
  obtain ⟨s, hs, hstate⟩ := Option.map_eq_some_iff.mp hend
  simp only [Prod.mk.injEq] at hstate
  have hrunning := (h urlAfterStop (List.prefix_refl _) s hs _ hstate.1).1
  rw [hstate.2] at hrunning
  cases hrunning

end RtspPush.CApi
