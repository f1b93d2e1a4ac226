import RtspPush.CApi.Chronicle
import RtspPush.Service.Shutdown

/-!
# Every call of the C API comes to its end

No call of the API waits for anything but the `join` of `live555_rtsp_stop`: the mutex of the
service is held in the mutex sections of the controlling thread only, so that the thread itself
never finds it taken. `left` counts the steps that the controlling thread has left in its call, and
behind the store of 1 in the watch variable also those of the RTSP thread, which the `join` waits
for. Every such step lowers it (`calls_return`).
-/

namespace RtspPush.CApi

open Lib Service

universe u

variable {ε : Type u}

/-! ## The steps that are left -/

/-- The statements of the service's `start` that are left. -/
def startRank : StartPoint → Nat
  | .config => 5
  | .clearWatch => 4
  | .clearStartOk => 3
  | .setRunning => 2
  | .launch => 1

/-- The steps that a call of the service has left, in a `stop` with those of the RTSP thread. -/
def callLeft (s : Service.State Unit) : Nat :=
  match s.callers () with
  | .starting point _ => startRank point
  | .stopping .setWatch _ => StopPoint.setWatch.rank + 17
  | .stopping point _ => point.rank + s.rtsp.rank
  | _ => 0

/-- The steps that a call of the API has left outside the service; a round of the polling loop has
three. -/
def Control.rank : Control → Nat
  | .outside => 0
  | .inStart => 301
  | .readURL _ i => 3 * (99 - i) + 4
  | .checkRunning _ i => 3 * (99 - i) + 3
  | .sleep _ i => 3 * (99 - i) + 2
  | .started _ _ => 1
  | .inStop => 1
  | .clearURL => 1
  | .gotURL _ => 1

/-- The steps that an encoder's call has left. -/
def Encoder.rank : Encoder → Nat
  | .outside => 0
  | .pushing _ _ _ => 2
  | .pushed _ => 1

/-- The program can end once. -/
def aliveRank (s : Service.State Unit) : Nat := if s.crashed.isSome then 0 else 1

/-- The steps that the call of the controlling thread has left, or the end of the program. -/
def State.left (s : State ε) : Nat := s.control.rank + callLeft s.service + aliveRank s.service

/-- The steps that are counted: those of the controlling thread in its calls, and those of the RTSP
thread while a `stop` has stored 1 in the watch variable. -/
def State.work (s : State ε) : Action ε → Nat
  | .continueCall => 1
  | .rtsp _ => if (s.service.callers ()).signalled then 1 else 0
  | _ => 0

/-- What a call of the controlling thread takes at most. -/
def Action.takes : Action ε → Nat
  | .start _ => 306
  | .stop => 27
  | .getURL => 1
  | _ => 0

/-- The encoder calls `live555_rtsp_push_h264_annexb`. -/
def Action.pushes [DecidableEq ε] (e : ε) : Action ε → Bool
  | .push e' _ _ => e' = e
  | _ => false

/-- The encoder goes on in its call. -/
def Action.goesOnPushing [DecidableEq ε] (e : ε) : Action ε → Bool
  | .continuePush e' => e' = e
  | _ => false

/-! ## The calls of the service -/

section Service

variable {s t : Service.State Unit}

theorem callLeft_outside (h : s.callers () = .outside) : callLeft s = 0 := by
  simp only [callLeft, h]

theorem aliveRank_of_none (h : s.crashed = none) : aliveRank s = 1 := by simp [aliveRank, h]

theorem aliveRank_le (s : Service.State Unit) : aliveRank s ≤ 1 := by
  unfold aliveRank
  split <;> omega

/-- Each step of a call lowers what the call has left, or ends the program. -/
theorem callLeft_continueCall (hin : s.callers () ≠ .destroying) (hcrashed : s.crashed = none)
    (h : Service.Transition s (.continueCall ()) t) :
    callLeft t + aliveRank t + 1 ≤ callLeft s + aliveRank s := by
  rw [aliveRank_of_none hcrashed]
  have halive := aliveRank_le t
  cases h with
  | startNext i point args hcall hpoint =>
    cases point with
    | launch => exact absurd rfl hpoint
    | _ =>
      simp [State.startNext, callLeft, hcall, startRank] at halive ⊢
      omega
  | launch i args hcall =>
    simp [callLeft, hcall, startRank] at halive ⊢
    omega
  | launchCrash i args hcall => simp [callLeft, aliveRank, hcall]
  | joinTwice i inDestructor thread hcall => simp [callLeft, aliveRank, hcall]
  | joinCrash i inDestructor hcall => simp [callLeft, aliveRank, hcall]
  | setWatch i inDestructor hcall =>
    have hrank := s.rtsp.rank_le
    simp [callLeft, hcall, StopPoint.rank] at halive ⊢
    omega
  | clearRunning i inDestructor hcall =>
    cases inDestructor with
    | false =>
      simp [callLeft, hcall, State.afterStop, StopPoint.rank] at halive ⊢
      omega
    | true =>
      simp [callLeft, hcall, State.afterStop, StopPoint.rank] at halive ⊢
      omega
  | destroyMembers i hcall => exact absurd hcall hin
  | destroyCrash i hcall => exact absurd hcall hin
  | copyScheduler i _ hcall | copyTrigger i _ _ hcall | trigger i _ _ _ hcall
    | joinable i _ hcall | notJoinable i _ hcall | join i _ _ hcall | joined i _ _ hcall =>
    simp [callLeft, hcall, StopPoint.rank] at halive ⊢
    omega

/-- So does a step of the RTSP thread behind the store of 1, and none raises it. -/
theorem callLeft_rtsp (hs : Held s) (h : RtspStep s t) :
    callLeft t + (if (s.callers ()).signalled then 1 else 0) ≤ callLeft s := by
  have hframe := h.frame
  unfold callLeft
  rw [hframe.callers]
  cases hcall : s.callers () with
  | stopping point inDestructor =>
    cases point with
    | setWatch => simp [Caller.signalled]
    | clearRunning => exact absurd (hs.joined inDestructor hcall) hframe.live
    | _ =>
      have hlt := h.rank_lt (hs.signalled (by rw [hcall]; rfl))
      simp [Caller.signalled, Caller.toJoin]
      omega
  | _ => simp [Caller.signalled, Caller.toJoin]

end Service

/-! ## One step -/

theorem Synced.not_destroying {s : State ε} (hs : Synced s) :
    s.service.callers () ≠ .destroying := by
  intro hcall
  by_cases hstart : s.control = .inStart
  · obtain ⟨point, args, h⟩ := hs.inStart hstart
    rw [h] at hcall
    cases hcall
  · by_cases hstop : s.control = .inStop
    · obtain ⟨point, h⟩ := hs.inStop hstop
      rw [h] at hcall
      cases hcall
    · rw [hs.outside hstart hstop] at hcall
      cases hcall

section Step

variable [DecidableEq ε] {s t : State ε}

/-- The step is paid by what is left, or by the call that it begins. -/
theorem left_transition (hs : Backed s) (hcrashed : s.service.crashed = none) {a : Action ε}
    (h : Transition s a t) : s.work a + t.left ≤ s.left + a.takes := by
  have houtside := hs.synced.outside
  have hnone := hs.synced.not_destroying
  have halive := aliveRank_of_none hcrashed
  have hleft := aliveRank_le t.service
  cases h with
  | startRunning config service hcall h hout | stopNotRunning service hcall h hout =>
    simp only [State.work, State.left, Action.takes, Control.rank, callLeft_outside hout]
      at hleft ⊢
    omega
  | start config service hcall h hin =>
    cases h with
    | startRunning _ _ hservice => exact absurd hservice hin
    | start =>
      simp [State.work, State.left, Action.takes, Control.rank, callLeft, startRank] at hleft ⊢
      omega
  | stop service hcall h hin =>
    cases h with
    | stopNotRunning => simp [State.afterStop] at hin
    | stop =>
      simp [State.work, State.left, Action.takes, Control.rank, callLeft, StopPoint.rank]
        at hleft ⊢
      omega
  | startNext service hcall h | stopNext service hcall h =>
    have hcallLeft := callLeft_continueCall hnone hcrashed h
    simp only [State.work, State.left, Action.takes, hcall]
    omega
  | launched service hcall h | stopped service hcall h =>
    have hcallLeft := callLeft_continueCall hnone hcrashed h
    simp only [State.work, State.left, Action.takes, Control.rank, hcall]
    omega
  | nextRound launched i hcall hi | lastRound launched i hcall hi =>
    simp only [State.work, State.left, Action.takes, Control.rank, hcall]
    omega
  | rtsp reply service h =>
    have hcallLeft := callLeft_rtsp hs.held h
    have hsame : aliveRank service = aliveRank s.service := by
      rw [aliveRank, aliveRank, h.frame.crashed]
    simp only [State.work, State.left, Action.takes]
    omega
  | refused | checked | pushFrame | pushReturn => exact Nat.le_of_eq (by simp [State.work]; rfl)
  | foundURL launched i hcall | noURL launched i hcall | notRunning launched i hcall
    | running launched i hcall | startReturn launched result hcall | clearURL hcall
    | getURL hcall | urlReturn url hcall =>
    simp only [State.work, State.left, Action.takes, Control.rank, hcall]
    omega

/-- An encoder's step is paid by what its call has left, or by the call that it begins. -/
theorem encoder_transition (e : ε) {a : Action ε} (h : Transition s a t) :
    (if a.goesOnPushing e then 1 else 0) + (t.encoders e).rank ≤
      (s.encoders e).rank + if a.pushes e then 2 else 0 := by
  cases h with
  | refused e' data timestampUs result hcall | checked e' data timestampUs hcall =>
    by_cases he : e = e'
    · simp [Action.goesOnPushing, Action.pushes, Encoder.rank, he]
    · simp [Action.goesOnPushing, Action.pushes, he]
  | pushFrame e' session data timestampUs hcall | pushReturn e' result hcall =>
    by_cases he : e = e'
    · subst he
      simp [Action.goesOnPushing, Encoder.rank, hcall]
    · simp [Action.goesOnPushing, he, Ne.symm he]
  | _ => exact Nat.le_of_eq (Nat.zero_add _)

/-! ## Nobody is stuck -/

/-- Every thread can take its next step, except that a `join` waits for the RTSP thread and the RTSP
thread for a mutex section of the controlling thread, and then the other one can. -/
structure Unhindered (s : State ε) : Prop where
  push : ∀ e, s.encoders e = .outside → ∀ data timestampUs,
    (s.step (.push e data timestampUs)).isSome = true
  continuePush : ∀ e, s.encoders e ≠ .outside → (s.step (.continuePush e)).isSome = true
  call : s.control = .outside → (∀ config, (s.step (.start config)).isSome = true) ∧
    (s.step .stop).isSome = true ∧ (s.step .getURL).isSome = true
  continueCall : s.control ≠ .outside → (s.step .continueCall).isSome = true ∨
    (∃ thread, s.service.callers () = .stopping (.joining thread) false) ∧
      ∀ reply, (s.step (.rtsp reply)).isSome = true
  rtsp : s.service.rtsp ≠ .ended → (∀ reply, (s.step (.rtsp reply)).isSome = true) ∨
    (s.step .continueCall).isSome = true

theorem encoder_canPush (hcrashed : s.service.crashed = none) {e : ε}
    (hcall : s.encoders e = .outside) (data : Option (List UInt8)) (timestampUs : UInt64) :
    (s.step (.push e data timestampUs)).isSome = true := by
  simp only [State.step, hcrashed, State.live555_rtsp_push_h264_annexb, hcall]
  cases data with
  | none => rfl
  | some data =>
    cases data with
    | nil => rfl
    | cons byte bytes => cases s.service.running_ <;> rfl

theorem encoder_canContinue (hcrashed : s.service.crashed = none) {e : ε}
    (hcall : s.encoders e ≠ .outside) : (s.step (.continuePush e)).isSome = true := by
  simp only [State.step, hcrashed, State.continuePush]
  cases hencoder : s.encoders e with
  | outside => exact absurd hencoder hcall
  | pushing session data timestampUs => simp [Service.State.step, hcrashed]
  | pushed result => rfl

omit [DecidableEq ε] in
/-- Outside the service nobody holds its mutex. -/
theorem Backed.mutex_free (hs : Backed s) (hcall : s.service.callers () = .outside) :
    s.service.mutex = none :=
  hs.held.mutex (by rw [hcall]; rfl)

omit [DecidableEq ε] in
/-- A call of the service can take its next step, or waits in `join` for the unfinished RTSP
thread. -/
theorem Backed.service_canContinue (hs : Backed s) (hcrashed : s.service.crashed = none)
    (hcontrol : s.control = .inStart ∨ s.control = .inStop) :
    (s.service.step (.continueCall ())).isSome = true ∨
      (∃ thread, s.service.callers () = .stopping (.joining thread) false) ∧
        s.service.rtsp ≠ .ended := by
  simp only [Service.State.step, hcrashed, Service.State.continueCall]
  rcases hcontrol with hstart | hstop
  · obtain ⟨point, args, hcall⟩ := hs.synced.inStart hstart
    exact Or.inl (by rw [hcall]; rfl)
  · obtain ⟨point, hcall⟩ := hs.synced.inStop hstop
    rw [hcall]
    cases point with
    | joining thread =>
      by_cases hended : s.service.rtsp = .ended
      · exact Or.inl (by simp [Service.State.stopNext, hended])
      · exact Or.inr ⟨⟨thread, rfl⟩, hended⟩
    | joinable =>
      exact Or.inl (by cases hthread : s.service.rtspThread_ <;>
        simp [Service.State.stopNext, hthread])
    | join =>
      refine Or.inl ?_
      simp only [Service.State.stopNext]
      cases s.service.rtspThread_ with
      | none => rfl
      | some thread => by_cases hjoiner : s.service.joiner.isSome = true <;> simp [hjoiner]
    | clearRunning =>
      have hfree := hs.held.mutex (by rw [hcall]; rfl)
      exact Or.inl (by simp [Service.State.stopNext, hfree])
    | _ => exact Or.inl rfl

theorem Backed.canCall (hs : Backed s) (hcrashed : s.service.crashed = none)
    (hcontrol : s.control = .outside) : (∀ config, (s.step (.start config)).isSome = true) ∧
      (s.step .stop).isSome = true ∧ (s.step .getURL).isSome = true := by
  have hcall := hs.synced.outside (by simp [hcontrol]) (by simp [hcontrol])
  have hfree := hs.mutex_free hcall
  refine ⟨fun config => ?_, ?_, ?_⟩
  · cases hrunning : s.service.running_ <;>
      simp [State.step, hcrashed, State.live555_rtsp_start, hcontrol, Service.State.step,
        Service.State.start, hcall, hfree, hrunning]
  · cases hrunning : s.service.running_ <;>
      simp [State.step, hcrashed, State.live555_rtsp_stop, hcontrol, Service.State.step,
        Service.State.stop, hcall, hfree, hrunning]
  · simp [State.step, hcrashed, State.live555_rtsp_get_url, hcontrol, hfree]

theorem rtsp_canStep (hcrashed : s.service.crashed = none) (hlive : s.service.rtsp ≠ .ended)
    (hfree : s.service.mutex = none) (reply : Reply) : (s.step (.rtsp reply)).isSome = true := by
  obtain ⟨t, ht⟩ := RtspStep.exists_step hlive hfree reply
  simp [State.step, hcrashed, State.rtspThread, Service.State.step, ht]

theorem Backed.canContinue (hs : Backed s) (hcrashed : s.service.crashed = none)
    (hcontrol : s.control ≠ .outside) : (s.step .continueCall).isSome = true ∨
      (∃ thread, s.service.callers () = .stopping (.joining thread) false) ∧
        ∀ reply, (s.step (.rtsp reply)).isSome = true := by
  have hcall : s.control ≠ .inStart → s.control ≠ .inStop → s.service.mutex = none :=
    fun hstart hstop => hs.mutex_free (hs.synced.outside hstart hstop)
  have hservice := hs.service_canContinue hcrashed
  have hwait : (∃ thread, s.service.callers () = .stopping (.joining thread) false) ∧
      s.service.rtsp ≠ .ended →
        (∃ thread, s.service.callers () = .stopping (.joining thread) false) ∧
          ∀ reply, (s.step (.rtsp reply)).isSome = true := by
    rintro ⟨⟨thread, hjoining⟩, hlive⟩
    have hfree := hs.held.mutex (by rw [hjoining]; rfl)
    exact ⟨⟨thread, hjoining⟩, rtsp_canStep hcrashed hlive hfree⟩
  have hstep : s.step .continueCall = s.continueCall := by simp [State.step, hcrashed]
  rw [hstep]
  cases hpoint : s.control with
  | outside => exact absurd hpoint hcontrol
  | inStart | inStop =>
    refine (hservice (by simp [hpoint])).imp (fun h => ?_) hwait
    simpa [State.continueCall, hpoint] using h
  | readURL launched i =>
    have hfree := hcall (by simp [hpoint]) (by simp [hpoint])
    exact Or.inl (by simp [State.continueCall, hpoint, hfree])
  | _ => exact Or.inl (by simp [State.continueCall, hpoint])

/-- The RTSP thread waits only for a mutex section of the controlling thread, which goes on. -/
theorem Backed.rtsp_or_control (hs : Backed s) (hcrashed : s.service.crashed = none)
    (hlive : s.service.rtsp ≠ .ended) : (∀ reply, (s.step (.rtsp reply)).isSome = true) ∨
      (s.step .continueCall).isSome = true := by
  by_cases hfree : s.service.mutex = none
  · exact Or.inl (rtsp_canStep hcrashed hlive hfree)
  · have hheld : (s.service.callers ()).holdsMutex = true := by
      by_contra hnot
      exact hfree (hs.held.mutex (by simpa using hnot))
    have hcontrol : s.control ≠ .outside := by
      intro hout
      have hcall := hs.synced.outside (by simp [hout]) (by simp [hout])
      rw [hcall] at hheld
      cases hheld
    refine Or.inr ((hs.canContinue hcrashed hcontrol).resolve_right ?_)
    rintro ⟨⟨thread, hjoining⟩, -⟩
    rw [hjoining] at hheld
    cases hheld

theorem Backed.unhindered (hs : Backed s) (hcrashed : s.service.crashed = none) :
    Unhindered s where
  push _ := encoder_canPush hcrashed
  continuePush _ := encoder_canContinue hcrashed
  call := hs.canCall hcrashed
  continueCall := hs.canContinue hcrashed
  rtsp := hs.rtsp_or_control hcrashed

/-! ## Every run -/

theorem left_exec {as : List (Action ε)} (hs : Backed s) (h : (machine ε).exec s as = some t) :
    (machine ε).spent State.work s as + t.left ≤ s.left + (as.map Action.takes).sum := by
  have hstep : ∀ s a t, Backed s → True → (machine ε).step s a = some t →
      Backed t ∧ s.work a + t.left ≤ s.left + a.takes := by
    intro s a t hs _ ht
    obtain ⟨hcrashed, htrans⟩ := Transition.of_step ht
    exact ⟨hs.transition htrans, left_transition hs hcrashed htrans⟩
  have hpaid := (Machine.potential (P := fun _ _ => True) hstep hs (Machine.along_true s as) h).2
  rwa [Machine.spent_sum h] at hpaid

theorem encoder_exec {as : List (Action ε)} (e : ε) (h : (machine ε).exec s as = some t) :
    as.countP (Action.goesOnPushing e) + (t.encoders e).rank ≤
      (s.encoders e).rank + 2 * as.countP (Action.pushes e) := by
  have hstep : ∀ s a t, True → True → (machine ε).step s a = some t →
      True ∧ (if a.goesOnPushing e then 1 else 0) + (t.encoders e).rank ≤
        (s.encoders e).rank + if a.pushes e then 2 else 0 :=
    fun s a t _ _ ht => ⟨trivial, encoder_transition e (Transition.of_step ht).2⟩
  have hpaid := (Machine.potential (P := fun _ _ => True) (I := fun _ => True) hstep trivial
    (Machine.along_true s as) h).2
  rwa [Machine.spent_countP h, Machine.spent_countP h, Nat.one_mul] at hpaid

end Step

/-- **Every call of the C API comes to its end.** In every run, of any number of encoder threads and
in any order of all steps, the controlling thread takes at most 306 steps in a
`live555_rtsp_start`, 27 in a `live555_rtsp_stop`, those of the RTSP thread that its `join` waits
for included, and one in a `live555_rtsp_get_url`; an encoder takes at most two in a
`live555_rtsp_push_h264_annexb`. And unless the program has been terminated, at every moment every
thread can take its next step, or waits for one that can: a `join` for the RTSP thread, the RTSP
thread for a mutex section. -/
theorem calls_return [DecidableEq ε] {s t : State ε} {as : List (Action ε)}
    (hs : (machine ε).Reachable s) (h : (machine ε).exec s as = some t) :
    (machine ε).spent State.work s as + t.left ≤ s.left + (as.map Action.takes).sum ∧
      (∀ e, as.countP (Action.goesOnPushing e) + (t.encoders e).rank ≤
        (s.encoders e).rank + 2 * as.countP (Action.pushes e)) ∧
      (t.service.crashed.isSome = true ∨ Unhindered t) := by
  obtain ⟨before, hbefore⟩ := hs
  have hbacked := Backed.exec hbefore
  refine ⟨left_exec hbacked h, fun e => encoder_exec e h, ?_⟩
  cases hcrashed : t.service.crashed with
  | some crash => exact Or.inl rfl
  | none =>
    have hend : (machine ε).exec .new (before ++ as) = some t :=
      Machine.exec_append_iff.mpr ⟨s, hbefore, h⟩
    exact Or.inr ((Backed.exec hend).unhindered hcrashed)

/-- A session that has published its URL; its `live555_rtsp_start` has returned. -/
def servedSession : List (Action Unit) :=
  Action.start none :: List.replicate 5 Action.continueCall ++
    List.replicate 6 (Action.rtsp ⟨true, 1, some "rtsp://127.0.0.1:8554/live", 0⟩) ++
    List.replicate 2 Action.continueCall

/-- It is stopped while an encoder pushes, and the `join` waits. -/
def stoppedMeanwhile : List (Action Unit) :=
  Action.push () (some [0, 0, 1, 101]) 0 :: Action.stop :: List.replicate 6 Action.continueCall ++
    [.continuePush (), .rtsp ⟨true, 0, none, 0⟩]

theorem stopped_calls_return : ∃ s t : State Unit, (machine Unit).exec .new servedSession = some s ∧
    (machine Unit).exec s stoppedMeanwhile = some t ∧
      (machine Unit).spent State.work s stoppedMeanwhile + t.left ≤
        s.left + (stoppedMeanwhile.map Action.takes).sum ∧
      (∀ e, stoppedMeanwhile.countP (Action.goesOnPushing e) + (t.encoders e).rank ≤
        (s.encoders e).rank + 2 * stoppedMeanwhile.countP (Action.pushes e)) ∧
      (t.service.crashed.isSome = true ∨ Unhindered t) :=
  ⟨_, _, rfl, rfl, calls_return ⟨servedSession, rfl⟩ rfl⟩

end RtspPush.CApi
