import RtspPush.Service.Session

/-!
# When `stop` signals a deleted scheduler

`stop` copies `scheduler_` and `stopTrigger_` inside the mutex and calls `triggerEvent` behind it,
while `cleanupLive555` deletes the scheduler without the mutex. `Tracks` says where a scheduler
and a trigger can be found: a trigger is set only while its scheduler is the current one and not
yet deleted, so what `stop` copies is good. `signals_live_iff` says that the one way to go wrong
is the `delete` between the copy and the call.
-/

namespace RtspPush.Service

open Lib

/-! ## Where the scheduler is -/

/-- The stages of a session's scheduler. -/
inductive Stage
  /-- To be created. -/
  | absent
  | created
  /-- Behind the creation of the stop trigger, or at the start of a failed session's clean-up. -/
  | triggered
  /-- Behind the deletion of the stop trigger. -/
  | untriggered
  /-- Behind `delete scheduler_`, before the assignment that follows. -/
  | deleted
  | forgotten
  deriving DecidableEq

def RtspPoint.stage : RtspPoint → Stage
  | .createScheduler => .absent
  | .createEnv => .created
  | .createStopTrigger => .created
  | .createAuthDB => .triggered
  | .createServer => .triggered
  | .publishURL => .triggered
  | .setStartOk => .triggered
  | .loopCheck => .triggered
  | .loopBody => .triggered
  | .cleanup .deleteStopTrigger _ => .triggered
  | .cleanup .closeServer _ => .untriggered
  | .cleanup .deleteAuthDB _ => .untriggered
  | .cleanup .reclaimEnv _ => .untriggered
  | .cleanup .deleteScheduler _ => .untriggered
  | .cleanup .forgetScheduler _ => .deleted
  | .cleanup .clearQueue _ => .forgotten
  | .clearRunning => .forgotten
  | .ended => .forgotten

/-- What ties the scheduler, the trigger and the copies in `stop` to the stage of the session. -/
structure Tracks (s : State Unit) : Prop where
  fresh : ∀ id, s.scheduler_ = some id ∨ id ∈ s.deleted → id < s.nextScheduler
  live : ∀ id, s.scheduler_ = some id → id ∈ s.deleted → s.rtsp.stage = .deleted
  created : s.rtsp.stage = .created → s.scheduler_.isSome = true
  absent : s.rtsp.stage = .absent ∨ s.rtsp.stage = .forgotten → s.scheduler_ = none
  trigger : s.stopTrigger_ ≠ 0 → s.rtsp.stage = .triggered ∧ s.scheduler_.isSome = true
  copied : ∀ id d, s.callers () = .stopping (.copyTrigger (some id)) d →
    s.scheduler_ = some id ∨ s.rtsp.stage = .forgotten

/-- A `triggerEvent` that `stop` is about to call is on a scheduler that is not deleted. -/
def SignalsLive (s : State Unit) : Prop :=
  ∀ id stopTrigger d, s.callers () = .stopping (.trigger (some id) stopTrigger) d →
    stopTrigger ≠ 0 → id ∉ s.deleted

/-- The scheduler is not deleted while a `stop` stands between its copy and its `triggerEvent`. -/
def DeletesUnwatched (s : State Unit) : Action Unit → Prop
  | .rtsp _ => s.crashed = none → ∀ failed id stopTrigger d,
      s.rtsp = .cleanup .deleteScheduler failed → s.scheduler_ = some id →
        s.callers () = .stopping (.trigger (some id) stopTrigger) d → stopTrigger = 0
  | _ => True

namespace Tracks

variable {s t : State Unit}

theorem new : Tracks .new where
  fresh id h := by simp [State.new] at h
  live id h := by cases h
  created h := by cases h
  absent _ := rfl
  trigger h := absurd rfl h
  copied id d h := by cases h

theorem stopTrigger_eq_zero (hk : Tracks s) (h : s.rtsp.stage ≠ .triggered) :
    s.stopTrigger_ = 0 := by
  by_contra htrigger
  exact h (hk.trigger htrigger).1

/-- A copy of the scheduler is the current one until that is forgotten. -/
theorem scheduler_of_copied (hk : Tracks s) {id : SchedulerId} {d : Bool}
    (hcall : s.callers () = .stopping (.copyTrigger (some id)) d)
    (h : s.rtsp.stage ≠ .forgotten) : s.scheduler_ = some id :=
  (hk.copied id d hcall).resolve_right h

/-- Nobody holds a copy of a scheduler that is still to be created. -/
theorem not_copied (hk : Tracks s) (h : s.rtsp.stage = .absent) (id : SchedulerId) (d : Bool) :
    s.callers () ≠ .stopping (.copyTrigger (some id)) d := by
  intro hcall
  have hsome := hk.scheduler_of_copied hcall (by rw [h]; nofun)
  rw [hk.absent (Or.inl h)] at hsome
  cases hsome

/-- The RTSP thread moves on within a stage. -/
theorem moveTo (hk : Tracks s) {p q : RtspPoint} (h : s.rtsp = p) (hstage : q.stage = p.stage) :
    Tracks { s with rtsp := q } := by
  subst h
  exact
    { fresh := hk.fresh
      live := hstage ▸ hk.live
      created := hstage ▸ hk.created
      absent := hstage ▸ hk.absent
      trigger := hstage ▸ hk.trigger
      copied := hstage ▸ hk.copied }

/-- The RTSP thread moves on to another stage with the scheduler kept. -/
theorem enter (hk : Tracks s) {q : RtspPoint} {stopTrigger : EventTriggerId}
    {ledger : List (LedgerEvent Resource)}
    (hbefore : s.rtsp.stage ≠ .deleted ∧ s.rtsp.stage ≠ .forgotten)
    (hbehind : q.stage = .triggered ∨ q.stage = .untriggered)
    (htrigger : stopTrigger ≠ 0 → q.stage = .triggered ∧ s.scheduler_.isSome = true) :
    Tracks { s with stopTrigger_ := stopTrigger, ledger := ledger, rtsp := q } where
  fresh := hk.fresh
  live id hid hdeleted := absurd (hk.live id hid hdeleted) hbefore.1
  created h := by
    rcases hbehind with hq | hq <;> rw [hq] at h <;> cases h
  absent h := by
    rcases hbehind with hq | hq <;> rw [hq] at h <;> simp at h
  trigger := htrigger
  copied id d hcall := Or.inl (hk.scheduler_of_copied hcall hbefore.2)

theorem createScheduler (hk : Tracks s) (h : s.rtsp = .createScheduler) :
    Tracks { s with
      scheduler_ := some s.nextScheduler
      nextScheduler := s.nextScheduler + 1
      ledger := s.note (.created .scheduler) true
      rtsp := .createEnv } where
  fresh id hid := by
    rcases hid with hid | hid
    · cases hid
      exact Nat.lt_succ_self _
    · exact Nat.lt_succ_of_lt (hk.fresh id (Or.inr hid))
  live id hid hdeleted := by
    cases hid
    exact absurd (hk.fresh _ (Or.inr hdeleted)) (Nat.lt_irrefl _)
  created _ := rfl
  absent h' := by simp [RtspPoint.stage] at h'
  trigger h' := absurd (hk.stopTrigger_eq_zero (by rw [h]; nofun)) h'
  copied id d hcall := absurd hcall (hk.not_copied (by rw [h]; rfl) id d)

theorem noScheduler (hk : Tracks s) (h : s.rtsp = .createScheduler) :
    Tracks { s with scheduler_ := none, rtsp := .cleanup .deleteStopTrigger true } where
  fresh id hid := hk.fresh id (Or.inr (hid.resolve_left nofun))
  live id hid := nomatch hid
  created h' := by cases h'
  absent _ := rfl
  trigger h' := absurd (hk.stopTrigger_eq_zero (by rw [h]; nofun)) h'
  copied id d hcall := absurd hcall (hk.not_copied (by rw [h]; rfl) id d)

/-- `cleanupLive555` deletes the trigger first, then the scheduler, then forgets it. -/
theorem cleanup (hk : Tracks s) {point : CleanupPoint} {failed : Bool}
    (h : s.rtsp = .cleanup point failed) : Tracks (s.cleanupLive555 failed point) := by
  cases point with
  | deleteStopTrigger =>
    refine hk.enter (by rw [h]; exact ⟨nofun, nofun⟩) (Or.inr rfl) fun htrigger => ?_
    split at htrigger
    · exact absurd rfl htrigger
    · next hnot => exact absurd ⟨(hk.trigger htrigger).2, htrigger⟩ hnot
  | closeServer => exact { hk.moveTo (q := .cleanup .deleteAuthDB failed) h rfl with }
  | deleteAuthDB => exact { hk.moveTo (q := .cleanup .reclaimEnv failed) h rfl with }
  | reclaimEnv => exact { hk.moveTo (q := .cleanup .deleteScheduler failed) h rfl with }
  | deleteScheduler =>
    exact
      { fresh := fun id hid => hk.fresh id
          (hid.elim Or.inl fun hid => (List.mem_append.mp hid).imp_left Option.mem_toList.mp)
        live := fun _ _ _ => rfl
        created := nofun
        absent := nofun
        trigger := absurd (hk.stopTrigger_eq_zero (by rw [h]; nofun))
        copied := fun id d hcall => Or.inl (hk.scheduler_of_copied hcall (by rw [h]; nofun)) }
  | forgetScheduler =>
    exact
      { fresh := fun id hid => hk.fresh id (Or.inr (hid.resolve_left nofun))
        live := nofun
        created := nofun
        absent := fun _ => rfl
        trigger := absurd (hk.stopTrigger_eq_zero (by rw [h]; nofun))
        copied := fun _ _ _ => Or.inr rfl }
  | clearQueue =>
    cases failed with
    | true => exact { hk.moveTo (q := .clearRunning) h rfl with }
    | false => exact { hk.moveTo (q := .ended) h rfl with }

theorem rtsp (hk : Tracks s) (h : RtspStep s t) : Tracks t := by
  cases h with
  | createScheduler h => exact hk.createScheduler h
  | noScheduler h => exact hk.noScheduler h
  | createEnv h => exact { hk.moveTo (q := .createStopTrigger) h rfl with }
  | noEnv h =>
    have hzero := hk.stopTrigger_eq_zero (by rw [h]; nofun)
    have hcleanup : Tracks { s with rtsp := .cleanup .deleteStopTrigger true } :=
      hk.enter (by rw [h]; exact ⟨nofun, nofun⟩) (Or.inl rfl) (absurd hzero)
    exact { hcleanup with }
  | createStopTrigger stopTrigger h =>
    exact hk.enter (by rw [h]; exact ⟨nofun, nofun⟩) (Or.inl rfl)
      fun _ => ⟨rfl, hk.created (by rw [h]; rfl)⟩
  | createAuthDB authDB h => exact { hk.moveTo (q := .createServer) h rfl with }
  | createServer h => exact { hk.moveTo (q := .publishURL) h rfl with }
  | noServer h => exact { hk.moveTo (q := .cleanup .deleteStopTrigger true) h rfl with }
  | publishURL url h => exact { hk.moveTo (q := .setStartOk) h rfl with }
  | setStartOk h => exact { hk.moveTo (q := .loopCheck) h rfl with }
  | enterLoop h => exact hk.moveTo h rfl
  | leaveLoop h => exact hk.moveTo h rfl
  | loopBody pops h => exact { hk.moveTo (q := .loopCheck) h rfl with }
  | cleanup point failed h => exact hk.cleanup h
  | clearRunning h => exact { hk.moveTo (q := .ended) h rfl with }

theorem transition (hs : Held s) (hk : Tracks s) {a : Action Unit} (h : Transition s a t) :
    Tracks t := by
  cases h with
  | startNext i point args hcall hpoint =>
    cases point with
    | launch => exact absurd rfl hpoint
    | _ => exact { hk with copied := by simp [State.startNext] }
  | launch i args hcall hthread =>
    have hforgotten : s.rtsp.stage = .forgotten := by rw [hs.starting _ args hcall]; rfl
    have hnone := hk.absent (Or.inr hforgotten)
    exact { hk with
      live := fun id hid => absurd (hnone.symm.trans hid) (Option.some_ne_none id).symm
      created := by intro h; cases h
      absent := fun _ => hnone
      trigger := absurd (hk.stopTrigger_eq_zero (by rw [hforgotten]; intro h; cases h))
      copied := by simp }
  | stopNotRunning i inDestructor =>
    exact { hk with copied := by cases inDestructor <;> simp [State.afterStop] }
  | clearRunning i inDestructor =>
    exact { hk with copied := by cases inDestructor <;> simp [State.afterStop] }
  | copyScheduler i inDestructor hcall =>
    refine { hk with copied := fun id d hcopied => Or.inl ?_ }
    simp at hcopied
    exact hcopied.1
  | rtsp reply t h => exact hk.rtsp h
  | startRunning | launchCrash | joinTwice | joinCrash | destroyCrash | push => exact { hk with }
  | _ => exact { hk with copied := by simp }

end Tracks

/-! ## The signal -/

namespace SignalsLive

variable {s t : State Unit}

/-- Only `delete scheduler_` deletes a scheduler. -/
theorem deleted_of_rtspStep (h : RtspStep s t) {id : SchedulerId} (hid : id ∈ t.deleted) :
    id ∈ s.deleted ∨ (∃ failed, s.rtsp = .cleanup .deleteScheduler failed) ∧
      s.scheduler_ = some id := by
  cases h with
  | cleanup point failed h =>
    cases point with
    | deleteScheduler =>
      rcases List.mem_append.mp hid with hid | hid
      · exact Or.inr ⟨⟨failed, h⟩, Option.mem_toList.mp hid⟩
      · exact Or.inl hid
    | _ => exact Or.inl hid
  | _ => exact Or.inl hid

/-- What `stop` copies under a set trigger is the current scheduler, not yet deleted. -/
theorem copyTrigger (hk : Tracks s) {id : SchedulerId} {d : Bool}
    (hcall : s.callers () = .stopping (.copyTrigger (some id)) d) (htrigger : s.stopTrigger_ ≠ 0) :
    id ∉ s.deleted := by
  intro hdeleted
  obtain ⟨hstage, -⟩ := hk.trigger htrigger
  have hscheduler := hk.scheduler_of_copied hcall (by rw [hstage]; nofun)
  rw [hk.live id hscheduler hdeleted] at hstage
  cases hstage

theorem transition (hk : Tracks s) (hl : SignalsLive s) (hcrashed : s.crashed = none)
    {a : Action Unit} (hP : DeletesUnwatched s a) (h : Transition s a t) : SignalsLive t := by
  cases h with
  | startNext i point args hcall hpoint =>
    cases point with
    | launch => exact absurd rfl hpoint
    | _ => exact fun id stopTrigger d hcall' => by simp [State.startNext] at hcall'
  | stopNotRunning i inDestructor | clearRunning i inDestructor =>
    intro id stopTrigger d hcall'
    cases inDestructor <;> simp [State.afterStop] at hcall'
  | copyTrigger i inDestructor scheduler hcall =>
    intro id stopTrigger d hcall' htrigger
    simp only [State.setCaller, if_true, Caller.stopping.injEq, StopPoint.trigger.injEq] at hcall'
    obtain ⟨⟨rfl, rfl⟩, rfl⟩ := hcall'
    exact copyTrigger hk hcall htrigger
  | rtsp reply t h =>
    intro id stopTrigger d hcall htrigger hdeleted
    rw [h.frame.callers] at hcall
    rcases deleted_of_rtspStep h hdeleted with hold | ⟨⟨failed, hpoint⟩, hscheduler⟩
    · exact hl id stopTrigger d hcall htrigger hold
    · exact htrigger (hP hcrashed failed id stopTrigger d hpoint hscheduler hcall)
  | startRunning | launchCrash | joinTwice | joinCrash | destroyCrash | push => exact hl
  | _ => exact fun id stopTrigger d hcall' => by simp at hcall'

/-- The `delete` of the scheduler that `stop` is about to signal. -/
theorem of_not_deletesUnwatched {a : Action Unit} (hP : ¬ DeletesUnwatched s a) :
    ∃ t, s.step a = some t ∧ ¬ SignalsLive t := by
  cases a with
  | rtsp reply =>
    simp only [DeletesUnwatched, not_forall] at hP
    obtain ⟨hcrashed, failed, id, stopTrigger, d, hpoint, hscheduler, hcall, htrigger⟩ := hP
    refine ⟨s.cleanupLive555 failed .deleteScheduler, ?_, fun hlive => ?_⟩
    · simp [State.step, hcrashed, State.rtspThreadMain, hpoint]
    · refine hlive id stopTrigger d hcall htrigger ?_
      simp [State.cleanupLive555, hscheduler]
  | _ => exact absurd trivial hP

end SignalsLive

/-- **`stop` signals only live schedulers exactly when none is deleted between its copy and its
call.** In every run, whatever the RTSP thread and live555 do. -/
theorem signals_live_iff (as : List (Action Unit)) :
    (machine Unit).Throughout SignalsLive .new as ↔
      (machine Unit).Along DeletesUnwatched .new as := by
  have hstep : ∀ s a t, Held s ∧ Tracks s ∧ SignalsLive s → DeletesUnwatched s a →
      (machine Unit).step s a = some t → Held t ∧ Tracks t ∧ SignalsLive t :=
    Held.step_and fun _ _ _ hs hi hP hcrashed h =>
      ⟨hi.1.transition hs h, hi.2.transition hi.1 hcrashed hP h⟩
  constructor
  · exact Machine.along_of_throughout fun s a _ hP => SignalsLive.of_not_deletesUnwatched hP
  · intro hP bs hbs t ht
    have hnew : SignalsLive .new := fun _ _ _ h => nomatch h
    exact (Machine.throughout_of_along hstep ⟨Held.new, Tracks.new, hnew⟩ hP bs hbs t ht).2.2

/-- A `stop` that is delayed behind its mutex section until the RTSP thread has seen the watch
variable and cleaned up. -/
def delayedStop : List (Action Unit) :=
  Action.start () ⟨8554, "live", "", ""⟩ :: List.replicate 5 (Action.continueCall ()) ++
    List.replicate 8 (Action.rtsp ⟨true, 1, none, 0⟩) ++
    Action.stop () false :: List.replicate 3 (Action.continueCall ()) ++
    List.replicate 7 (Action.rtsp ⟨true, 1, none, 0⟩)

/-- It then signals scheduler 0, which is deleted, and does so before it joins. -/
theorem delayed_stop_signals_deleted :
    ((machine Unit).exec .new delayedStop).map (fun s => (s.callers (), s.deleted)) =
        some (.stopping (.trigger (some 0) 1) false, [0]) ∧
      ((machine Unit).exec .new (delayedStop ++ [.continueCall ()])).map (·.callers ()) =
        some (.stopping .joinable false) :=
  ⟨rfl, rfl⟩

end RtspPush.Service
