import RtspPush.Lib.Ledger
import RtspPush.Service.Callers

/-!
# What a session creates and gives back

The RTSP thread creates a scheduler, an environment, a stop trigger, perhaps an authentication
database, and a server, and `cleanupLive555` gives them back in the other direction, wherever the
set-up has stopped. `Resources` says at which points of the thread each of them may and must exist,
and `Accounted` that the members hold what the ledger of the calls says is outstanding.
`resources_released` reads off that each of them is given back once, behind all that uses it, and
that a thread which has ended leaves nothing behind, for any number of callers.
-/

namespace RtspPush.Service

open Lib

variable {ι : Type}

/-! ## Where the members may be set -/

namespace RtspPoint

/-- `scheduler_` may be set. -/
def mayScheduler : RtspPoint → Bool
  | .createScheduler | .cleanup .clearQueue _ | .clearRunning | .ended => false
  | _ => true

def mayEnv : RtspPoint → Bool
  | .createEnv | .cleanup .deleteScheduler _ | .cleanup .forgetScheduler _ => false
  | point => point.mayScheduler

def mayAuthDB : RtspPoint → Bool
  | .createStopTrigger | .createAuthDB | .cleanup .reclaimEnv _ => false
  | point => point.mayEnv

def mayServer : RtspPoint → Bool
  | .createServer | .cleanup .deleteAuthDB _ => false
  | point => point.mayAuthDB

def mayStopTrigger : RtspPoint → Bool
  | .createServer => true
  | .createAuthDB => true
  | .cleanup .closeServer _ => false
  | point => point.mayServer

/-- The set-up has completed and `cleanupLive555` has not begun. -/
def serves : RtspPoint → Bool
  | .publishURL | .setStartOk | .loopCheck | .loopBody => true
  | _ => false

/-- The set-up has got past the creation of the environment. -/
def hasEnv : RtspPoint → Bool
  | .createStopTrigger | .createAuthDB | .createServer => true
  | point => point.serves

def hasScheduler : RtspPoint → Bool
  | .createEnv => true
  | point => point.hasEnv

attribute [simp] mayScheduler mayEnv mayAuthDB mayServer mayStopTrigger serves hasEnv hasScheduler

end RtspPoint

/-- What the RTSP thread has created and not given back. -/
structure Resources (s : State ι) : Prop where
  scheduler : s.scheduler_.isSome = true → s.rtsp.mayScheduler = true
  env : s.env_ = true → s.rtsp.mayEnv = true ∧ s.scheduler_.isSome = true
  authDB : s.authDB_ = true → s.rtsp.mayAuthDB = true ∧ s.env_ = true
  server : s.server_ = true → s.rtsp.mayServer = true ∧ s.env_ = true
  stopTrigger : s.stopTrigger_ ≠ 0 → s.rtsp.mayStopTrigger = true ∧ s.scheduler_.isSome = true
  hasScheduler : s.rtsp.hasScheduler = true → s.scheduler_.isSome = true
  hasEnv : s.rtsp.hasEnv = true → s.env_ = true
  serves : s.rtsp.serves = true → s.server_ = true

namespace Resources

variable {s t : State ι}

theorem new : Resources (.new : State ι) where
  scheduler h := by cases h
  env h := by cases h
  authDB h := by cases h
  server h := by cases h
  stopTrigger h := absurd rfl h
  hasScheduler h := by cases h
  hasEnv h := by cases h
  serves h := by cases h

/-- A step that leaves all this alone. -/
theorem congr (hs : Resources s) (hrtsp : t.rtsp = s.rtsp)
    (hscheduler : t.scheduler_ = s.scheduler_) (henv : t.env_ = s.env_)
    (hauth : t.authDB_ = s.authDB_) (hserver : t.server_ = s.server_)
    (htrigger : t.stopTrigger_ = s.stopTrigger_) : Resources t := by
  constructor <;> simp only [hrtsp, hscheduler, henv, hauth, hserver, htrigger]
  exacts [hs.scheduler, hs.env, hs.authDB, hs.server, hs.stopTrigger, hs.hasScheduler, hs.hasEnv,
    hs.serves]

/-! What may not be set is not. -/

theorem scheduler_eq (hs : Resources s) (h : s.rtsp.mayScheduler = false) :
    s.scheduler_ = none := by
  by_contra hset
  exact Bool.false_ne_true (h.symm.trans (hs.scheduler (Option.isSome_iff_ne_none.mpr hset)))

theorem env_eq (hs : Resources s) (h : s.rtsp.mayEnv = false) : s.env_ = false := by
  by_contra hset
  exact Bool.false_ne_true (h.symm.trans (hs.env (by simpa using hset)).1)

theorem authDB_eq (hs : Resources s) (h : s.rtsp.mayAuthDB = false) : s.authDB_ = false := by
  by_contra hset
  exact Bool.false_ne_true (h.symm.trans (hs.authDB (by simpa using hset)).1)

theorem server_eq (hs : Resources s) (h : s.rtsp.mayServer = false) : s.server_ = false := by
  by_contra hset
  exact Bool.false_ne_true (h.symm.trans (hs.server (by simpa using hset)).1)

theorem stopTrigger_eq (hs : Resources s) (h : s.rtsp.mayStopTrigger = false) :
    s.stopTrigger_ = 0 := by
  by_contra hset
  exact Bool.false_ne_true (h.symm.trans (hs.stopTrigger hset).1)

/-- Without a scheduler there is nothing. -/
theorem nothing (hs : Resources s) (h : s.scheduler_ = none) :
    s.env_ = false ∧ s.authDB_ = false ∧ s.server_ = false ∧ s.stopTrigger_ = 0 := by
  have henv : s.env_ = false := by
    by_contra hset
    have hsome := (hs.env (by simpa using hset)).2
    rw [h] at hsome
    cases hsome
  refine ⟨henv, ?_, ?_, ?_⟩
  · by_contra hset
    rw [(hs.authDB (by simpa using hset)).2] at henv
    cases henv
  · by_contra hset
    rw [(hs.server (by simpa using hset)).2] at henv
    cases henv
  · by_contra hset
    have hsome := (hs.stopTrigger hset).2
    rw [h] at hsome
    cases hsome

/-- A stop trigger exists only on a scheduler, so the first statement of the clean-up deletes it. -/
theorem deleteStopTrigger (hs : Resources s) :
    (if s.scheduler_.isSome ∧ s.stopTrigger_ ≠ 0 then 0 else s.stopTrigger_) = 0 := by
  split
  · rfl
  · next hnot =>
    by_contra hset
    exact hnot ⟨(hs.stopTrigger hset).2, hset⟩

/-- Each statement gives back what the next one no longer allows. -/
theorem cleanup (hs : Resources s) {point : CleanupPoint} {failed : Bool}
    (h : s.rtsp = .cleanup point failed) : Resources (s.cleanupLive555 failed point) := by
  cases point with
  | deleteStopTrigger =>
    rw [State.cleanupLive555, hs.deleteStopTrigger]
    constructor <;> simp
    exacts [fun henv => (hs.env henv).2, fun hauth => (hs.authDB hauth).2,
      fun hserver => (hs.server hserver).2]
  | closeServer =>
    have htrigger := hs.stopTrigger_eq (by rw [h]; rfl)
    constructor <;> simp [State.cleanupLive555, htrigger]
    exacts [fun henv => (hs.env henv).2, fun hauth => (hs.authDB hauth).2]
  | deleteAuthDB =>
    have htrigger := hs.stopTrigger_eq (by rw [h]; rfl)
    have hserver := hs.server_eq (by rw [h]; rfl)
    constructor <;> simp [State.cleanupLive555, htrigger, hserver]
    exact fun henv => (hs.env henv).2
  | reclaimEnv =>
    have htrigger := hs.stopTrigger_eq (by rw [h]; rfl)
    have hserver := hs.server_eq (by rw [h]; rfl)
    have hauth := hs.authDB_eq (by rw [h]; rfl)
    constructor <;> simp [State.cleanupLive555, htrigger, hserver, hauth]
  | clearQueue =>
    have hscheduler := hs.scheduler_eq (by rw [h]; rfl)
    obtain ⟨henv, hauth, hserver, htrigger⟩ := hs.nothing hscheduler
    cases failed <;> constructor <;>
      simp [State.cleanupLive555, hscheduler, henv, hauth, hserver, htrigger]
  | _ =>
    have htrigger := hs.stopTrigger_eq (by rw [h]; rfl)
    have hserver := hs.server_eq (by rw [h]; rfl)
    have hauth := hs.authDB_eq (by rw [h]; rfl)
    have henv := hs.env_eq (by rw [h]; rfl)
    constructor <;> simp [State.cleanupLive555, htrigger, hserver, hauth, henv]

/-- A step of a session that is up. -/
theorem serving (hs : Resources s) (h : s.rtsp.serves = true) (ht : t.rtsp.serves = true)
    (hscheduler : t.scheduler_ = s.scheduler_) (henv : t.env_ = s.env_)
    (hauth : t.authDB_ = s.authDB_) (hserver : t.server_ = s.server_)
    (htrigger : t.stopTrigger_ = s.stopTrigger_) : Resources t := by
  have hserver' := hs.serves h
  have henv' := (hs.server hserver').2
  have hscheduler' := (hs.env henv').2
  cases hrtsp : t.rtsp with
  | publishURL | setStartOk | loopCheck | loopBody =>
    constructor <;>
      simp [hrtsp, hscheduler, henv, hauth, hserver, htrigger, hscheduler', henv', hserver']
  | _ =>
    rw [hrtsp] at ht
    cases ht

theorem rtsp (hs : Resources s) (h : RtspStep s t) : Resources t := by
  cases h with
  | createScheduler h =>
    have hscheduler := hs.scheduler_eq (by rw [h]; rfl)
    obtain ⟨henv, hauth, hserver, htrigger⟩ := hs.nothing hscheduler
    constructor <;> simp [henv, hauth, hserver, htrigger]
  | noScheduler h =>
    have hscheduler := hs.scheduler_eq (by rw [h]; rfl)
    obtain ⟨henv, hauth, hserver, htrigger⟩ := hs.nothing hscheduler
    constructor <;> simp [henv, hauth, hserver, htrigger]
  | createEnv h =>
    have htrigger := hs.stopTrigger_eq (by rw [h]; rfl)
    have hserver := hs.server_eq (by rw [h]; rfl)
    have hauth := hs.authDB_eq (by rw [h]; rfl)
    have hscheduler := hs.hasScheduler (by rw [h]; rfl)
    constructor <;> simp [htrigger, hserver, hauth, hscheduler]
  | noEnv h =>
    have htrigger := hs.stopTrigger_eq (by rw [h]; rfl)
    have hserver := hs.server_eq (by rw [h]; rfl)
    have hauth := hs.authDB_eq (by rw [h]; rfl)
    constructor <;> simp [htrigger, hserver, hauth]
  | createStopTrigger stopTrigger h =>
    have hserver := hs.server_eq (by rw [h]; rfl)
    have hauth := hs.authDB_eq (by rw [h]; rfl)
    have henv := hs.hasEnv (by rw [h]; rfl)
    have hscheduler := hs.hasScheduler (by rw [h]; rfl)
    constructor <;> simp [hserver, hauth, henv, hscheduler]
  | createAuthDB authDB h =>
    have hserver := hs.server_eq (by rw [h]; rfl)
    have henv := hs.hasEnv (by rw [h]; rfl)
    have hscheduler := hs.hasScheduler (by rw [h]; rfl)
    constructor <;> simp [hserver, henv, hscheduler]
  | createServer h =>
    have henv := hs.hasEnv (by rw [h]; rfl)
    have hscheduler := hs.hasScheduler (by rw [h]; rfl)
    constructor <;> simp [henv, hscheduler]
  | noServer h =>
    have henv := hs.hasEnv (by rw [h]; rfl)
    have hscheduler := hs.hasScheduler (by rw [h]; rfl)
    constructor <;> simp [henv, hscheduler]
  | leaveLoop h hwatch =>
    have hserver := hs.serves (by rw [h]; rfl)
    have henv := hs.hasEnv (by rw [h]; rfl)
    have hscheduler := hs.hasScheduler (by rw [h]; rfl)
    constructor <;> simp [hserver, henv, hscheduler]
  | cleanup point failed h => exact hs.cleanup h
  | clearRunning h =>
    have hscheduler := hs.scheduler_eq (by rw [h]; rfl)
    obtain ⟨henv, hauth, hserver, htrigger⟩ := hs.nothing hscheduler
    constructor <;> simp [hscheduler, henv, hauth, hserver, htrigger]
  | publishURL url h hfree => exact hs.serving (by rw [h]; rfl) rfl rfl rfl rfl rfl rfl
  | setStartOk h => exact hs.serving (by rw [h]; rfl) rfl rfl rfl rfl rfl rfl
  | enterLoop h hwatch => exact hs.serving (by rw [h]; rfl) rfl rfl rfl rfl rfl rfl
  | loopBody pops h => exact hs.serving (by rw [h]; rfl) rfl rfl rfl rfl rfl rfl

/-- A new thread begins where the last one has left nothing. -/
theorem launch (hs : Resources s) (hended : s.rtsp = .ended) (ht : t.rtsp = .createScheduler)
    (hscheduler : t.scheduler_ = s.scheduler_) (henv : t.env_ = s.env_)
    (hauth : t.authDB_ = s.authDB_) (hserver : t.server_ = s.server_)
    (htrigger : t.stopTrigger_ = s.stopTrigger_) : Resources t := by
  have hnone := hs.scheduler_eq (by rw [hended]; rfl)
  obtain ⟨henv', hauth', hserver', htrigger'⟩ := hs.nothing hnone
  constructor <;>
    simp [ht, hscheduler, henv, hauth, hserver, htrigger, hnone, henv', hauth', hserver', htrigger']

variable [DecidableEq ι]

theorem transition (ho : Owned s) (hs : Resources s) {a : Action ι} (h : Transition s a t) :
    Resources t := by
  cases h with
  | rtsp reply t h => exact hs.rtsp h
  | launch i args hcall hthread =>
    exact hs.launch (ho.ended_of_handle hthread) rfl rfl rfl rfl rfl rfl
  | startNext i point args hcall hpoint =>
    cases point with
    | launch => exact absurd rfl hpoint
    | _ => exact hs.congr rfl rfl rfl rfl rfl rfl
  | _ => exact hs.congr rfl rfl rfl rfl rfl rfl

end Resources

/-! ## The schedulers -/

/-- The thread is between `delete scheduler_` and `scheduler_ = nullptr`. -/
def RtspPoint.schedulerDeleted : RtspPoint → Bool
  | .cleanup .forgetScheduler _ => true
  | _ => false

theorem RtspPoint.not_deleted_of_mayEnv {point : RtspPoint} (h : point.mayEnv = true) :
    point.schedulerDeleted = false := by
  cases point with
  | cleanup point failed => cases point <;> first | rfl | cases h
  | _ => rfl

theorem RtspPoint.not_deleted_of_mayStopTrigger {point : RtspPoint}
    (h : point.mayStopTrigger = true) : point.schedulerDeleted = false := by
  cases point with
  | cleanup point failed => cases point <;> first | rfl | cases h
  | _ => rfl

/-- Which schedulers are deleted: all that have been created, or all but the one in
`scheduler_`. -/
structure Deletions (s : State ι) : Prop where
  latest : ∀ id, s.scheduler_ = some id → s.nextScheduler = id + 1
  deleted : s.deleted.reverse = List.range
    (s.nextScheduler - if s.scheduler_.isSome ∧ s.rtsp.schedulerDeleted = false then 1 else 0)

namespace Deletions

variable {s t : State ι}

theorem new : Deletions (.new : State ι) where
  latest _ h := by cases h
  deleted := rfl

/-- A step that neither creates nor deletes a scheduler. -/
theorem congr (hs : Deletions s) (hrtsp : t.rtsp.schedulerDeleted = s.rtsp.schedulerDeleted)
    (hscheduler : t.scheduler_ = s.scheduler_) (hnext : t.nextScheduler = s.nextScheduler)
    (hdeleted : t.deleted = s.deleted) : Deletions t := by
  refine ⟨?_, ?_⟩
  · rw [hscheduler, hnext]
    exact hs.latest
  · rw [hscheduler, hnext, hdeleted, hrtsp]
    exact hs.deleted

theorem cleanup (hs : Deletions s) {point : CleanupPoint} {failed : Bool}
    (h : s.rtsp = .cleanup point failed) : Deletions (s.cleanupLive555 failed point) := by
  have hold := hs.deleted
  simp only [h] at hold
  cases point with
  | deleteScheduler =>
    cases hscheduler : s.scheduler_ with
    | none =>
      refine ⟨fun id hid => ?_, ?_⟩
      · rw [State.cleanupLive555, hscheduler] at hid
        cases hid
      · simpa [State.cleanupLive555, RtspPoint.schedulerDeleted, hscheduler] using hold
    | some id =>
      have hnext := hs.latest id hscheduler
      refine ⟨hs.latest, ?_⟩
      simp only [RtspPoint.schedulerDeleted, hscheduler, Option.isSome_some, and_self, if_true,
        hnext, Nat.add_sub_cancel] at hold
      simp [State.cleanupLive555, RtspPoint.schedulerDeleted, hscheduler, hnext, hold,
        List.range_succ]
  | forgetScheduler =>
    refine ⟨by simp [State.cleanupLive555], ?_⟩
    simpa [State.cleanupLive555, RtspPoint.schedulerDeleted] using hold
  | clearQueue =>
    refine hs.congr ?_ rfl rfl rfl
    rw [h]
    cases failed <;> rfl
  | _ => exact hs.congr (by rw [h]; rfl) rfl rfl rfl

theorem rtsp (hr : Resources s) (hs : Deletions s) (h : RtspStep s t) : Deletions t := by
  cases h with
  | createScheduler h =>
    have hnone := hr.scheduler_eq (by rw [h]; rfl)
    have hold := hs.deleted
    rw [hnone] at hold
    refine ⟨fun id hid => ?_, by simpa [RtspPoint.schedulerDeleted] using hold⟩
    cases hid
    rfl
  | noScheduler h =>
    have hnone := hr.scheduler_eq (by rw [h]; rfl)
    exact hs.congr (by rw [h]; rfl) hnone.symm rfl rfl
  | cleanup point failed h => exact hs.cleanup h
  | _ => exact hs.congr (by simp [*, RtspPoint.schedulerDeleted]) rfl rfl rfl

variable [DecidableEq ι]

theorem transition (ho : Owned s) (hr : Resources s) (hs : Deletions s) {a : Action ι}
    (h : Transition s a t) : Deletions t := by
  cases h with
  | rtsp reply t h => exact hs.rtsp hr h
  | launch i args hcall hthread =>
    exact hs.congr (by rw [ho.ended_of_handle hthread]; rfl) rfl rfl rfl
  | startNext i point args hcall hpoint =>
    cases point with
    | launch => exact absurd rfl hpoint
    | _ => exact hs.congr rfl rfl rfl rfl
  | _ => exact hs.congr rfl rfl rfl rfl

omit [DecidableEq ι] in
/-- What is deleted is not used any more. -/
theorem deleted_of_mem (hs : Deletions s) {id : SchedulerId} (hid : s.scheduler_ = some id)
    (hmem : id ∈ s.deleted) : s.rtsp.schedulerDeleted = true := by
  by_contra hnot
  have hold := hs.deleted
  rw [hid, hs.latest id hid, if_pos ⟨rfl, by simpa using hnot⟩, Nat.add_sub_cancel] at hold
  have hrange : id ∈ List.range id := hold ▸ List.mem_reverse.mpr hmem
  exact absurd (List.mem_range.mp hrange) (Nat.lt_irrefl id)

omit [DecidableEq ι] in
/-- A scheduler that has been created is deleted or is the one in `scheduler_`. -/
theorem mem_deleted (hs : Deletions s) {id : SchedulerId} (hid : id < s.nextScheduler) :
    id ∈ s.deleted ∨ s.scheduler_ = some id := by
  have hold := hs.deleted
  cases hscheduler : s.scheduler_ with
  | none =>
    left
    simp only [hscheduler, Option.isSome_none, Bool.false_eq_true, false_and, if_false,
      Nat.sub_zero] at hold
    exact List.mem_reverse.mp (hold ▸ List.mem_range.mpr hid)
  | some latest =>
    have hnext := hs.latest latest hscheduler
    rcases Nat.lt_succ_iff_lt_or_eq.mp (hnext ▸ hid) with hlt | rfl
    · left
      refine List.mem_reverse.mp (hold ▸ List.mem_range.mpr ?_)
      rw [hnext]
      split <;> omega
    · exact Or.inr rfl

end Deletions

/-! ## The ledger -/

/-- What is not given back before another resource: the server uses the environment and the
database, and the environment and its trigger the scheduler. -/
def Resource.uses : Resource → Resource → Bool
  | .server, .env => true
  | .server, .authDB => true
  | .env, .scheduler => true
  | .stopTrigger, .scheduler => true
  | _, _ => false

/-- What the members hold. Behind the `delete`, `scheduler_` holds nothing. -/
def State.holds (s : State ι) : Resource → Bool
  | .scheduler => s.scheduler_.isSome && !s.rtsp.schedulerDeleted
  | .env => s.env_
  | .stopTrigger => s.stopTrigger_ != 0
  | .authDB => s.authDB_
  | .server => s.server_

/-- The ledger is well kept, and what it has outstanding is what the members hold. -/
def Accounted (s : State ι) : Prop := Ledger.Keeps Resource.uses s.ledger s.holds

namespace Accounted

variable {s t : State ι}

theorem holds_congr (hrtsp : t.rtsp.schedulerDeleted = s.rtsp.schedulerDeleted)
    (hscheduler : t.scheduler_ = s.scheduler_) (henv : t.env_ = s.env_)
    (hauth : t.authDB_ = s.authDB_) (hserver : t.server_ = s.server_)
    (htrigger : t.stopTrigger_ = s.stopTrigger_) : t.holds = s.holds := by
  funext r
  cases r <;> simp [State.holds, hrtsp, hscheduler, henv, hauth, hserver, htrigger]

theorem new : Accounted (.new : State ι) := by
  have hnothing : (State.new : State ι).holds = fun _ => false := by
    funext r
    cases r <;> rfl
  unfold Accounted
  rw [hnothing]
  exact Ledger.Keeps.nil

/-- A step that neither creates nor gives back. -/
theorem congr (hs : Accounted s) (hledger : t.ledger = s.ledger) (hholds : t.holds = s.holds) :
    Accounted t := by
  unfold Accounted
  rw [hledger, hholds]
  exact hs

theorem create (hs : Accounted s) {r : Resource} (happens : Bool) (hfree : s.holds r = false)
    (hledger : t.ledger = s.note (.created r) happens)
    (hholds : t.holds = Function.update s.holds r happens) : Accounted t := by
  unfold Accounted
  rw [hledger, hholds]
  exact Ledger.Keeps.create hs hfree happens

theorem giveBack (hs : Accounted s) {r : Resource}
    (husers : ∀ user, user.uses r = true → s.holds user = false)
    (hledger : t.ledger = s.note (.givenBack r) (s.holds r))
    (hholds : t.holds = Function.update s.holds r false) : Accounted t := by
  unfold Accounted
  rw [hledger, hholds]
  exact Ledger.Keeps.giveBack hs husers

theorem cleanup (hr : Resources s) (hs : Accounted s) {point : CleanupPoint} {failed : Bool}
    (h : s.rtsp = .cleanup point failed) : Accounted (s.cleanupLive555 failed point) := by
  cases point with
  | deleteStopTrigger =>
    refine hs.giveBack (r := .stopTrigger) (by simp [Resource.uses]) ?_ ?_
    · -- there is a scheduler where there is a trigger
      refine congrArg (s.note (.givenBack .stopTrigger)) (Bool.eq_iff_iff.mpr ?_)
      simp only [State.holds, Bool.and_eq_true, bne_iff_ne]
      exact ⟨fun hset => hset.2, fun hset => ⟨(hr.stopTrigger hset).2, hset⟩⟩
    · have hdeleted := hr.deleteStopTrigger
      funext r
      cases r <;> simp [State.holds, State.cleanupLive555, h, RtspPoint.schedulerDeleted, hdeleted]
  | closeServer =>
    refine hs.giveBack (r := .server) (by simp [Resource.uses]) rfl ?_
    funext r
    cases r <;> simp [State.holds, State.cleanupLive555, h, RtspPoint.schedulerDeleted]
  | deleteAuthDB =>
    have hserver := hr.server_eq (by rw [h]; rfl)
    refine hs.giveBack (r := .authDB) (fun user huse => ?_) rfl ?_
    · cases user with
      | server => exact hserver
      | _ => cases huse
    · funext r
      cases r <;> simp [State.holds, State.cleanupLive555, h, RtspPoint.schedulerDeleted]
  | reclaimEnv =>
    have hserver := hr.server_eq (by rw [h]; rfl)
    refine hs.giveBack (r := .env) (fun user huse => ?_) rfl ?_
    · cases user with
      | server => exact hserver
      | _ => cases huse
    · funext r
      cases r <;> simp [State.holds, State.cleanupLive555, h, RtspPoint.schedulerDeleted]
  | deleteScheduler =>
    have henv := hr.env_eq (by rw [h]; rfl)
    have htrigger := hr.stopTrigger_eq (by rw [h]; rfl)
    refine hs.giveBack (r := .scheduler) (fun user huse => ?_) ?_ ?_
    · cases user with
      | env => exact henv
      | stopTrigger => simp [State.holds, htrigger]
      | _ => cases huse
    · simp [State.holds, State.cleanupLive555, h, RtspPoint.schedulerDeleted]
    · funext r
      cases r <;> simp [State.holds, State.cleanupLive555, RtspPoint.schedulerDeleted]
  | forgetScheduler =>
    refine hs.congr rfl ?_
    funext r
    cases r <;> simp [State.holds, State.cleanupLive555, h, RtspPoint.schedulerDeleted]
  | clearQueue =>
    refine hs.congr rfl (holds_congr ?_ rfl rfl rfl rfl rfl)
    rw [h]
    cases failed <;> rfl

theorem rtsp (hr : Resources s) (hs : Accounted s) (h : RtspStep s t) : Accounted t := by
  cases h with
  | createScheduler h =>
    have hnone := hr.scheduler_eq (by rw [h]; rfl)
    refine hs.create (r := .scheduler) true (by simp [State.holds, hnone]) rfl ?_
    funext r
    cases r <;> simp [State.holds, RtspPoint.schedulerDeleted]
  | noScheduler h =>
    have hnone := hr.scheduler_eq (by rw [h]; rfl)
    exact hs.congr rfl (holds_congr (by rw [h]; rfl) hnone.symm rfl rfl rfl rfl)
  | createEnv h =>
    refine hs.create (r := .env) true (hr.env_eq (by rw [h]; rfl)) rfl ?_
    funext r
    cases r <;> simp [State.holds, h, RtspPoint.schedulerDeleted]
  | noEnv h =>
    have hnone := hr.env_eq (by rw [h]; rfl)
    exact hs.congr rfl (holds_congr (by rw [h]; rfl) rfl hnone.symm rfl rfl rfl)
  | createStopTrigger stopTrigger h =>
    have hnone := hr.stopTrigger_eq (by rw [h]; rfl)
    refine hs.create (r := .stopTrigger) _ (by simp [State.holds, hnone]) rfl ?_
    funext r
    cases r <;> simp [State.holds, h, RtspPoint.schedulerDeleted]
  | createAuthDB needed h =>
    have hnone := hr.authDB_eq (by rw [h]; rfl)
    refine hs.create (r := .authDB) needed hnone rfl ?_
    funext r
    cases r <;> simp [State.holds, h, hnone, RtspPoint.schedulerDeleted]
  | createServer h =>
    refine hs.create (r := .server) true (hr.server_eq (by rw [h]; rfl)) rfl ?_
    funext r
    cases r <;> simp [State.holds, h, RtspPoint.schedulerDeleted]
  | noServer h =>
    have hnone := hr.server_eq (by rw [h]; rfl)
    exact hs.congr rfl (holds_congr (by rw [h]; rfl) rfl rfl rfl hnone.symm rfl)
  | cleanup point failed h => exact hs.cleanup hr h
  | _ =>
    exact hs.congr rfl
      (holds_congr (by simp [*, RtspPoint.schedulerDeleted]) rfl rfl rfl rfl rfl)

variable [DecidableEq ι]

theorem transition (ho : Owned s) (hr : Resources s) (hs : Accounted s) {a : Action ι}
    (h : Transition s a t) : Accounted t := by
  cases h with
  | rtsp reply t h => exact hs.rtsp hr h
  | launch i args hcall hthread =>
    exact hs.congr rfl (holds_congr (by rw [ho.ended_of_handle hthread]; rfl) rfl rfl rfl rfl rfl)
  | startNext i point args hcall hpoint =>
    cases point with
    | launch => exact absurd rfl hpoint
    | _ => exact hs.congr rfl rfl
  | _ => exact hs.congr rfl rfl

end Accounted

/-! ## Every reachable state -/

/-- Nothing is left of any session. -/
structure Released (s : State ι) : Prop where
  scheduler : s.scheduler_ = none
  env : s.env_ = false
  authDB : s.authDB_ = false
  server : s.server_ = false
  stopTrigger : s.stopTrigger_ = 0
  deleted : s.deleted.reverse = List.range s.nextScheduler
  givenBack : ∀ r, s.ledger.count (.created r) = s.ledger.count (.givenBack r)

/-- A thread that has ended, or has only `running_` left to clear, has left nothing. -/
theorem Resources.released {s : State ι} (hr : Resources s) (hl : Deletions s) (ha : Accounted s)
    (h : s.rtsp = .ended ∨ s.rtsp = .clearRunning) : Released s := by
  have hscheduler : s.scheduler_ = none := by
    rcases h with h | h <;> exact hr.scheduler_eq (by rw [h]; rfl)
  obtain ⟨henv, hauth, hserver, htrigger⟩ := hr.nothing hscheduler
  have hold := hl.deleted
  rw [hscheduler] at hold
  have hnothing (r : Resource) : s.holds r = false := by
    cases r <;> simp [State.holds, hscheduler, henv, hauth, hserver, htrigger]
  refine ⟨hscheduler, henv, hauth, hserver, htrigger, by simpa using hold, fun r => ?_⟩
  rw [Ledger.count_created r ha.wellKept, ha.holds_eq r, hnothing r]
  rfl

variable [DecidableEq ι]

/-- **Every session gives back what it has created, in order.** In every reachable state of any
number of callers, whatever live555 could or could not create: nothing has been created while there
was one already, nor given back that was not there or that something there still used, and what is
outstanding is what the members hold. The server and the database exist only beside the environment,
the environment and the stop trigger only beside a scheduler that is not deleted; the schedulers are
deleted one after the other, each once, and each that has been created is deleted or is the one in
`scheduler_`. In the event loop there are a server, an environment and a scheduler, and where no
RTSP thread is at work nothing is left: all that has been created has been given back. -/
theorem resources_released {s : State ι} (h : (machine ι).Reachable s) :
    Ledger.WellKept Resource.uses s.ledger ∧ (∀ r, Ledger.holds r s.ledger = s.holds r) ∧
      (s.server_ = true → s.env_ = true) ∧ (s.authDB_ = true → s.env_ = true) ∧
      (s.env_ = true ∨ s.stopTrigger_ ≠ 0 → ∃ id, s.scheduler_ = some id ∧ id ∉ s.deleted) ∧
      (∃ n, s.deleted.reverse = List.range n) ∧
      (∀ id < s.nextScheduler, id ∈ s.deleted ∨ s.scheduler_ = some id) ∧
      (s.rtsp = .loopCheck ∨ s.rtsp = .loopBody →
        s.server_ = true ∧ s.env_ = true ∧ s.scheduler_.isSome = true) ∧
      (s.rtsp = .ended ∨ s.rtsp = .clearRunning → Released s) := by
  have hall : Shared s ∧ Resources s ∧ Deletions s ∧ Accounted s := by
    refine Machine.invariant (M := machine ι)
      (I := fun s => Shared s ∧ Resources s ∧ Deletions s ∧ Accounted s)
      ⟨Shared.new, Resources.new, Deletions.new, Accounted.new⟩ (fun s a t hs ht => ?_) h
    obtain ⟨hs, hr, hl, ha⟩ := hs
    have htrans := (Transition.of_step ht).2
    exact ⟨hs.transition htrans, hr.transition hs.1 htrans, hl.transition hs.1 hr htrans,
      ha.transition hs.1 hr htrans⟩
  obtain ⟨-, hr, hl, ha⟩ := hall
  refine ⟨ha.wellKept, ha.holds_eq, fun hserver => (hr.server hserver).2,
    fun hauth => (hr.authDB hauth).2, fun hset => ?_, ⟨_, hl.deleted⟩,
    fun id hid => hl.mem_deleted hid, fun hpoint => ?_, hr.released hl ha⟩
  · -- both are gone before the scheduler is deleted
    have hlive : s.scheduler_.isSome = true ∧ s.rtsp.schedulerDeleted = false := by
      rcases hset with henv | htrigger
      · obtain ⟨hmay, hsome⟩ := hr.env henv
        exact ⟨hsome, RtspPoint.not_deleted_of_mayEnv hmay⟩
      · obtain ⟨hmay, hsome⟩ := hr.stopTrigger htrigger
        exact ⟨hsome, RtspPoint.not_deleted_of_mayStopTrigger hmay⟩
    obtain ⟨id, hid⟩ := Option.isSome_iff_exists.mp hlive.1
    refine ⟨id, hid, fun hmem => ?_⟩
    rw [hl.deleted_of_mem hid hmem] at hlive
    cases hlive.2
  · have hserves : s.rtsp.serves = true ∧ s.rtsp.hasEnv = true ∧ s.rtsp.hasScheduler = true := by
      rcases hpoint with h | h <;> rw [h] <;> exact ⟨rfl, rfl, rfl⟩
    exact ⟨hr.serves hserves.1, hr.hasEnv hserves.2.1, hr.hasScheduler hserves.2.2⟩

/-- A session without a server, and the next one up to its event loop, under two callers. -/
def noServer : List (Action Bool) :=
  let start : List (Action Bool) :=
    .start true ⟨8554, "live", "", ""⟩ :: List.replicate 5 (.continueCall true)
  start ++ List.replicate 4 (Action.rtsp ⟨true, 1, none, 0⟩) ++
    [Action.stop false false, .rtsp ⟨false, 0, none, 0⟩] ++
    List.replicate 9 (Action.rtsp ⟨true, 1, none, 0⟩)

theorem no_server_released :
    ∃ s, (machine Bool).exec .new (noServer.take 18) = some s ∧ s.rtsp = .cleanup .clearQueue true ∧
      s.ledger = [.givenBack .scheduler, .givenBack .env, .givenBack .stopTrigger,
        .created .stopTrigger, .created .env, .created .scheduler] ∧
      Ledger.WellKept Resource.uses s.ledger ∧ (∃ n, s.deleted.reverse = List.range n) ∧
      ∀ id < s.nextScheduler, id ∈ s.deleted ∨ s.scheduler_ = some id := by
  have hrun : (machine Bool).exec .new (noServer.take 18) = some _ := rfl
  obtain ⟨hkept, -, -, -, -, hdeleted, hall, -, -⟩ := resources_released ⟨_, hrun⟩
  exact ⟨_, hrun, rfl, rfl, hkept, hdeleted, hall⟩

end RtspPush.Service
