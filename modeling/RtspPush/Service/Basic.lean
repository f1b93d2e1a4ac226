import RtspPush.Lib.Ledger
import RtspPush.Lib.Machine
import RtspPush.Queue.Basic

/-!
# `Live555RtspService`

The service (`live555RtspService.cpp`): threads of the application call `start`, `stop` and in the
end the destructor, and every `start` that finds the service not running launches an RTSP thread
with `rtspThreadMain`. A step of a thread is one access to a shared member with the thread's own
computation around it; a mutex section whose only shared access is one assignment is one step, and
`mutex` tells who is inside a longer one. What live555 answers to the RTSP thread (whether
an object could be created, the id of a trigger, the URL) and what an iteration of its event loop
pops from the queue is the `Reply` of the step. Two things are simpler than they could be: the
construction of the `std::thread` does not throw, and `setupLive555` reads `streamName_` and stores
`rtspURL_` in one step.

A handle that is assigned or destroyed while it is joinable ends the program, and so does a `join`
of one that is not. A handle stays joinable while a caller is inside `join`, and a second `join` of
the same thread is undefined (`joiner` is who the thread has recorded as waiting for it). The model
goes no further than any of these, the `Crash`es. Only one RTSP thread can be unfinished at a time,
since launching a second one would assign a joinable handle, so `rtsp` is the program counter of
the latest, which is thread number `session`.
-/

namespace RtspPush.Service

open Lib

/-! ## The RTSP thread -/

/-- The statements of `cleanupLive555()`. -/
inductive CleanupPoint
  | deleteStopTrigger
  | closeServer
  | deleteAuthDB
  | reclaimEnv
  | deleteScheduler
  /-- `scheduler_ = nullptr;` behind the `delete`. -/
  | forgetScheduler
  | clearQueue
  deriving DecidableEq

/-- Where the RTSP thread is: in `setupLive555`, in `rtspThreadMain`, or in `cleanupLive555` of a
session whose set-up has failed or not. -/
inductive RtspPoint
  | createScheduler
  | createEnv
  | createStopTrigger
  | createAuthDB
  | createServer
  | publishURL
  | setStartOk
  /-- `doEventLoop` before it reads `*watchVariable`. -/
  | loopCheck
  /-- In an iteration of the event loop. -/
  | loopBody
  | cleanup (point : CleanupPoint) (failed : Bool)
  /-- `running_ = false;` of the failed set-up. -/
  | clearRunning
  | ended
  deriving DecidableEq

/-- What `setupLive555` creates. The calls that give it back are `deleteEventTrigger`, `delete`,
`Medium::close`, and `reclaim()`, which is taken not to refuse. -/
inductive Resource
  | scheduler
  | env
  | stopTrigger
  | authDB
  | server
  deriving DecidableEq

/-- What live555 answers in one step of the RTSP thread. Each step uses the part it asks for. -/
structure Reply where
  created : Bool
  stopTrigger : EventTriggerId
  url : Option String
  pops : Nat

/-! ## The callers -/

/-- The parameters of `start`. -/
structure StartArgs where
  rtspPort : UInt16
  streamName : String
  username : String
  password : String
  deriving DecidableEq

/-- Where a thread is in `start` once it holds the mutex and has found `running_` false. -/
inductive StartPoint
  | config
  | clearWatch
  | clearStartOk
  | setRunning
  | launch
  deriving DecidableEq

/-- Where a thread is in `stop` once it has found `running_` true. -/
inductive StopPoint
  | setWatch
  | copyScheduler
  | copyTrigger (scheduler : Option SchedulerId)
  | trigger (scheduler : Option SchedulerId) (stopTrigger : EventTriggerId)
  | joinable
  | join
  /-- Inside the `join()` of this thread. -/
  | joining (thread : Nat)
  /-- Before the locked `running_ = false`. -/
  | clearRunning
  deriving DecidableEq

/-- What a thread of the application is doing. -/
inductive Caller
  | outside
  | starting (point : StartPoint) (args : StartArgs)
  | stopping (point : StopPoint) (inDestructor : Bool)
  /-- The destructor's `stop()` has returned; the members are destroyed next. -/
  | destroying
  /-- The destructor has ended. -/
  | gone
  deriving DecidableEq

/-- Where a run stops. -/
inductive Crash
  /-- `std::terminate` of the assignment. -/
  | assignedJoinable
  /-- `std::terminate` of the destructor. -/
  | destroyedJoinable
  /-- `join()` throws a `std::system_error` that nobody catches. -/
  | joinedNotJoinable
  /-- Undefined: an implementation may leave the second caller in its `join()` for ever, with the
  others going on. -/
  | joinedTwice
  deriving DecidableEq

/-! ## The state -/

/-- The members of the service; `callers` are the application's threads. `deleted` are the
schedulers that `cleanupLive555` has deleted; schedulers are numbered in order of creation.
`ledger` is what has been created and given back, the latest first. `joiner` is the caller inside
`join()` of the thread in `rtspThread_`. -/
structure State (ι : Type) where
  mutex : Option ι
  rtspThread_ : Option Nat
  joiner : Option ι
  running_ : Bool
  startOk_ : Bool
  eventLoopWatchVariable_ : UInt8
  scheduler_ : Option SchedulerId
  env_ : Bool
  authDB_ : Bool
  server_ : Bool
  stopTrigger_ : EventTriggerId
  frameQueue_ : H264FrameQueue
  streamName_ : String
  username_ : String
  password_ : String
  rtspURL_ : String
  rtspPort_ : UInt16
  session : Nat
  rtsp : RtspPoint
  nextScheduler : SchedulerId
  deleted : List SchedulerId
  ledger : List (LedgerEvent Resource)
  callers : ι → Caller
  crashed : Option Crash

namespace State

variable {ι : Type}

/-- `Live555RtspService()`. -/
def new : State ι where
  mutex := none
  rtspThread_ := none
  joiner := none
  running_ := false
  startOk_ := false
  eventLoopWatchVariable_ := 0
  scheduler_ := none
  env_ := false
  authDB_ := false
  server_ := false
  stopTrigger_ := 0
  frameQueue_ := .new
  streamName_ := "live"
  username_ := ""
  password_ := ""
  rtspURL_ := ""
  rtspPort_ := 8554
  session := 0
  rtsp := .ended
  nextScheduler := 0
  deleted := []
  ledger := []
  callers := fun _ => .outside
  crashed := none

/-! ## The steps of the RTSP thread -/

/-- `popNalu` by the sources, `n` times. -/
def popNalus (q : H264FrameQueue) : Nat → H264FrameQueue
  | 0 => q
  | n + 1 => popNalus q.popNalu.2 n

/-- The ledger behind a step in which the event happens or not. -/
def note (s : State ι) (event : LedgerEvent Resource) (happens : Bool) :
    List (LedgerEvent Resource) :=
  if happens then event :: s.ledger else s.ledger

/-- `cleanupLive555()`, one statement. -/
def cleanupLive555 (s : State ι) (failed : Bool) : CleanupPoint → State ι
  | .deleteStopTrigger =>
    { s with
      stopTrigger_ := if s.scheduler_.isSome ∧ s.stopTrigger_ ≠ 0 then 0 else s.stopTrigger_
      ledger := s.note (.givenBack .stopTrigger) (s.scheduler_.isSome && s.stopTrigger_ != 0)
      rtsp := .cleanup .closeServer failed }
  | .closeServer =>
    { s with
      server_ := false
      ledger := s.note (.givenBack .server) s.server_
      rtsp := .cleanup .deleteAuthDB failed }
  | .deleteAuthDB =>
    { s with
      authDB_ := false
      ledger := s.note (.givenBack .authDB) s.authDB_
      rtsp := .cleanup .reclaimEnv failed }
  | .reclaimEnv =>
    { s with
      env_ := false
      ledger := s.note (.givenBack .env) s.env_
      rtsp := .cleanup .deleteScheduler failed }
  | .deleteScheduler =>
    { s with
      deleted := s.scheduler_.toList ++ s.deleted
      ledger := s.note (.givenBack .scheduler) s.scheduler_.isSome
      rtsp := .cleanup .forgetScheduler failed }
  | .forgetScheduler => { s with scheduler_ := none, rtsp := .cleanup .clearQueue failed }
  | .clearQueue =>
    { s with
      frameQueue_ := s.frameQueue_.clear
      rtsp := if failed then .clearRunning else .ended }

/-- `rtspThreadMain()` with `setupLive555()` and `cleanupLive555()`, one step. -/
def rtspThreadMain (s : State ι) (reply : Reply) : Option (State ι) :=
  match s.rtsp with
  | .createScheduler =>
    if reply.created then
      some { s with
        scheduler_ := some s.nextScheduler
        nextScheduler := s.nextScheduler + 1
        ledger := s.note (.created .scheduler) true
        rtsp := .createEnv }
    else some { s with scheduler_ := none, rtsp := .cleanup .deleteStopTrigger true }
  | .createEnv =>
    if reply.created then
      some { s with
        env_ := true
        ledger := s.note (.created .env) true
        rtsp := .createStopTrigger }
    else some { s with env_ := false, rtsp := .cleanup .deleteStopTrigger true }
  | .createStopTrigger =>
    some { s with
      stopTrigger_ := reply.stopTrigger
      ledger := s.note (.created .stopTrigger) (reply.stopTrigger != 0)
      rtsp := .createAuthDB }
  | .createAuthDB =>
    let needed : Bool := s.username_ ≠ "" ∨ s.password_ ≠ ""
    some { s with
      authDB_ := if needed then true else s.authDB_
      ledger := s.note (.created .authDB) needed
      rtsp := .createServer }
  | .createServer =>
    if reply.created then
      some { s with
        server_ := true
        ledger := s.note (.created .server) true
        rtsp := .publishURL }
    else some { s with server_ := false, rtsp := .cleanup .deleteStopTrigger true }
  | .publishURL =>
    -- a mutex section with one assignment; it has to wait for the mutex
    if s.mutex.isSome then none
    else some { s with rtspURL_ := reply.url.getD "", rtsp := .setStartOk }
  | .setStartOk => some { s with startOk_ := true, rtsp := .loopCheck }
  | .loopCheck =>
    if s.eventLoopWatchVariable_ ≠ 0 then
      some { s with rtsp := .cleanup .deleteStopTrigger false }
    else some { s with rtsp := .loopBody }
  | .loopBody =>
    some { s with frameQueue_ := popNalus s.frameQueue_ reply.pops, rtsp := .loopCheck }
  | .cleanup point failed => some (s.cleanupLive555 failed point)
  | .clearRunning => some { s with running_ := false, rtsp := .ended }
  | .ended => none

/-! ## The steps of the callers -/

variable [DecidableEq ι]

@[simp] def setCaller (s : State ι) (i : ι) (caller : Caller) : State ι :=
  { s with callers := fun j => if j = i then caller else s.callers j }

/-- `start(rtspPort, streamName, username, password)`: take the mutex and check `running_`. The
overload without parameters is this with the members' values. It returns true in any case. -/
def start (s : State ι) (i : ι) (args : StartArgs) : Option (State ι) :=
  if s.callers i ≠ .outside ∨ s.mutex.isSome then none
  else if s.running_ then some s
  else some { s.setCaller i (.starting .config args) with mutex := some i }

/-- The next statement of a `start` that launches a thread. -/
def startNext (s : State ι) (i : ι) (args : StartArgs) : StartPoint → State ι
  | .config =>
    { s.setCaller i (.starting .clearWatch args) with
      rtspPort_ := if args.rtspPort = 0 then 8554 else args.rtspPort
      streamName_ := if args.streamName = "" then "live" else args.streamName
      username_ := args.username
      password_ := args.password
      rtspURL_ := "" }
  | .clearWatch =>
    { s.setCaller i (.starting .clearStartOk args) with eventLoopWatchVariable_ := 0 }
  | .clearStartOk => { s.setCaller i (.starting .setRunning args) with startOk_ := false }
  | .setRunning => { s.setCaller i (.starting .launch args) with running_ := true }
  | .launch =>
    -- assigning the new thread ends the program if the old handle is joinable
    if s.rtspThread_.isSome then { s with crashed := some .assignedJoinable }
    else
      { s.setCaller i .outside with
        rtspThread_ := some (s.session + 1)
        session := s.session + 1
        rtsp := .createScheduler
        mutex := none }

/-- Where `stop()` returns to. -/
def afterStop (inDestructor : Bool) : Caller := if inDestructor then .destroying else .outside

/-- `stop()`: take the mutex and check `running_`. -/
def stop (s : State ι) (i : ι) (inDestructor : Bool) : Option (State ι) :=
  if s.callers i ≠ .outside ∨ s.mutex.isSome then none
  else if !s.running_ then some (s.setCaller i (afterStop inDestructor))
  else some { s.setCaller i (.stopping .setWatch inDestructor) with mutex := some i }

/-- The next statement of a `stop` of a running service. -/
def stopNext (s : State ι) (i : ι) (inDestructor : Bool) : StopPoint → Option (State ι)
  | .setWatch =>
    some { s.setCaller i (.stopping .copyScheduler inDestructor) with
      eventLoopWatchVariable_ := 1 }
  | .copyScheduler =>
    some (s.setCaller i (.stopping (.copyTrigger s.scheduler_) inDestructor))
  | .copyTrigger scheduler =>
    some { s.setCaller i (.stopping (.trigger scheduler s.stopTrigger_) inDestructor) with
      mutex := none }
  | .trigger _ _ =>
    -- `triggerEvent`, if there is a scheduler and a trigger; it only wakes the event loop
    some (s.setCaller i (.stopping .joinable inDestructor))
  | .joinable =>
    if s.rtspThread_.isSome then some (s.setCaller i (.stopping .join inDestructor))
    else some (s.setCaller i (.stopping .clearRunning inDestructor))
  | .join =>
    match s.rtspThread_ with
    | some thread =>
      if s.joiner.isSome then some { s with crashed := some .joinedTwice }
      else
        some { s.setCaller i (.stopping (.joining thread) inDestructor) with joiner := some i }
    | none => some { s with crashed := some .joinedNotJoinable }
  | .joining thread =>
    if thread = s.session ∧ s.rtsp ≠ .ended then none
    else
      some { s.setCaller i (.stopping .clearRunning inDestructor) with
        rtspThread_ := none
        joiner := none }
  | .clearRunning =>
    if s.mutex.isSome then none
    else some { s.setCaller i (afterStop inDestructor) with running_ := false }

/-- The members are destroyed. -/
def destroyMembers (s : State ι) (i : ι) : State ι :=
  if s.rtspThread_.isSome then { s with crashed := some .destroyedJoinable }
  else s.setCaller i .gone

/-- The next step of the call that a thread is in. -/
def continueCall (s : State ι) (i : ι) : Option (State ι) :=
  match s.callers i with
  | .outside => none
  | .starting point args => some (s.startNext i args point)
  | .stopping point inDestructor => s.stopNext i inDestructor point
  | .destroying => some (s.destroyMembers i)
  | .gone => none

end State

/-! ## The whole system -/

/-- What may happen next. The destructor begins with `stop`; `push` is `pushH264Frame` by an
encoder thread, a mutex section of the queue. -/
inductive Action (ι : Type)
  | start (i : ι) (args : StartArgs)
  | stop (i : ι) (inDestructor : Bool)
  | continueCall (i : ι)
  | rtsp (reply : Reply)
  | push (data : Option (List UInt8)) (timestampUs : UInt64)

namespace State

variable {ι : Type} [DecidableEq ι]

/-- One step of the system; none behind a crash. -/
def step (s : State ι) (a : Action ι) : Option (State ι) :=
  if s.crashed.isSome then none
  else
    match a with
    | .start i args => s.start i args
    | .stop i inDestructor => s.stop i inDestructor
    | .continueCall i => s.continueCall i
    | .rtsp reply => s.rtspThreadMain reply
    | .push data timestampUs =>
      some { s with frameQueue_ := (s.frameQueue_.pushAnnexBFrame data timestampUs).1 }

end State

/-- The service as a machine. -/
def machine (ι : Type) [DecidableEq ι] : Machine (State ι) (Action ι) := ⟨.new, State.step⟩

end RtspPush.Service
