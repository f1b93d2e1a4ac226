import RtspPush.Lib.Machine
import RtspPush.Queue.Basic

/-!
# Encoder threads, the queue, and the event loop

The system around the queue: any number of encoder threads in `pushAnnexBFrame`, and one
event-loop thread that sets up and cleans up sessions (`live555RtspService.cpp`), constructs and
destroys `MyH264Source`s (`myH264Source.cpp`), issues their requests and dispatches their
triggers. A step is one mutex section of the queue or one trigger operation, with the thread's
own computation around it; the `triggerEvent` calls of `wakeReadersLocked` are one step each, and
`pushing` holds the queue's mutex until the last of them.

What is assumed of live555 is in the steps of this file and nowhere else. A trigger is a sticky
flag with the client data of the last `triggerEvent`; the loop clears it before it calls the
handler. `createEventTrigger` returns 0 or an id that is not in use on that scheduler.
`Medium::close(server_)` returns when all sources are destroyed. `getNextFrame` stores the
request and calls `doGetNextFrame`, `afterGetting` clears the awaiting flag before it calls the
client, and that client code may do whatever the event loop may do, except dispatch triggers.

Objects are numbered in the order they are allocated and a number is never used again, so that a
stale pointer never looks like a valid one. The queue pointer of a source is never null here: the
service always has a queue and hands it to every source.
-/

namespace RtspPush.Delivery

open Lib

abbrev SourceId := ClientData

/-! ## The scheduler -/

/-- The handler functions that triggers are created with. -/
inductive TaskFunc
  | frameArrivedCallback
  | stopEventCallback
  deriving DecidableEq

/-- An event trigger: its handler, and the client data of an event that awaits handling. -/
structure EventTrigger where
  handler : TaskFunc
  pending : Option ClientData
  deriving DecidableEq

/-- A scheduler, `alive` between its creation and its deletion. -/
structure TaskScheduler where
  alive : Bool
  triggers : EventTriggerId → Option EventTrigger

namespace TaskScheduler

def unallocated : TaskScheduler := ⟨false, fun _ => none⟩

/-- `createNew()`. -/
def new : TaskScheduler := ⟨true, fun _ => none⟩

def setTrigger (scheduler : TaskScheduler) (id : EventTriggerId) (trigger : Option EventTrigger) :
    TaskScheduler :=
  { scheduler with triggers := fun i => if i = id then trigger else scheduler.triggers i }

/-- `createEventTrigger(handler)` when it returns `id`. -/
def createEventTrigger (scheduler : TaskScheduler) (handler : TaskFunc) (id : EventTriggerId) :
    Option TaskScheduler :=
  if id = 0 then some scheduler
  else if scheduler.triggers id = none then
    some (scheduler.setTrigger id (some ⟨handler, none⟩))
  else none

/-- `deleteEventTrigger(id)`; it drops an event that awaits handling. -/
def deleteEventTrigger (scheduler : TaskScheduler) (id : EventTriggerId) : TaskScheduler :=
  scheduler.setTrigger id none

/-- `triggerEvent(id, clientData)`. -/
def triggerEvent (scheduler : TaskScheduler) (id : EventTriggerId) (clientData : ClientData) :
    TaskScheduler :=
  scheduler.setTrigger id
    ((scheduler.triggers id).map fun trigger => { trigger with pending := some clientData })

/-- What the loop does before it calls a trigger's handler. -/
def clearPending (scheduler : TaskScheduler) (id : EventTriggerId) : TaskScheduler :=
  scheduler.setTrigger id
    ((scheduler.triggers id).map fun trigger => { trigger with pending := none })

end TaskScheduler

/-! ## The source -/

/-- `MyH264Source` with the members of `FramedSource` that it uses. `requests` counts the calls
of `getNextFrame`. -/
structure MyH264Source where
  alive : Bool
  scheduler : SchedulerId
  frameArrivedTrigger : EventTriggerId
  fIsCurrentlyAwaitingData : Bool
  fTo : Nat
  fMaxSize : UInt32
  fFrameSize : UInt32
  fNumTruncatedBytes : UInt32
  fPresentationTime : Timeval
  requests : Nat
  deriving DecidableEq

/-- What `afterGetting` hands to the client: the bytes written at `fTo` and the results. -/
structure Handed where
  source : SourceId
  request : Nat
  fTo : Nat
  bytes : List UInt8
  fFrameSize : UInt32
  fNumTruncatedBytes : UInt32
  fPresentationTime : Timeval
  deriving DecidableEq

namespace MyH264Source

def unallocated : MyH264Source where
  alive := false
  scheduler := 0
  frameArrivedTrigger := 0
  fIsCurrentlyAwaitingData := false
  fTo := 0
  fMaxSize := 0
  fFrameSize := 0
  fNumTruncatedBytes := 0
  fPresentationTime := ⟨0, 0⟩
  requests := 0

/-- The constructor, up to `registerReader`. -/
def new (scheduler : SchedulerId) (frameArrivedTrigger : EventTriggerId) : MyH264Source :=
  { unallocated with
    alive := true
    scheduler := scheduler
    frameArrivedTrigger := frameArrivedTrigger
    fMaxSize := 2 * 1024 * 1024 }

/-- `FramedSource::getNextFrame(to, maxSize, …)`, up to its call of `doGetNextFrame`. -/
def getNextFrame (source : MyH264Source) (fTo : Nat) (fMaxSize : UInt32) : MyH264Source :=
  { source with
    fIsCurrentlyAwaitingData := true
    fTo := fTo
    fMaxSize := fMaxSize
    requests := source.requests + 1 }

/-- `FramedSource::stopGettingFrames()`. -/
def stopGettingFrames (source : MyH264Source) : MyH264Source :=
  { source with fIsCurrentlyAwaitingData := false }

/-- `deliverFrame()` behind a successful `popNalu`, up to `afterGetting`. -/
def fill (source : MyH264Source) (nalu : Nalu) : MyH264Source :=
  let srcSize := nalu.data.length
  if srcSize > source.fMaxSize.toNat then
    { source with
      fFrameSize := source.fMaxSize
      fNumTruncatedBytes := UInt32.ofNat (srcSize - source.fMaxSize.toNat)
      fPresentationTime := nalu.presentationTime }
  else
    { source with
      fFrameSize := UInt32.ofNat srcSize
      fNumTruncatedBytes := 0
      fPresentationTime := nalu.presentationTime }

/-- `std::memcpy(fTo, nalu.data.data(), fFrameSize)` and the values `afterGetting` passes on. -/
def handed (source : MyH264Source) (src : SourceId) (nalu : Nalu) : Handed where
  source := src
  request := source.requests
  fTo := source.fTo
  bytes := nalu.data.take source.fFrameSize.toNat
  fFrameSize := source.fFrameSize
  fNumTruncatedBytes := source.fNumTruncatedBytes
  fPresentationTime := source.fPresentationTime

/-- `FramedSource::afterGetting(source)`, up to its call of the client. -/
def afterGetting (source : MyH264Source) : MyH264Source :=
  { source with fIsCurrentlyAwaitingData := false }

end MyH264Source

/-! ## The whole state -/

/-- How far the event-loop thread is in `rtspThreadMain`. -/
inductive Phase
  /-- No session: before `setupLive555` or behind `cleanupLive555`. -/
  | stopped
  /-- In `doEventLoop`. -/
  | serving
  /-- At the start of `cleanupLive555`. -/
  | cleanup
  /-- In or before `Medium::close(server_)`. -/
  | closing
  /-- Before `delete scheduler_`. -/
  | deleting
  /-- Before `frameQueue_->clear()`. -/
  | clearing
  deriving DecidableEq

/-- The member function of a source that the event-loop thread is in. -/
inductive Call
  | idle
  /-- The constructor, before `registerReader`. -/
  | constructing (src : SourceId)
  /-- `deliverFrame`, before `popNalu`. -/
  | delivering (src : SourceId)
  /-- `deliverFrame` with a NALU popped, before `afterGetting`. -/
  | handing (src : SourceId) (nalu : Nalu)
  /-- The destructor, before `unregisterReader`. -/
  | unregistering (src : SourceId)
  /-- The destructor, before `deleteEventTrigger`. -/
  | deletingTrigger (src : SourceId)
  deriving DecidableEq

/-- The state of the system. `frames` are the calls of `deliverFrame` whose `afterGetting` is in
the client's code; `handed` is the history of what has been handed over. -/
structure State (ε : Type) where
  frameQueue : H264FrameQueue
  pushing : Option (ε × List Reader)
  schedulers : SchedulerId → TaskScheduler
  nextScheduler : SchedulerId
  sources : SourceId → MyH264Source
  nextSource : SourceId
  scheduler_ : Option SchedulerId
  stopTrigger_ : EventTriggerId
  server_ : Bool
  phase : Phase
  call : Call
  frames : List SourceId
  handed : List Handed

namespace State

variable {ε : Type}

/-- A new service. -/
def new : State ε where
  frameQueue := .new
  pushing := none
  schedulers := fun _ => .unallocated
  nextScheduler := 0
  sources := fun _ => .unallocated
  nextSource := 0
  scheduler_ := none
  stopTrigger_ := 0
  server_ := false
  phase := .stopped
  call := .idle
  frames := []
  handed := []

@[simp] def setScheduler (s : State ε) (id : SchedulerId) (scheduler : TaskScheduler) :
    State ε :=
  { s with schedulers := fun i => if i = id then scheduler else s.schedulers i }

@[simp] def setSource (s : State ε) (id : SourceId) (source : MyH264Source) : State ε :=
  { s with sources := fun i => if i = id then source else s.sources i }

end State

/-! ## The steps -/

/-- What the threads may do next. -/
inductive Action (ε : Type)
  | push (e : ε) (data : Option (List UInt8)) (timestampUs : UInt64)
  | wake (e : ε)
  | unlock (e : ε)
  | setupLive555 (scheduler env : Bool) (stopTrigger : EventTriggerId) (server : Bool)
  | stopTriggerEvent
  | construct (frameArrivedTrigger : EventTriggerId)
  | registerReader
  | getNextFrame (src : SourceId) (fTo : Nat) (fMaxSize : UInt32)
  | stopGettingFrames (src : SourceId)
  | dispatch (id : EventTriggerId)
  | popNalu
  | afterGetting
  | clientReturn
  | destroy (src : SourceId)
  | unregisterReader
  | deleteEventTrigger
  | leaveEventLoop
  | cleanupStopTrigger
  | closeServer
  | deleteScheduler
  | clearQueue

namespace State

variable {ε : Type}

/-- `pushAnnexBFrame(data, size, timestampUs)`, up to the calls of `wakeReadersLocked`. -/
def push (s : State ε) (e : ε) (data : Option (List UInt8)) (timestampUs : UInt64) :
    Option (State ε) :=
  if H264FrameQueue.nothingToPush data then some s
  else if s.pushing.isSome then none
  else
    let (frameQueue, wakes) := s.frameQueue.pushAnnexBFrame data timestampUs
    some { s with frameQueue := frameQueue, pushing := some (e, wakes) }

/-- The next `triggerEvent` of `wakeReadersLocked`. -/
def wake [DecidableEq ε] (s : State ε) (e : ε) : Option (State ε) :=
  match s.pushing with
  | some (e', reader :: wakes) =>
    if e' = e then
      let scheduler := s.schedulers reader.scheduler
      some { s.setScheduler reader.scheduler
              (scheduler.triggerEvent reader.triggerId reader.clientData) with
        pushing := some (e, wakes) }
    else none
  | _ => none

/-- The end of a push. -/
def unlock [DecidableEq ε] (s : State ε) (e : ε) : Option (State ε) :=
  match s.pushing with
  | some (e', []) => if e' = e then some { s with pushing := none } else none
  | _ => none

/-- `setupLive555()`: whether the scheduler, the environment and the server could be created, and
the id of the stop trigger. A failure leads to `cleanupLive555` like the end of the loop. -/
def setupLive555 (s : State ε) (scheduler env : Bool) (stopTrigger : EventTriggerId)
    (server : Bool) : Option (State ε) :=
  if s.phase ≠ .stopped then none
  else if !scheduler then some { s with scheduler_ := none, phase := .cleanup }
  else
    let id := s.nextScheduler
    let s := { s with nextScheduler := id + 1, scheduler_ := some id }
    if !env then some { s.setScheduler id .new with phase := .cleanup }
    else
      match TaskScheduler.new.createEventTrigger .stopEventCallback stopTrigger with
      | none => none
      | some created =>
        some { s.setScheduler id created with
          stopTrigger_ := stopTrigger
          server_ := server
          phase := if server then .serving else .cleanup }

/-- `scheduler->triggerEvent(stopTrigger, this)` of `stop()` while the session has both. Nothing
reads the client data of this trigger. -/
def stopTriggerEvent (s : State ε) : Option (State ε) :=
  match s.scheduler_ with
  | none => none
  | some id =>
    if s.stopTrigger_ = 0 then none
    else some (s.setScheduler id ((s.schedulers id).triggerEvent s.stopTrigger_ 0))

/-- `MyH264Source::createNew(env, frameQueue)`, up to `registerReader`. -/
def construct (s : State ε) (frameArrivedTrigger : EventTriggerId) : Option (State ε) :=
  if s.phase ≠ .serving ∨ s.call ≠ .idle then none
  else
    match s.scheduler_ with
    | none => none
    | some id =>
      match (s.schedulers id).createEventTrigger .frameArrivedCallback frameArrivedTrigger with
      | none => none
      | some created =>
        let src := s.nextSource
        some { (s.setScheduler id created).setSource src (.new id frameArrivedTrigger) with
          nextSource := src + 1
          call := .constructing src }

/-- `frameQueue_->registerReader(&envir().taskScheduler(), frameArrivedTrigger_, this)`. Without a
trigger it returns before it takes the mutex. -/
def registerReader (s : State ε) : Option (State ε) :=
  match s.call with
  | .constructing src =>
    if (s.sources src).frameArrivedTrigger ≠ 0 ∧ s.pushing.isSome then none
    else
      let source := s.sources src
      some { s with
        frameQueue := s.frameQueue.registerReader (some source.scheduler)
          source.frameArrivedTrigger src
        call := .idle }
  | _ => none

/-- `getNextFrame` of a source, up to the `deliverFrame` of its `doGetNextFrame`. -/
def getNextFrame (s : State ε) (src : SourceId) (fTo : Nat) (fMaxSize : UInt32) :
    Option (State ε) :=
  if s.phase = .serving ∧ s.call = .idle ∧ (s.sources src).alive then
    some { s.setSource src ((s.sources src).getNextFrame fTo fMaxSize) with
      call := .delivering src }
  else none

def stopGettingFrames (s : State ε) (src : SourceId) : Option (State ε) :=
  if s.call = .idle ∧ (s.sources src).alive then
    some (s.setSource src (s.sources src).stopGettingFrames)
  else none

/-- One event of the loop: `stopEventCallback` only prints, `frameArrivedCallback` calls
`deliverFrame` of the source in the client data. -/
def dispatch (s : State ε) (id : EventTriggerId) : Option (State ε) :=
  if s.phase ≠ .serving ∨ s.call ≠ .idle ∨ s.frames ≠ [] then none
  else
    match s.scheduler_ with
    | none => none
    | some scheduler =>
      match (s.schedulers scheduler).triggers id with
      | some ⟨handler, some clientData⟩ =>
        let s := s.setScheduler scheduler ((s.schedulers scheduler).clearPending id)
        match handler with
        | .stopEventCallback => some s
        | .frameArrivedCallback => some { s with call := .delivering clientData }
      | _ => none

/-- `deliverFrame()` from its start through `popNalu`. -/
def popNalu (s : State ε) : Option (State ε) :=
  match s.call with
  | .delivering src =>
    if !(s.sources src).fIsCurrentlyAwaitingData then some { s with call := .idle }
    else if s.pushing.isSome then none
    else
      match s.frameQueue.popNalu with
      | (none, frameQueue) => some { s with frameQueue := frameQueue, call := .idle }
      | (some nalu, frameQueue) =>
        some { s with frameQueue := frameQueue, call := .handing src nalu }
  | _ => none

/-- The rest of `deliverFrame()`, up to the client's code in `afterGetting`. -/
def afterGetting (s : State ε) : Option (State ε) :=
  match s.call with
  | .handing src nalu =>
    let source := (s.sources src).fill nalu
    some { s.setSource src source.afterGetting with
      call := .idle
      frames := src :: s.frames
      handed := s.handed ++ [source.handed src nalu] }
  | _ => none

/-- The client's code returns, and with it `afterGetting` and `deliverFrame`. -/
def clientReturn (s : State ε) : Option (State ε) :=
  if s.call ≠ .idle then none
  else
    match s.frames with
    | [] => none
    | _ :: frames => some { s with frames := frames }

/-- `~MyH264Source()`, up to `unregisterReader`; `doStopGettingFrames` does nothing. -/
def destroy (s : State ε) (src : SourceId) : Option (State ε) :=
  if (s.phase = .serving ∨ s.phase = .closing) ∧ s.call = .idle ∧ (s.sources src).alive then
    some { s with call := .unregistering src }
  else none

def unregisterReader (s : State ε) : Option (State ε) :=
  match s.call with
  | .unregistering src =>
    if s.pushing.isSome then none
    else
      some { s with
        frameQueue := s.frameQueue.unregisterReader (s.sources src).frameArrivedTrigger
        call := .deletingTrigger src }
  | _ => none

/-- The rest of the destructor. -/
def deleteEventTrigger (s : State ε) : Option (State ε) :=
  match s.call with
  | .deletingTrigger src =>
    let source := s.sources src
    let s :=
      if source.frameArrivedTrigger ≠ 0 then
        s.setScheduler source.scheduler
          ((s.schedulers source.scheduler).deleteEventTrigger source.frameArrivedTrigger)
      else s
    some { s.setSource src { source with alive := false, frameArrivedTrigger := 0 } with
      call := .idle }
  | _ => none

/-- `doEventLoop` returns. -/
def leaveEventLoop (s : State ε) : Option (State ε) :=
  if s.phase = .serving ∧ s.call = .idle ∧ s.frames = [] then some { s with phase := .cleanup }
  else none

/-- The first statement of `cleanupLive555()`. -/
def cleanupStopTrigger (s : State ε) : Option (State ε) :=
  if s.phase ≠ .cleanup then none
  else
    match s.scheduler_ with
    | none => some { s with phase := .closing }
    | some id =>
      if s.stopTrigger_ = 0 then some { s with phase := .closing }
      else
        some { s.setScheduler id ((s.schedulers id).deleteEventTrigger s.stopTrigger_) with
          stopTrigger_ := 0
          phase := .closing }

/-- `Medium::close(server_)` returns; it has destroyed every source. -/
def closeServer (s : State ε) : Option (State ε) :=
  if s.phase ≠ .closing ∨ s.call ≠ .idle then none
  else if s.server_ ∧ ∃ src < s.nextSource, (s.sources src).alive then none
  else some { s with server_ := false, phase := .deleting }

/-- `delete scheduler_; scheduler_ = nullptr;` -/
def deleteScheduler (s : State ε) : Option (State ε) :=
  if s.phase ≠ .deleting then none
  else
    match s.scheduler_ with
    | none => some { s with phase := .clearing }
    | some id =>
      some { s.setScheduler id .unallocated with scheduler_ := none, phase := .clearing }

/-- `frameQueue_->clear()`. -/
def clearQueue (s : State ε) : Option (State ε) :=
  if s.phase ≠ .clearing ∨ s.pushing.isSome then none
  else some { s with frameQueue := s.frameQueue.clear, phase := .stopped }

/-- One step of the system. -/
def step [DecidableEq ε] (s : State ε) : Action ε → Option (State ε)
  | .push e data timestampUs => s.push e data timestampUs
  | .wake e => s.wake e
  | .unlock e => s.unlock e
  | .setupLive555 scheduler env stopTrigger server =>
    s.setupLive555 scheduler env stopTrigger server
  | .stopTriggerEvent => s.stopTriggerEvent
  | .construct frameArrivedTrigger => s.construct frameArrivedTrigger
  | .registerReader => s.registerReader
  | .getNextFrame src fTo fMaxSize => s.getNextFrame src fTo fMaxSize
  | .stopGettingFrames src => s.stopGettingFrames src
  | .dispatch id => s.dispatch id
  | .popNalu => s.popNalu
  | .afterGetting => s.afterGetting
  | .clientReturn => s.clientReturn
  | .destroy src => s.destroy src
  | .unregisterReader => s.unregisterReader
  | .deleteEventTrigger => s.deleteEventTrigger
  | .leaveEventLoop => s.leaveEventLoop
  | .cleanupStopTrigger => s.cleanupStopTrigger
  | .closeServer => s.closeServer
  | .deleteScheduler => s.deleteScheduler
  | .clearQueue => s.clearQueue

end State

/-- The system as a machine. -/
def machine (ε : Type) [DecidableEq ε] : Machine (State ε) (Action ε) := ⟨.new, State.step⟩

end RtspPush.Delivery
