import RtspPush.AnnexB.Split

/-!
# `H264FrameQueue`

The queue between the encoder threads and the event loop (`h264FrameQueue.cpp`). Every member
function takes `mutex_` for its whole body after the argument checks, so each is one function
here. `pushAnnexBFrame` also returns the `triggerEvent` calls of its `wakeReadersLocked`, in
order.

A buffer is `none` for a null pointer, else its bytes. A reader's scheduler and client data are
the object numbers of what the pointers refer to.
-/

namespace RtspPush

abbrev SchedulerId := Nat

abbrev ClientData := Nat

/-- `typedef u_int32_t EventTriggerId`. -/
abbrev EventTriggerId := UInt32

/-- `struct timeval` with the signed 64-bit fields of the aarch64 target. -/
structure Timeval where
  tv_sec : Int64
  tv_usec : Int64
  deriving DecidableEq, Repr

/-- `H264FrameQueue::Nalu`. -/
structure Nalu where
  data : List UInt8
  presentationTime : Timeval
  deriving DecidableEq, Repr

/-- `H264FrameQueue::Reader`. -/
structure Reader where
  scheduler : SchedulerId
  triggerId : EventTriggerId
  clientData : ClientData
  deriving DecidableEq, Repr

/-- The members of `H264FrameQueue`; the front of `queue_` is the head of the list. -/
structure H264FrameQueue where
  queue : List Nalu
  readers : List Reader
  sps : List UInt8
  pps : List UInt8
  maxQueuedNalus : Nat
  deriving DecidableEq, Repr

namespace H264FrameQueue

/-- `H264FrameQueue()`. -/
def new : H264FrameQueue where
  queue := []
  readers := []
  sps := []
  pps := []
  maxQueuedNalus := 300

/-- `timestampToTimeval(timestampUs)`. -/
def timestampToTimeval (timestampUs : UInt64) : Timeval where
  tv_sec := (timestampUs / 1000000).toInt64
  tv_usec := (timestampUs % 1000000).toInt64

/-- `while (queue_.size() >= maxQueuedNalus_) queue_.pop_front();` -/
def evict (maxQueuedNalus : Nat) : List Nalu → List Nalu
  | [] => []
  | nalu :: rest =>
    if (nalu :: rest).length ≥ maxQueuedNalus then evict maxQueuedNalus rest else nalu :: rest

/-- `pushPureNaluLocked(data, size, presentationTime)`. -/
def pushPureNaluLocked (q : H264FrameQueue) (data : List UInt8) (presentationTime : Timeval) :
    H264FrameQueue :=
  match data with
  | [] => q
  | byte :: _ =>
    let nalType := byte &&& 0x1F
    let q :=
      if nalType = 7 ∧ q.sps = [] then { q with sps := data }
      else if nalType = 8 ∧ q.pps = [] then { q with pps := data }
      else q
    { q with queue := evict q.maxQueuedNalus q.queue ++ [⟨data, presentationTime⟩] }

/-- `wakeReadersLocked()`: the `triggerEvent` calls it makes. -/
def wakeReadersLocked (q : H264FrameQueue) : List Reader := q.readers

/-- The argument check of `pushAnnexBFrame`: `data == nullptr || size == 0`. -/
def nothingToPush : Option (List UInt8) → Bool
  | none => true
  | some data => data.length = 0

/-- `pushAnnexBFrame(data, size, timestampUs)`. -/
def pushAnnexBFrame (q : H264FrameQueue) (data : Option (List UInt8)) (timestampUs : UInt64) :
    H264FrameQueue × List Reader :=
  match data with
  | none => (q, [])
  | some data =>
    if data.length = 0 then (q, [])
    else
      let presentationTime := timestampToTimeval timestampUs
      let nals := splitAnnexB data
      if nals.isEmpty then
        let q := q.pushPureNaluLocked data presentationTime
        (q, q.wakeReadersLocked)
      else
        let q := nals.foldl
          (fun q nal => q.pushPureNaluLocked (nal.bytes data) presentationTime) q
        (q, q.wakeReadersLocked)

/-- `popNalu(nalu)`: the NALU when it returns true. -/
def popNalu (q : H264FrameQueue) : Option Nalu × H264FrameQueue :=
  match q.queue with
  | [] => (none, q)
  | nalu :: rest => (some nalu, { q with queue := rest })

/-- `clear()`. -/
def clear (q : H264FrameQueue) : H264FrameQueue := { q with queue := [] }

/-- `registerReader(scheduler, triggerId, clientData)`. -/
def registerReader (q : H264FrameQueue) (scheduler : Option SchedulerId)
    (triggerId : EventTriggerId) (clientData : ClientData) : H264FrameQueue :=
  match scheduler with
  | none => q
  | some scheduler =>
    if triggerId = 0 then q
    else { q with readers := q.readers ++ [⟨scheduler, triggerId, clientData⟩] }

/-- `unregisterReader(triggerId)`. -/
def unregisterReader (q : H264FrameQueue) (triggerId : EventTriggerId) : H264FrameQueue :=
  { q with readers := q.readers.filter fun reader => reader.triggerId ≠ triggerId }

/-- `hasSps()`. -/
def hasSps (q : H264FrameQueue) : Bool := !q.sps.isEmpty

/-- `hasPps()`. -/
def hasPps (q : H264FrameQueue) : Bool := !q.pps.isEmpty

/-! ## What a push hands to the queue -/

/-- The NALU byte strings a push produces, in order: the spans of the buffer, or the whole buffer
when there is none. -/
def producedNalus : Option (List UInt8) → List (List UInt8)
  | none => []
  | some data =>
    if data = [] then []
    else if splitAnnexB data = [] then [data]
    else (splitAnnexB data).map (NalSpan.bytes data)

/-- The same with their presentation times. -/
def produced (data : Option (List UInt8)) (timestampUs : UInt64) : List Nalu :=
  (producedNalus data).map fun nal => ⟨nal, timestampToTimeval timestampUs⟩

end H264FrameQueue

end RtspPush
