import Mathlib.Data.List.Flatten
import RtspPush.Lib.Monitor
import RtspPush.Queue.History

/-!
# The queue between threads

Everywhere else a member function of `H264FrameQueue` is one step. Here it is what it is in the
source: argument checks and `splitAnnexB` outside the lock, then one statement after the other under
`mutex_`, with every `pop_front`, `push_back` and `triggerEvent` a step of its own, while any number
of other threads run. `queue_linearizable` is that the one-step view is right.

`SharedQueue` is the queue with the `triggerEvent` calls that all `wakeReadersLocked` have made.
-/

namespace RtspPush

open Lib

/-- A call of a member function by some thread. -/
inductive QueueCall
  | op (op : QueueOp)
  | hasSps
  | hasPps
  deriving DecidableEq

/-- What it returns. -/
inductive QueueResult
  | void
  | nalu (nalu : Option Nalu)
  | bool (b : Bool)
  deriving DecidableEq

structure SharedQueue where
  queue : H264FrameQueue
  triggered : List Reader
  deriving DecidableEq

namespace SharedQueue

/-- What is left of a member function under `mutex_`. -/
inductive Body
  | pushAnnexBFrame (data : List UInt8) (nals : List NalSpan) (presentationTime : Timeval)
  /-- The range-for over `nals`, at the NALUs that are left. -/
  | forNals (data : List UInt8) (left : List NalSpan) (presentationTime : Timeval)
  | pushPureNaluLocked (nal data : List UInt8) (left : List NalSpan) (presentationTime : Timeval)
  | whileFull (nal data : List UInt8) (left : List NalSpan) (presentationTime : Timeval)
  | pushBack (nal data : List UInt8) (left : List NalSpan) (presentationTime : Timeval)
  /-- The range-for over `readers_`. -/
  | wakeReadersLocked (i : Nat)
  | popNalu
  | popFront (nalu : Nalu)
  | clear
  | registerReader (reader : Reader)
  | unregisterReader (triggerId : EventTriggerId)
  | hasSps
  | hasPps

/-- What a member function does before it locks `mutex_`. -/
def enter : QueueCall → Body ⊕ QueueResult
  | .op (.pushAnnexBFrame data timestampUs) =>
    match data with
    | none => .inr .void
    | some data =>
      if data.length = 0 then .inr .void
      else
        let presentationTime := H264FrameQueue.timestampToTimeval timestampUs
        .inl (.pushAnnexBFrame data (splitAnnexB data) presentationTime)
  | .op .popNalu => .inl .popNalu
  | .op .clear => .inl .clear
  | .op (.registerReader scheduler triggerId clientData) =>
    match scheduler with
    | none => .inr .void
    | some scheduler =>
      if triggerId = 0 then .inr .void
      else .inl (.registerReader ⟨scheduler, triggerId, clientData⟩)
  | .op (.unregisterReader triggerId) => .inl (.unregisterReader triggerId)
  | .hasSps => .inl .hasSps
  | .hasPps => .inl .hasPps

def setQueue (s : SharedQueue) (queue : List Nalu) : SharedQueue :=
  { s with queue := { s.queue with queue := queue } }

/-- One statement under `mutex_`. -/
def stmt (s : SharedQueue) : Body → SharedQueue × (Body ⊕ QueueResult)
  | .pushAnnexBFrame data nals time =>
    if nals.isEmpty then (s, .inl (.pushPureNaluLocked data data [] time))
    else (s, .inl (.forNals data nals time))
  | .forNals data left time =>
    match left with
    | [] => (s, .inl (.wakeReadersLocked 0))
    | nal :: left => (s, .inl (.pushPureNaluLocked (nal.bytes data) data left time))
  | .pushPureNaluLocked nal data left time =>
    match nal with
    | [] => (s, .inl (.forNals data left time))
    | byte :: _ =>
      let nalType := byte &&& 0x1F
      let q :=
        if nalType = 7 ∧ s.queue.sps = [] then { s.queue with sps := nal }
        else if nalType = 8 ∧ s.queue.pps = [] then { s.queue with pps := nal }
        else s.queue
      ({ s with queue := q }, .inl (.whileFull nal data left time))
  | .whileFull nal data left time =>
    if s.queue.queue.length ≥ s.queue.maxQueuedNalus then
      (s.setQueue s.queue.queue.tail, .inl (.whileFull nal data left time))
    else (s, .inl (.pushBack nal data left time))
  | .pushBack nal data left time =>
    (s.setQueue (s.queue.queue ++ [⟨nal, time⟩]), .inl (.forNals data left time))
  | .wakeReadersLocked i =>
    match s.queue.readers[i]? with
    | some reader =>
      ({ s with triggered := s.triggered ++ [reader] }, .inl (.wakeReadersLocked (i + 1)))
    | none => (s, .inr .void)
  | .popNalu =>
    match s.queue.queue with
    | [] => (s, .inr (.nalu none))
    -- the move leaves an empty NALU at the front
    | nalu :: rest => (s.setQueue (⟨[], nalu.presentationTime⟩ :: rest), .inl (.popFront nalu))
  | .popFront nalu => (s.setQueue s.queue.queue.tail, .inr (.nalu (some nalu)))
  | .clear => (s.setQueue [], .inr .void)
  | .registerReader reader =>
    ({ s with queue := { s.queue with readers := s.queue.readers ++ [reader] } }, .inr .void)
  | .unregisterReader triggerId =>
    ({ s with queue := s.queue.unregisterReader triggerId }, .inr .void)
  | .hasSps => (s, .inr (.bool s.queue.hasSps))
  | .hasPps => (s, .inr (.bool s.queue.hasPps))

/-- `H264FrameQueue` behind `mutex_`. -/
def monitor : MonitorObject SharedQueue QueueCall Body QueueResult := ⟨enter, stmt⟩

/-! ## What a body has left to do -/

/-- A push that leaves `q`, with its `wakeReadersLocked`. -/
def pushed (s : SharedQueue) (q : H264FrameQueue) : SharedQueue × QueueResult :=
  (⟨q, s.triggered ++ q.wakeReadersLocked⟩, .void)

/-- The whole call. -/
def apply (s : SharedQueue) : QueueCall → SharedQueue × QueueResult
  | .op (.pushAnnexBFrame data timestampUs) =>
    let (q, triggered) := s.queue.pushAnnexBFrame data timestampUs
    (⟨q, s.triggered ++ triggered⟩, .void)
  | .op .popNalu => (⟨s.queue.popNalu.2, s.triggered⟩, .nalu s.queue.popNalu.1)
  | .op op => (⟨s.queue.apply op, s.triggered⟩, .void)
  | .hasSps => (s, .bool s.queue.hasSps)
  | .hasPps => (s, .bool s.queue.hasPps)

/-- The NALUs that are left to push. -/
def pushLeft (q : H264FrameQueue) (data : List UInt8) (left : List NalSpan) (time : Timeval) :
    H264FrameQueue :=
  left.foldl (fun q nal => q.pushPureNaluLocked (nal.bytes data) time) q

/-- The rest of a call. -/
def rest (s : SharedQueue) : Body → SharedQueue × QueueResult
  | .pushAnnexBFrame data nals time =>
    if nals.isEmpty then s.pushed (s.queue.pushPureNaluLocked data time)
    else s.pushed (pushLeft s.queue data nals time)
  | .forNals data left time => s.pushed (pushLeft s.queue data left time)
  | .pushPureNaluLocked nal data left time =>
    s.pushed (pushLeft (s.queue.pushPureNaluLocked nal time) data left time)
  | .whileFull nal data left time =>
    let queue := H264FrameQueue.evict s.queue.maxQueuedNalus s.queue.queue
    s.pushed (pushLeft { s.queue with queue := queue ++ [⟨nal, time⟩] } data left time)
  | .pushBack nal data left time =>
    s.pushed (pushLeft { s.queue with queue := s.queue.queue ++ [⟨nal, time⟩] } data left time)
  | .wakeReadersLocked i => (⟨s.queue, s.triggered ++ s.queue.readers.drop i⟩, .void)
  | .popNalu => s.apply (.op .popNalu)
  | .popFront nalu => (s.setQueue s.queue.queue.tail, .nalu (some nalu))
  | .clear => s.apply (.op .clear)
  | .registerReader reader =>
    (⟨{ s.queue with readers := s.queue.readers ++ [reader] }, s.triggered⟩, .void)
  | .unregisterReader triggerId => s.apply (.op (.unregisterReader triggerId))
  | .hasSps => s.apply .hasSps
  | .hasPps => s.apply .hasPps

theorem evict_tail {cap : Nat} {l : List Nalu} (h : l.length ≥ cap) :
    H264FrameQueue.evict cap l.tail = H264FrameQueue.evict cap l := by
  cases l with
  | nil => rfl
  | cons nalu l => rw [List.tail_cons, H264FrameQueue.evict, if_pos h]

theorem evict_of_lt {cap : Nat} {l : List Nalu} (h : ¬ l.length ≥ cap) :
    H264FrameQueue.evict cap l = l := by
  cases l with
  | nil => rfl
  | cons nalu l => rw [H264FrameQueue.evict, if_neg h]

/-- What comes before the lock begins the call. -/
theorem finish_enter (s : SharedQueue) (call : QueueCall) :
    MonitorObject.finish rest s (enter call) = s.apply call := by
  cases call with
  | op op =>
    cases op with
    | pushAnnexBFrame data timestampUs =>
      cases data with
      | none => simp [enter, apply, H264FrameQueue.pushAnnexBFrame]
      | some data =>
        by_cases hdata : data.length = 0
        · simp [enter, apply, H264FrameQueue.pushAnnexBFrame, hdata]
        · by_cases hnals : (splitAnnexB data).isEmpty
          · simp [enter, apply, H264FrameQueue.pushAnnexBFrame, hdata, rest, hnals, pushed]
          · simp [enter, apply, H264FrameQueue.pushAnnexBFrame, hdata, rest, hnals, pushed,
              pushLeft]
    | popNalu => rfl
    | clear => rfl
    | registerReader scheduler triggerId clientData =>
      cases scheduler with
      | none => simp [enter, apply, H264FrameQueue.apply, H264FrameQueue.registerReader]
      | some scheduler =>
        by_cases hid : triggerId = 0
        · simp [enter, apply, H264FrameQueue.apply, H264FrameQueue.registerReader, hid]
        · simp [enter, apply, H264FrameQueue.apply, H264FrameQueue.registerReader, hid, rest]
    | unregisterReader triggerId => rfl
  | hasSps => rfl
  | hasPps => rfl

/-- Every statement leaves the rest of the call to do. -/
theorem finish_stmt (s : SharedQueue) (body : Body) :
    MonitorObject.finish rest (s.stmt body).1 (s.stmt body).2 = s.rest body := by
  cases body with
  | pushAnnexBFrame data nals time =>
    by_cases hnals : nals.isEmpty <;> simp [stmt, rest, hnals, pushLeft]
  | forNals data left time =>
    cases left with
    | nil => simp [stmt, rest, pushLeft, pushed, H264FrameQueue.wakeReadersLocked]
    | cons nal left => rfl
  | pushPureNaluLocked nal data left time =>
    cases nal with
    | nil => rfl
    | cons byte nal => rfl
  | whileFull nal data left time =>
    by_cases hfull : s.queue.queue.length ≥ s.queue.maxQueuedNalus
    · simp [stmt, rest, hfull, setQueue, evict_tail hfull, pushed]
    · simp [stmt, rest, hfull, evict_of_lt hfull]
  | pushBack nal data left time => rfl
  | wakeReadersLocked i =>
    cases hreader : s.queue.readers[i]? with
    | none =>
      have hdrop : s.queue.readers.drop i = [] :=
        List.drop_eq_nil_of_le (List.getElem?_eq_none_iff.mp hreader)
      simp [stmt, rest, hreader, hdrop]
    | some reader =>
      obtain ⟨hi, rfl⟩ := List.getElem?_eq_some_iff.mp hreader
      have hdrop := List.drop_eq_getElem_cons hi
      simp only [stmt, hreader, MonitorObject.finish_inl, rest, hdrop, List.append_assoc,
        List.singleton_append]
  | popNalu =>
    cases hqueue : s.queue.queue with
    | nil => simp [stmt, rest, apply, H264FrameQueue.popNalu, hqueue]
    | cons nalu left => simp [stmt, rest, apply, H264FrameQueue.popNalu, hqueue, setQueue]
  | popFront nalu => rfl
  | clear => rfl
  | registerReader reader => rfl
  | unregisterReader triggerId => rfl
  | hasSps => rfl
  | hasPps => rfl

/-- **The statements of the source carry out the one-step member functions.** -/
theorem implements : monitor.Implements apply rest where
  enter := finish_enter
  stmt := finish_stmt

/-! ## Runs of any number of threads -/

/-- A new queue. -/
def new : SharedQueue := ⟨H264FrameQueue.new, []⟩

variable {τ : Type} [DecidableEq τ]

variable (τ) in
/-- Threads that call the member functions of one queue. -/
def threads : Machine (MonitorObject.State τ SharedQueue QueueCall Body QueueResult)
    (MonitorObject.Action τ QueueCall) := monitor.machine τ new

/-- What a run shows of its calls. -/
def shown (as : List (MonitorObject.Action τ QueueCall)) :
    List (MonitorObject.Event τ QueueCall QueueResult) := monitor.trace new as

/-- The calls of a run in the order in which they take effect. -/
def inOrder (as : List (MonitorObject.Action τ QueueCall)) : List (τ × QueueCall) :=
  (shown as).flatMap MonitorObject.Event.inOrder

/-- The calls that `t` makes, and what is returned to it. -/
def calledBy (t : τ) (as : List (MonitorObject.Action τ QueueCall)) : List QueueCall :=
  (shown as).flatMap (MonitorObject.Event.calledBy t)

def returnedTo (t : τ) (as : List (MonitorObject.Action τ QueueCall)) : List QueueResult :=
  (shown as).flatMap (MonitorObject.Event.returnedTo t)

/-- What calls return that are made one after the other on a new queue. -/
def answers (calls : List (τ × QueueCall)) : List (τ × QueueResult) :=
  MonitorObject.sequentialResults apply new calls

end SharedQueue

namespace QueueCall

/-- `hasSps` and `hasPps` leave the queue as it is. -/
def ops : QueueCall → List QueueOp
  | .op queueOp => [queueOp]
  | _ => []

@[simp] theorem ops_op (queueOp : QueueOp) : (op queueOp).ops = [queueOp] := rfl

@[simp] theorem ops_hasSps : hasSps.ops = [] := rfl

@[simp] theorem ops_hasPps : hasPps.ops = [] := rfl

/-- The NALUs that a call produces. -/
def produced (call : QueueCall) : List Nalu := call.ops.flatMap H264FrameQueue.producedBy

end QueueCall

namespace QueueResult

/-- The NALU that a call obtains. -/
def popped : QueueResult → List Nalu
  | nalu result => result.toList
  | _ => []

@[simp] theorem popped_nalu (result : Option Nalu) : (nalu result).popped = result.toList := rfl

@[simp] theorem popped_void : void.popped = [] := rfl

end QueueResult

namespace H264FrameQueue

/-- The `triggerEvent` calls that a call makes. -/
def triggers (q : H264FrameQueue) : QueueOp → List Reader
  | .pushAnnexBFrame data timestampUs => (q.pushAnnexBFrame data timestampUs).2
  | _ => []

/-- Those that a list of calls makes, in order. -/
def woken (q : H264FrameQueue) : List QueueOp → List Reader
  | [] => []
  | op :: ops => q.triggers op ++ (q.apply op).woken ops

end H264FrameQueue

namespace SharedQueue

variable {τ : Type} [DecidableEq τ]

omit [DecidableEq τ] in
theorem sequential_eq (calls : List (τ × QueueCall)) (q : H264FrameQueue)
    (triggered : List Reader) :
    MonitorObject.sequential apply ⟨q, triggered⟩ calls =
      ⟨q.run (calls.flatMap fun c => c.2.ops),
        triggered ++ q.woken (calls.flatMap fun c => c.2.ops)⟩ := by
  induction calls generalizing q triggered with
  | nil => simp [MonitorObject.sequential, H264FrameQueue.run, H264FrameQueue.woken]
  | cons c calls ih =>
    obtain ⟨t, call⟩ := c
    cases call with
    | op op =>
      cases op <;>
        simp [MonitorObject.sequential, apply, ih, H264FrameQueue.run, H264FrameQueue.woken,
          H264FrameQueue.triggers, H264FrameQueue.apply]
    | hasSps => exact ih q triggered
    | hasPps => exact ih q triggered

omit [DecidableEq τ] in
/-- The pops among the calls obtain what the pops of the queue return. -/
theorem popped_answers (calls : List (τ × QueueCall)) (q : H264FrameQueue)
    (triggered : List Reader) :
    (MonitorObject.sequentialResults apply ⟨q, triggered⟩ calls).flatMap (fun r => r.2.popped) =
      q.returnedBy (calls.flatMap fun c => c.2.ops) := by
  induction calls generalizing q triggered with
  | nil => rfl
  | cons c calls ih =>
    obtain ⟨t, call⟩ := c
    cases call with
    | op op =>
      cases op <;>
        simp [MonitorObject.sequentialResults, apply, ih, H264FrameQueue.returnedBy,
          H264FrameQueue.returned, H264FrameQueue.apply]
    | hasSps => exact ih q triggered
    | hasPps => exact ih q triggered

/-- With `mutex_` free, the members are those of the calls so far on a new queue. -/
theorem object_of_exec {as : List (MonitorObject.Action τ QueueCall)}
    {s : MonitorObject.State τ SharedQueue QueueCall Body QueueResult}
    (h : (threads τ).exec (threads τ).init as = some s) (hfree : s.mutex = none) :
    s.object =
      ⟨H264FrameQueue.new.run ((inOrder as).flatMap fun c => c.2.ops),
        H264FrameQueue.new.woken ((inOrder as).flatMap fun c => c.2.ops)⟩ := by
  have hseq := sequential_eq (inOrder as) H264FrameQueue.new []
  rw [List.nil_append] at hseq
  exact ((MonitorObject.linearizable implements h).1 hfree).trans hseq

/-- **The one-step view of the queue is right.** In every interleaving of any number of threads,
statement by statement, the calls act as the one-step member functions in the order in which they
took `mutex_`: whenever `mutex_` is free the members are those of these calls on a new queue and the
`triggerEvent` calls made are theirs, and each thread is returned what they return to it. That order
respects real time: at every cut of the run the calls in effect by then come first, all that have
returned are among them, and only calls that have been made are. -/
theorem queue_linearizable {as : List (MonitorObject.Action τ QueueCall)}
    {s : MonitorObject.State τ SharedQueue QueueCall Body QueueResult}
    (h : (threads τ).exec (threads τ).init as = some s) :
    let ops := (inOrder as).flatMap fun c => c.2.ops
    (s.mutex = none →
        s.object = ⟨H264FrameQueue.new.run ops, H264FrameQueue.new.woken ops⟩) ∧
      (∀ t, returnedTo t as <+: (answers (inOrder as)).flatMap (MonitorObject.ofThread t)) ∧
      ∀ bs cs, as = bs ++ cs → inOrder bs <+: inOrder as ∧
        ∀ t, (returnedTo t bs).length ≤ ((inOrder bs).flatMap (MonitorObject.ofThread t)).length ∧
          (inOrder bs).flatMap (MonitorObject.ofThread t) <+: calledBy t bs := by
  intro ops
  refine ⟨object_of_exec h, fun t => ((MonitorObject.linearizable implements h).2 t).1, ?_⟩
  rintro bs cs rfl
  obtain ⟨hfirst, hcut⟩ := MonitorObject.order_at_cut implements h
  obtain ⟨u, hu, -⟩ := Machine.exec_append_iff.mp h
  exact ⟨hfirst, fun t => ⟨(hcut t).1, ((MonitorObject.linearizable implements hu).2 t).2⟩⟩

/-- Thread 1 waits at the lock for its pop while thread 0 pushes an SPS, statement by statement. -/
def contended : List (MonitorObject.Action Nat QueueCall) :=
  [.call 0 (.op (.pushAnnexBFrame (some [0, 0, 1, 0x67]) 7)), .call 1 (.op .popNalu), .lock 0] ++
    List.replicate 3 (MonitorObject.Action.stmt 0) ++ [.call 2 .hasSps] ++
    List.replicate 4 (MonitorObject.Action.stmt 0) ++
    [.unlock 0, .lock 1, .stmt 1, .stmt 1, .unlock 1, .ret 1, .ret 0]

theorem contended_linearizable :
    ∃ s, (threads Nat).exec (threads Nat).init contended = some s ∧
      s.object = ⟨H264FrameQueue.new.run
        [.pushAnnexBFrame (some [0, 0, 1, 0x67]) 7, .popNalu], []⟩ ∧
      returnedTo 1 contended = [.nalu (some ⟨[0x67], ⟨0, 7⟩⟩)] ∧
      returnedTo 1 contended <+:
        (answers (inOrder contended)).flatMap (MonitorObject.ofThread 1) := by
  have hrun : (threads Nat).exec (threads Nat).init contended = some _ := rfl
  obtain ⟨hobject, hreturned, -⟩ := queue_linearizable hrun
  exact ⟨_, hrun, hobject rfl, rfl, hreturned 1⟩

/-! ## First in, first out between threads -/

/-- The NALUs that the calls of a run produce, each with the thread that pushes it. -/
def pushedBy (as : List (MonitorObject.Action τ QueueCall)) : List (τ × Nalu) :=
  MonitorObject.labelled QueueCall.produced (inOrder as)

/-- The NALUs that `t` has obtained from `popNalu`. -/
def obtainedBy (t : τ) (as : List (MonitorObject.Action τ QueueCall)) : List Nalu :=
  (returnedTo t as).flatMap QueueResult.popped

/-- Two lists of the same items under different labels. -/
theorem exists_pairing {α β γ : Type} :
    ∀ {l : List (α × γ)} {l' : List (β × γ)}, l.map Prod.snd = l'.map Prod.snd →
      ∃ z : List (α × β × γ), z.map (fun x => (x.1, x.2.2)) = l ∧ z.map Prod.snd = l'
  | [], [], _ => ⟨[], rfl, rfl⟩
  | [], _ :: _, h => by cases h
  | _ :: _, [], h => by cases h
  | p :: l, p' :: l', h => by
    obtain ⟨hhead, htail⟩ := List.cons.inj h
    obtain ⟨z, rfl, rfl⟩ := exists_pairing htail
    exact ⟨(p.1, p') :: z, by simp [← hhead], rfl⟩

omit [DecidableEq τ] in
/-- The pops of a list of calls obtain a subsequence of what its pushes produce. -/
theorem popped_sublist_produced (calls : List (τ × QueueCall)) :
    ((answers calls).flatMap fun r => r.2.popped).Sublist
      (calls.flatMap fun c => c.2.produced) := by
  obtain ⟨-, hitems, hpops⟩ := H264FrameQueue.run_history (calls.flatMap fun c => c.2.ops)
  have hsub := DropOldest.run_pops_sublist H264FrameQueue.capacity_pos
    ((calls.flatMap fun c => c.2.ops).flatMap H264FrameQueue.abstractOps)
  rw [← H264FrameQueue.history, hpops, hitems, List.flatMap_assoc] at hsub
  rw [answers, new, popped_answers]
  exact hsub

/-- **First in, first out between threads.** In every interleaving there is a list of who obtained
what from whom: it lists exactly what the pops are answered when the calls are made one after the
other in the order of `mutex_`; each thread has obtained what it lists for it (the last of it may
not have returned yet); it is a subsequence of what all threads have pushed, in that order, so
nothing is obtained twice; and the NALUs in it that one thread pushed are a subsequence of what that
thread pushed, in the order of its own calls. -/
theorem fifo_between_threads {as : List (MonitorObject.Action τ QueueCall)}
    {s : MonitorObject.State τ SharedQueue QueueCall Body QueueResult}
    (h : (threads τ).exec (threads τ).init as = some s) :
    ∃ handed : List (τ × τ × Nalu),
      handed.map (fun x => (x.1, x.2.2)) =
        MonitorObject.labelled QueueResult.popped (answers (inOrder as)) ∧
      (∀ t, obtainedBy t as <+: (handed.flatMap (MonitorObject.ofThread t)).map Prod.snd) ∧
      (handed.map Prod.snd).Sublist (pushedBy as) ∧
      ∀ t, ((handed.map Prod.snd).flatMap (MonitorObject.ofThread t)).Sublist
        ((calledBy t as).flatMap QueueCall.produced) := by
  have hthreads : ∀ t,
      returnedTo t as <+: (answers (inOrder as)).flatMap (MonitorObject.ofThread t) ∧
        (inOrder as).flatMap (MonitorObject.ofThread t) <+: calledBy t as :=
    (MonitorObject.linearizable implements h).2
  -- what is obtained is a subsequence of what is pushed: pair the two up
  have hsub := popped_sublist_produced (inOrder as)
  rw [← MonitorObject.map_snd_labelled, ← MonitorObject.map_snd_labelled, ← pushedBy] at hsub
  obtain ⟨pushes, hpushes, hsame⟩ := List.sublist_map_iff.mp hsub
  obtain ⟨handed, hobtained, hhanded⟩ := exists_pairing hsame
  refine ⟨handed, hobtained, fun t => ?_, hhanded ▸ hpushes, fun t => ?_⟩
  · obtain ⟨pending, hpending⟩ := (hthreads t).1
    rw [← MonitorObject.map_ofThread, hobtained, MonitorObject.labelled_ofThread, ← hpending,
      List.flatMap_append]
    exact List.prefix_append ..
  · have hpushed : (pushedBy as).flatMap (MonitorObject.ofThread t) <+:
        (calledBy t as).flatMap QueueCall.produced := by
      obtain ⟨waiting, hwaiting⟩ := (hthreads t).2
      rw [pushedBy, MonitorObject.labelled_ofThread, ← hwaiting, List.flatMap_append]
      exact List.prefix_append ..
    rw [hhanded]
    exact (hpushes.flatMap _).trans hpushed.sublist

/-- Two threads push and two pop, all calls begun before the first of them takes `mutex_`. -/
def crossing : List (MonitorObject.Action Nat QueueCall) :=
  [.call 0 (.op (.pushAnnexBFrame (some [0, 0, 1, 0x67]) 7)), .call 1 (.op .popNalu),
    .call 2 (.op (.pushAnnexBFrame (some [0, 0, 1, 0x65]) 40)), .call 3 (.op .popNalu), .lock 2] ++
    List.replicate 7 (MonitorObject.Action.stmt 2) ++ [.unlock 2, .lock 0] ++
    List.replicate 7 (MonitorObject.Action.stmt 0) ++
    [.unlock 0, .lock 3, .stmt 3, .stmt 3, .unlock 3, .lock 1, .stmt 1, .stmt 1, .unlock 1,
      .ret 1, .ret 3]

/-- Whoever pushed first is popped from first. -/
theorem crossing_fifo :
    obtainedBy 1 crossing = [⟨[0x67], ⟨0, 7⟩⟩] ∧ obtainedBy 3 crossing = [⟨[0x65], ⟨0, 40⟩⟩] ∧
      ∃ handed : List (Nat × Nat × Nalu),
        handed.map (fun x => (x.1, x.2.2)) = [(3, ⟨[0x65], ⟨0, 40⟩⟩), (1, ⟨[0x67], ⟨0, 7⟩⟩)] ∧
        (handed.map Prod.snd).Sublist [(2, ⟨[0x65], ⟨0, 40⟩⟩), (0, ⟨[0x67], ⟨0, 7⟩⟩)] := by
  have hrun : (threads Nat).exec (threads Nat).init crossing = some _ := rfl
  obtain ⟨handed, hpops, -, hpushes, -⟩ := fifo_between_threads hrun
  exact ⟨rfl, rfl, handed, hpops, hpushes⟩

/-! ## `mutex_` is never held for long -/

/-- A bound on the statements that are left of a body: every NALU takes six at most and adds one
NALU to evict, every NALU that is queued may have to be evicted, every reader is woken. -/
def cost (s : SharedQueue) : Body → Nat
  | .pushAnnexBFrame _ nals _ =>
    s.queue.readers.length + s.queue.queue.length + 6 * nals.length + 8
  | .forNals _ left _ => s.queue.readers.length + s.queue.queue.length + 6 * left.length + 2
  | .pushPureNaluLocked _ _ left _ =>
    s.queue.readers.length + s.queue.queue.length + 6 * left.length + 7
  | .whileFull _ _ left _ => s.queue.readers.length + s.queue.queue.length + 6 * left.length + 6
  | .pushBack _ _ left _ => s.queue.readers.length + s.queue.queue.length + 6 * left.length + 5
  | .wakeReadersLocked i => s.queue.readers.length - i + 1
  | .popNalu => 1
  | _ => 0

theorem stmt_maxQueuedNalus (s : SharedQueue) (body : Body) :
    (s.stmt body).1.queue.maxQueuedNalus = s.queue.maxQueuedNalus := by
  cases body with
  | pushAnnexBFrame data nals time => simp only [stmt]; split <;> rfl
  | forNals data left time => cases left <;> rfl
  | pushPureNaluLocked nal data left time =>
    cases nal with
    | nil => rfl
    | cons byte nal =>
      simp only [stmt]
      split
      · rfl
      · split <;> rfl
  | whileFull nal data left time => simp only [stmt]; split <;> rfl
  | wakeReadersLocked i => simp only [stmt]; split <;> rfl
  | popNalu => simp only [stmt]; split <;> rfl
  | _ => rfl

theorem stmt_cost {s : SharedQueue} (hmax : 0 < s.queue.maxQueuedNalus) {body body' : Body}
    (h : (s.stmt body).2 = .inl body') : (s.stmt body).1.cost body' < s.cost body := by
  cases body with
  | pushAnnexBFrame data nals time =>
    by_cases hnals : nals.isEmpty
    · simp only [stmt, hnals, if_true, Sum.inl.injEq] at h ⊢
      subst h
      simp only [cost, List.length_nil]
      omega
    · simp only [stmt, hnals, Bool.false_eq_true, if_false, Sum.inl.injEq] at h ⊢
      subst h
      simp only [cost]
      omega
  | forNals data left time =>
    cases left with
    | nil =>
      obtain rfl := Sum.inl.inj h
      simp only [stmt, cost, List.length_nil]
      omega
    | cons nal left =>
      obtain rfl := Sum.inl.inj h
      simp only [stmt, cost, List.length_cons]
      omega
  | pushPureNaluLocked nal data left time =>
    cases nal with
    | nil =>
      obtain rfl := Sum.inl.inj h
      simp only [stmt, cost]
      omega
    | cons byte nal =>
      obtain rfl := Sum.inl.inj h
      simp only [stmt, cost]
      split
      · simp
      · split <;> simp
  | whileFull nal data left time =>
    by_cases hfull : s.queue.queue.length ≥ s.queue.maxQueuedNalus
    · simp only [stmt, hfull, if_true, Sum.inl.injEq] at h ⊢
      subst h
      simp only [cost, setQueue, List.length_tail]
      omega
    · simp only [stmt, hfull, if_false, Sum.inl.injEq] at h ⊢
      subst h
      simp only [cost]
      omega
  | pushBack nal data left time =>
    obtain rfl := Sum.inl.inj h
    simp only [stmt, cost, setQueue, List.length_append, List.length_singleton]
    omega
  | wakeReadersLocked i =>
    cases hreader : s.queue.readers[i]? with
    | none => simp [stmt, hreader] at h
    | some reader =>
      obtain ⟨hi, -⟩ := List.getElem?_eq_some_iff.mp hreader
      simp only [stmt, hreader, Sum.inl.injEq] at h ⊢
      subst h
      simp only [cost]
      omega
  | popNalu =>
    cases hqueue : s.queue.queue with
    | nil => simp [stmt, hqueue] at h
    | cons nalu left =>
      simp only [stmt, hqueue, Sum.inl.injEq] at h ⊢
      subst h
      simp [cost]
  | _ => cases h

/-- With a positive `maxQueuedNalus_` every body comes to its end. -/
theorem terminating : monitor.Terminating (fun s => 0 < s.queue.maxQueuedNalus) cost where
  keep s body hmax := by
    rw [monitor, stmt_maxQueuedNalus]
    exact hmax
  decrease _ _ _ hmax h := stmt_cost hmax h

/-- The NALUs that `splitAnnexB` finds in the buffer of a call. -/
def spans : QueueCall → Nat
  | .op (.pushAnnexBFrame (some data) _) => (splitAnnexB data).length
  | _ => 0

theorem cost_enter {s : SharedQueue} {call : QueueCall} {body : Body}
    (h : enter call = .inl body) :
    s.cost body ≤ s.queue.readers.length + s.queue.queue.length + 6 * spans call + 8 := by
  cases call with
  | op op =>
    cases op with
    | pushAnnexBFrame data timestampUs =>
      cases data with
      | none => cases h
      | some data =>
        by_cases hdata : data.length = 0
        · simp [enter, hdata] at h
        · simp only [enter, hdata, if_false, Sum.inl.injEq] at h
          subst h
          exact Nat.le_refl _
    | registerReader scheduler triggerId clientData =>
      cases scheduler with
      | none => cases h
      | some scheduler =>
        by_cases hid : triggerId = 0
        · simp [enter, hid] at h
        · simp only [enter, hid, if_false, Sum.inl.injEq] at h
          subst h
          exact Nat.zero_le _
    | popNalu =>
      obtain rfl := Sum.inl.inj h
      simp only [cost]
      omega
    | clear =>
      obtain rfl := Sum.inl.inj h
      exact Nat.zero_le _
    | unregisterReader triggerId =>
      obtain rfl := Sum.inl.inj h
      exact Nat.zero_le _
  | hasSps =>
    obtain rfl := Sum.inl.inj h
    exact Nat.zero_le _
  | hasPps =>
    obtain rfl := Sum.inl.inj h
    exact Nat.zero_le _

/-- Whole calls leave at most 300 NALUs. -/
theorem queue_length_le (ops : List QueueOp) : (H264FrameQueue.new.run ops).queue.length ≤ 300 := by
  obtain ⟨href, -, -⟩ := H264FrameQueue.run_history ops
  have hbounded := (DropOldest.run_sound H264FrameQueue.capacity_pos
    (ops.flatMap H264FrameQueue.abstractOps)).bounded
  rw [href.queue, List.length_map]
  exact hbounded

/-- **Nobody waits long for `mutex_`.** A thread that has locked it for a call makes at most
`309 + 6 * n + r` statements before it unlocks, whatever the others do meanwhile, where `n` is the
number of NALUs that `splitAnnexB` found for it and `r` the number of readers; and until then it is
never kept from its next statement. -/
theorem mutex_held_boundedly {as bs : List (MonitorObject.Action τ QueueCall)} {t : τ}
    {call : QueueCall} {body : Body}
    {s u : MonitorObject.State τ SharedQueue QueueCall Body QueueResult}
    (h : (threads τ).exec (threads τ).init as = some s) (ht : s.phase t = .locking call body)
    (hrun : (threads τ).exec s (.lock t :: bs) = some u)
    (hheld : MonitorObject.Action.unlock t ∉ bs) :
    bs.countP (MonitorObject.Action.isStmt t) ≤
        309 + 6 * spans call + s.object.queue.readers.length ∧
      ((∃ v, (threads τ).step u (.stmt t) = some v) ∨
        ∃ v, (threads τ).step u (.unlock t) = some v) := by
  have hs := MonitorObject.explained_of_exec implements h
  obtain ⟨s', hs', hbs⟩ := Machine.exec_cons_iff.mp hrun
  have hlock : monitor.step s (.lock t) = some s' := hs'
  have hexclusive := hs.exclusive.step monitor hlock
  have henter := hs.locking t call body ht
  cases MonitorObject.Transition.of_step monitor hlock with
  | @lock _ _ body' hphase hfree =>
    obtain ⟨-, rfl⟩ := MonitorObject.Phase.locking.inj (ht.symm.trans hphase)
    -- nobody was inside, so the queue is one that whole calls have left
    have hqueue : s.object.queue =
        H264FrameQueue.new.run ((inOrder as).flatMap fun c => c.2.ops) :=
      congrArg SharedQueue.queue (object_of_exec h hfree)
    have hlength := queue_length_le ((inOrder as).flatMap fun c => c.2.ops)
    rw [← hqueue] at hlength
    have hmax : 0 < s.object.queue.maxQueuedNalus := by
      rw [hqueue, (H264FrameQueue.run_history _).1.maxQueuedNalus]
      decide
    have hinside : ({ s.setPhase t (.inside (.inl body)) with mutex := some t } :
        MonitorObject.State τ SharedQueue QueueCall Body QueueResult).phase t =
          .inside (.inl body) := Function.update_self ..
    obtain ⟨hcount, hgoes⟩ := terminating.exec hexclusive hmax hinside hheld hbs
    have hcost := cost_enter (s := s.object) henter
    refine ⟨?_, hgoes⟩
    simp only [MonitorObject.remaining, MonitorObject.State.setPhase] at hcount
    omega

theorem contended_held_boundedly :
    ∃ s u, (threads Nat).exec (threads Nat).init (contended.take 2) = some s ∧
      (threads Nat).exec s (.lock 0 :: (contended.take 11).drop 3) = some u ∧
      ((contended.take 11).drop 3).countP (MonitorObject.Action.isStmt 0) ≤
        309 + 6 * spans (.op (.pushAnnexBFrame (some [0, 0, 1, 0x67]) 7)) +
          s.object.queue.readers.length ∧
      ((∃ v, (threads Nat).step u (.stmt 0) = some v) ∨
        ∃ v, (threads Nat).step u (.unlock 0) = some v) := by
  have hbegin : (threads Nat).exec (threads Nat).init (contended.take 2) = some _ := rfl
  have hheld : MonitorObject.Action.unlock 0 ∉ (contended.take 11).drop 3 := by simp [contended]
  exact ⟨_, _, hbegin, rfl, mutex_held_boundedly hbegin rfl rfl hheld⟩

end SharedQueue

end RtspPush
