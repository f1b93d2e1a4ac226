import RtspPush.AnnexB.Encode
import RtspPush.Lib.Machine
import RtspPush.Queue.Basic

/-!
# What the queue operations do

One specification for each operation of `H264FrameQueue`, so that no later proof unfolds them. A
push is the fold of `pushPureNaluLocked` over `producedNalus` (`pushAnnexBFrame_fst`); with NALUs
that are not empty that appends them one at a time behind the eviction loop, which drops what
exceeds the capacity from the front (`evict_eq_drop`). `producedNalus_canonical` reads off the
produced NALUs from the canonical reading of the buffer.
-/

namespace RtspPush

open Lib

namespace H264FrameQueue

/-! ## Eviction and `pushPureNaluLocked` -/

theorem evict_eq_drop (cap : Nat) (l : List Nalu) :
    evict cap l = l.drop (l.length + 1 - cap) := by
  induction l with
  | nil => simp [evict]
  | cons nalu rest ih =>
    unfold evict
    split
    · next hfull =>
      have hexcess : (nalu :: rest).length + 1 - cap = rest.length + 1 - cap + 1 := by
        simp only [List.length_cons] at hfull ⊢
        omega
      rw [ih, hexcess, List.drop_succ_cons]
    · next hroom =>
      have hexcess : (nalu :: rest).length + 1 - cap = 0 := by
        simp only [List.length_cons] at hroom ⊢
        omega
      rw [hexcess, List.drop_zero]

variable (q : H264FrameQueue)

/-- A NALU that is not empty is queued behind the eviction; only the parameter-set caches may
change besides. -/
theorem pushPureNaluLocked_eq {data : List UInt8} (h : data ≠ []) (time : Timeval) :
    ∃ sps pps, q.pushPureNaluLocked data time =
      { q with
        queue := evict q.maxQueuedNalus q.queue ++ [⟨data, time⟩]
        sps := sps
        pps := pps } := by
  cases data with
  | nil => exact absurd rfl h
  | cons byte rest =>
    simp only [pushPureNaluLocked]
    split
    · exact ⟨_, _, rfl⟩
    · split
      · exact ⟨_, _, rfl⟩
      · exact ⟨_, _, rfl⟩

theorem pushPureNaluLocked_queue {data : List UInt8} (h : data ≠ []) (time : Timeval) :
    (q.pushPureNaluLocked data time).queue =
      evict q.maxQueuedNalus q.queue ++ [⟨data, time⟩] := by
  obtain ⟨_, _, heq⟩ := q.pushPureNaluLocked_eq h time
  rw [heq]

@[simp] theorem pushPureNaluLocked_readers (data : List UInt8) (time : Timeval) :
    (q.pushPureNaluLocked data time).readers = q.readers := by
  by_cases h : data = []
  · rw [h]
    rfl
  · obtain ⟨_, _, heq⟩ := q.pushPureNaluLocked_eq h time
    rw [heq]

@[simp] theorem pushPureNaluLocked_maxQueuedNalus (data : List UInt8) (time : Timeval) :
    (q.pushPureNaluLocked data time).maxQueuedNalus = q.maxQueuedNalus := by
  by_cases h : data = []
  · rw [h]
    rfl
  · obtain ⟨_, _, heq⟩ := q.pushPureNaluLocked_eq h time
    rw [heq]

/-- Push NALUs one after the other, all with one presentation time. -/
def pushAll (time : Timeval) (nals : List (List UInt8)) : H264FrameQueue :=
  nals.foldl (fun q nal => q.pushPureNaluLocked nal time) q

@[simp] theorem pushAll_readers (time : Timeval) (nals : List (List UInt8)) :
    (q.pushAll time nals).readers = q.readers := by
  induction nals generalizing q with
  | nil => rfl
  | cons nal nals ih =>
    rw [← pushPureNaluLocked_readers q nal time]
    exact ih _

@[simp] theorem pushAll_maxQueuedNalus (time : Timeval) (nals : List (List UInt8)) :
    (q.pushAll time nals).maxQueuedNalus = q.maxQueuedNalus := by
  induction nals generalizing q with
  | nil => rfl
  | cons nal nals ih =>
    rw [← pushPureNaluLocked_maxQueuedNalus q nal time]
    exact ih _

/-! ## `pushAnnexBFrame` -/

theorem nothingToPush_iff {data : Option (List UInt8)} :
    nothingToPush data = true ↔ data = none ∨ data = some [] := by
  cases data <;> simp [nothingToPush]

/-- **A push is the fold of `pushPureNaluLocked`** over the NALUs it produces. -/
theorem pushAnnexBFrame_fst (data : Option (List UInt8)) (timestampUs : UInt64) :
    (q.pushAnnexBFrame data timestampUs).1 =
      q.pushAll (timestampToTimeval timestampUs) (producedNalus data) := by
  cases data with
  | none => rfl
  | some data =>
    unfold pushAnnexBFrame producedNalus
    by_cases hempty : data = []
    · simp [hempty, pushAll]
    · by_cases hnone : splitAnnexB data = []
      · simp [hempty, hnone, pushAll]
      · simp [hempty, hnone, pushAll, List.foldl_map]

/-- A push that does not return early wakes every reader, once and in order. -/
theorem pushAnnexBFrame_snd (data : Option (List UInt8)) (timestampUs : UInt64) :
    (q.pushAnnexBFrame data timestampUs).2 = if nothingToPush data then [] else q.readers := by
  cases data with
  | none => rfl
  | some data =>
    have hreaders := pushAll_readers q (timestampToTimeval timestampUs)
      ((splitAnnexB data).map (NalSpan.bytes data))
    unfold pushAll at hreaders
    rw [List.foldl_map] at hreaders
    unfold pushAnnexBFrame nothingToPush
    by_cases hempty : data = []
    · simp [hempty]
    · by_cases hnone : splitAnnexB data = []
      · simp [hempty, hnone, wakeReadersLocked]
      · simp [hempty, hnone, wakeReadersLocked, hreaders]

@[simp] theorem pushAnnexBFrame_readers (data : Option (List UInt8)) (timestampUs : UInt64) :
    (q.pushAnnexBFrame data timestampUs).1.readers = q.readers := by
  rw [pushAnnexBFrame_fst, pushAll_readers]

@[simp] theorem pushAnnexBFrame_maxQueuedNalus (data : Option (List UInt8))
    (timestampUs : UInt64) :
    (q.pushAnnexBFrame data timestampUs).1.maxQueuedNalus = q.maxQueuedNalus := by
  rw [pushAnnexBFrame_fst, pushAll_maxQueuedNalus]

/-! ## The NALUs a push produces -/

/-- The NALUs of a buffer, from its canonical reading. -/
theorem producedNalus_canonical {pre : List UInt8} {us : List StreamUnit}
    (h : Canonical pre us) :
    producedNalus (some (pre ++ assemble us)) =
      if pre ++ assemble us = [] then []
      else if (us.map StreamUnit.payload).filter (· ≠ []) = [] then [pre ++ assemble us]
      else (us.map StreamUnit.payload).filter (· ≠ []) := by
  have hbytes := splitAnnexB_bytes h
  have hnil : splitAnnexB (pre ++ assemble us) = [] ↔
      (us.map StreamUnit.payload).filter (· ≠ []) = [] := by
    rw [← hbytes, List.map_eq_nil_iff]
  simp only [producedNalus, hnil, hbytes]

/-- Of an encoding, a push produces the NALUs that were encoded. -/
theorem producedNalus_encode {us : List AnnexBUnit} (h : us ≠ []) :
    producedNalus (some (encode us)) = us.map AnnexBUnit.nal := by
  have hbytes := splitAnnexB_encode_bytes us
  have hspans : splitAnnexB (encode us) ≠ [] := by
    intro hnil
    rw [hnil, List.map_nil] at hbytes
    exact h (List.map_eq_nil_iff.mp hbytes.symm)
  simp only [producedNalus]
  rw [if_neg (encode_ne_nil h), if_neg hspans, hbytes]

/-- No produced NALU is empty. -/
theorem producedNalus_ne_nil {data : Option (List UInt8)} {nal : List UInt8}
    (h : nal ∈ producedNalus data) : nal ≠ [] := by
  cases data with
  | none => simp [producedNalus] at h
  | some data =>
    obtain ⟨pre, us, rfl, hcanon⟩ := exists_canonical data
    rw [producedNalus_canonical hcanon] at h
    split at h
    · simp at h
    · next hne =>
      split at h
      · rw [List.mem_singleton.mp h]
        exact hne
      · simpa using (List.mem_filter.mp h).2

/-- A push of anything produces at least one NALU. -/
theorem producedNalus_eq_nil_iff {data : Option (List UInt8)} :
    producedNalus data = [] ↔ nothingToPush data = true := by
  cases data with
  | none => simp [producedNalus, nothingToPush]
  | some data =>
    unfold producedNalus nothingToPush
    by_cases hempty : data = []
    · simp [hempty]
    · by_cases hnone : splitAnnexB data = [] <;> simp [hempty, hnone]

/-- What is queued behind pushes are the last of what was queued and what has been pushed. -/
theorem pushAll_queue_suffix {time : Timeval} :
    ∀ {nals : List (List UInt8)} {q : H264FrameQueue}, (∀ nal ∈ nals, nal ≠ []) →
      (q.pushAll time nals).queue <:+ q.queue ++ nals.map fun nal => ⟨nal, time⟩
  | [], _, _ => by simp [pushAll]
  | nal :: nals, q, hne => by
    have hqueue := pushPureNaluLocked_queue q (hne nal List.mem_cons_self) time
    have hrest : ((q.pushPureNaluLocked nal time).pushAll time nals).queue <:+
        (q.pushPureNaluLocked nal time).queue ++ nals.map fun nal => ⟨nal, time⟩ :=
      pushAll_queue_suffix fun x hx => hne x (List.mem_cons_of_mem nal hx)
    rw [hqueue, evict_eq_drop, List.append_assoc] at hrest
    exact hrest.trans (List.suffix_append_self_iff.mpr (List.drop_suffix _ _))

/-- What is queued behind a push are the last of what was queued and the NALUs it produced. -/
theorem pushAnnexBFrame_queue_suffix (data : Option (List UInt8)) (timestampUs : UInt64) :
    (q.pushAnnexBFrame data timestampUs).1.queue <:+ q.queue ++ produced data timestampUs := by
  rw [pushAnnexBFrame_fst]
  exact pushAll_queue_suffix fun nal hnal => producedNalus_ne_nil hnal

/-- What is queued after a push was queued before or is one of the NALUs it produced. -/
theorem mem_pushAnnexBFrame_queue {data : Option (List UInt8)} {timestampUs : UInt64}
    {nalu : Nalu} (h : nalu ∈ (q.pushAnnexBFrame data timestampUs).1.queue) :
    nalu ∈ q.queue ∨ nalu ∈ produced data timestampUs :=
  List.mem_append.mp ((q.pushAnnexBFrame_queue_suffix data timestampUs).subset h)

/-- The last NALU of a push is still queued when the push returns. -/
theorem getLast_mem_pushAnnexBFrame_queue {data : Option (List UInt8)} {nal : List UInt8}
    (h : (producedNalus data).getLast? = some nal) (timestampUs : UInt64) :
    ⟨nal, timestampToTimeval timestampUs⟩ ∈ (q.pushAnnexBFrame data timestampUs).1.queue := by
  have hne : nal ≠ [] := producedNalus_ne_nil (List.mem_of_getLast? h)
  rw [pushAnnexBFrame_fst, ← List.dropLast_append_getLast? nal h, pushAll, List.foldl_append]
  simp only [List.foldl_cons, List.foldl_nil]
  rw [pushPureNaluLocked_queue _ hne]
  simp

/-- A push never leaves the queue empty, unless there was nothing to push and nothing queued. -/
theorem pushAnnexBFrame_queue_ne_nil {data : Option (List UInt8)} {timestampUs : UInt64}
    (h : q.queue ≠ [] ∨ nothingToPush data = false) :
    (q.pushAnnexBFrame data timestampUs).1.queue ≠ [] := by
  cases hlast : (producedNalus data).getLast? with
  | none =>
    have hnone : producedNalus data = [] := List.getLast?_eq_none_iff.mp hlast
    have hnothing := producedNalus_eq_nil_iff.mp hnone
    rw [pushAnnexBFrame_fst, hnone]
    exact h.resolve_right (by simp [hnothing])
  | some nal => exact List.ne_nil_of_mem (q.getLast_mem_pushAnnexBFrame_queue hlast timestampUs)

/-- While there is room, eviction drops nothing. -/
theorem pushAll_queue_of_room {time : Timeval} :
    ∀ {nals : List (List UInt8)} {q : H264FrameQueue}, (∀ nal ∈ nals, nal ≠ []) →
      q.queue.length + nals.length ≤ q.maxQueuedNalus →
        (q.pushAll time nals).queue = q.queue ++ nals.map fun nal => ⟨nal, time⟩
  | [], _, _, _ => by simp [pushAll]
  | nal :: nals, q, hne, hroom => by
    have hhead := hne nal List.mem_cons_self
    simp only [List.length_cons] at hroom
    have hqueue : (q.pushPureNaluLocked nal time).queue = q.queue ++ [⟨nal, time⟩] := by
      have hexcess : q.queue.length + 1 - q.maxQueuedNalus = 0 := by omega
      rw [pushPureNaluLocked_queue q hhead, evict_eq_drop, hexcess, List.drop_zero]
    have hrest : ((q.pushPureNaluLocked nal time).pushAll time nals).queue =
        (q.pushPureNaluLocked nal time).queue ++ nals.map fun nal => ⟨nal, time⟩ := by
      refine pushAll_queue_of_room (fun x hx => hne x (List.mem_cons_of_mem nal hx)) ?_
      rw [hqueue, pushPureNaluLocked_maxQueuedNalus, List.length_append]
      simp only [List.length_cons, List.length_nil]
      omega
    rw [hqueue] at hrest
    simpa [pushAll] using hrest

/-- A push into a queue that has room for what it produces appends that. -/
theorem pushAnnexBFrame_queue_of_room {data : Option (List UInt8)}
    (hroom : q.queue.length + (producedNalus data).length ≤ q.maxQueuedNalus)
    (timestampUs : UInt64) :
    (q.pushAnnexBFrame data timestampUs).1.queue = q.queue ++ produced data timestampUs := by
  rw [pushAnnexBFrame_fst]
  exact pushAll_queue_of_room (fun nal hnal => producedNalus_ne_nil hnal) hroom

/-! ## Pop, clear and the readers -/

theorem popNalu_eq_none_iff : q.popNalu.1 = none ↔ q.queue = [] := by
  unfold popNalu
  split <;> simp_all

theorem popNalu_some {nalu : Nalu} (h : q.popNalu.1 = some nalu) :
    q.queue = nalu :: q.popNalu.2.queue := by
  unfold popNalu at h ⊢
  split at h
  · cases h
  · next hq =>
    cases h
    simp [hq]

@[simp] theorem popNalu_readers : q.popNalu.2.readers = q.readers := by
  unfold popNalu
  split <;> rfl

@[simp] theorem popNalu_maxQueuedNalus : q.popNalu.2.maxQueuedNalus = q.maxQueuedNalus := by
  unfold popNalu
  split <;> rfl

@[simp] theorem clear_queue : q.clear.queue = [] := rfl

@[simp] theorem clear_readers : q.clear.readers = q.readers := rfl

@[simp] theorem registerReader_queue (scheduler : Option SchedulerId)
    (triggerId : EventTriggerId) (clientData : ClientData) :
    (q.registerReader scheduler triggerId clientData).queue = q.queue := by
  unfold registerReader
  split
  · rfl
  · split <;> rfl

@[simp] theorem registerReader_maxQueuedNalus (scheduler : Option SchedulerId)
    (triggerId : EventTriggerId) (clientData : ClientData) :
    (q.registerReader scheduler triggerId clientData).maxQueuedNalus = q.maxQueuedNalus := by
  unfold registerReader
  split
  · rfl
  · split <;> rfl

@[simp] theorem unregisterReader_queue (triggerId : EventTriggerId) :
    (q.unregisterReader triggerId).queue = q.queue := rfl

/-- After `unregisterReader` exactly the readers with another trigger id are left. -/
theorem mem_unregisterReader {triggerId : EventTriggerId} {reader : Reader} :
    reader ∈ (q.unregisterReader triggerId).readers ↔
      reader ∈ q.readers ∧ reader.triggerId ≠ triggerId := by
  simp [unregisterReader]

end H264FrameQueue

/-! ## Runs of the queue -/

/-- A call of a member function of `H264FrameQueue`. -/
inductive QueueOp
  | pushAnnexBFrame (data : Option (List UInt8)) (timestampUs : UInt64)
  | popNalu
  | clear
  | registerReader (scheduler : Option SchedulerId) (triggerId : EventTriggerId)
      (clientData : ClientData)
  | unregisterReader (triggerId : EventTriggerId)
  deriving DecidableEq

namespace H264FrameQueue

def apply (q : H264FrameQueue) : QueueOp → H264FrameQueue
  | .pushAnnexBFrame data timestampUs => (q.pushAnnexBFrame data timestampUs).1
  | .popNalu => q.popNalu.2
  | .clear => q.clear
  | .registerReader scheduler triggerId clientData =>
    q.registerReader scheduler triggerId clientData
  | .unregisterReader triggerId => q.unregisterReader triggerId

/-- The NALU that a call returns, if it is a `popNalu` that returns true. -/
def returned (q : H264FrameQueue) : QueueOp → Option Nalu
  | .popNalu => q.popNalu.1
  | _ => none

/-- The queue as a machine: every call is enabled. -/
def machine : Machine H264FrameQueue QueueOp where
  init := new
  step q op := some (q.apply op)

@[simp] theorem machine_init : machine.init = new := rfl

@[simp] theorem machine_step (q : H264FrameQueue) (op : QueueOp) :
    machine.step q op = some (q.apply op) := rfl

/-- The queue after a list of calls. -/
def run (q : H264FrameQueue) (ops : List QueueOp) : H264FrameQueue := ops.foldl apply q

theorem exec_machine (q : H264FrameQueue) (ops : List QueueOp) :
    machine.exec q ops = some (q.run ops) := by
  induction ops generalizing q with
  | nil => rfl
  | cons op ops ih =>
    rw [Machine.exec, machine_step, Option.bind_some, ih]
    rfl

@[simp] theorem apply_maxQueuedNalus (q : H264FrameQueue) (op : QueueOp) :
    (q.apply op).maxQueuedNalus = q.maxQueuedNalus := by
  cases op <;> simp [apply, clear, unregisterReader]

end H264FrameQueue

end RtspPush
