import RtspPush.Lib.DropOldest
import RtspPush.Queue.Push

/-!
# The queue refines a bounded drop-oldest FIFO

`H264FrameQueue` keeps no numbers and no history. The abstract queue of `Lib.DropOldest` does:
a push produces its NALUs there one at a time, a pop and a clear are the same operations, and the
readers play no part. `run_history` is the refinement: after any run the two queues hold the same
NALUs and the pops returned the same ones, so `queue_history` reads off what happened to every
NALU ever produced.
-/

namespace RtspPush

open Lib DropOldest

namespace H264FrameQueue

/-- `maxQueuedNalus_` as the constructor sets it. -/
def capacity : Nat := new.maxQueuedNalus

theorem capacity_pos : 0 < capacity := by decide

/-- The abstract operations of a call. -/
def abstractOps : QueueOp → List (Op Nalu)
  | .pushAnnexBFrame data timestampUs =>
    (producedNalus data).map fun nal => .produce ⟨nal, timestampToTimeval timestampUs⟩
  | .popNalu => [.pop]
  | .clear => [.clear]
  | .registerReader .. => []
  | .unregisterReader _ => []

/-- The NALUs that a call produces. -/
def producedBy : QueueOp → List Nalu
  | .pushAnnexBFrame data timestampUs => produced data timestampUs
  | _ => []

/-- The abstract queue after a list of calls on a new queue. -/
def history (ops : List QueueOp) : History Nalu :=
  History.run capacity (ops.flatMap abstractOps)

/-- The NALUs that the `popNalu` calls of a run return, in order. -/
def returnedBy (q : H264FrameQueue) : List QueueOp → List Nalu
  | [] => []
  | op :: ops => (q.returned op).toList ++ (q.apply op).returnedBy ops

/-! ## The simulation -/

/-- The concrete queue holds the NALUs of the abstract one. -/
structure Refines (q : H264FrameQueue) (h : History Nalu) : Prop where
  queue : q.queue = h.queue.map Prod.snd
  maxQueuedNalus : q.maxQueuedNalus = capacity

theorem refines_new : Refines new (History.empty : History Nalu) := ⟨rfl, rfl⟩

/-- The abstract queue after the operations of one call. -/
def applyOps (h : History Nalu) (ops : List (Op Nalu)) : History Nalu :=
  ops.foldl (History.apply capacity) h

theorem Refines.produce {q : H264FrameQueue} {h : History Nalu} (hr : Refines q h)
    {nal : List UInt8} (hnal : nal ≠ []) (time : Timeval) :
    Refines (q.pushPureNaluLocked nal time) (h.produce capacity ⟨nal, time⟩) := by
  refine ⟨?_, ?_⟩
  · rw [pushPureNaluLocked_queue q hnal, evict_eq_drop, hr.queue, hr.maxQueuedNalus]
    simp [History.produce, List.map_drop]
  · rw [pushPureNaluLocked_maxQueuedNalus, hr.maxQueuedNalus]

theorem Refines.pushAll {q : H264FrameQueue} {h : History Nalu} {nals : List (List UInt8)}
    (hnals : ∀ nal ∈ nals, nal ≠ []) (time : Timeval) (hr : Refines q h) :
    Refines (q.pushAll time nals) (applyOps h (nals.map fun nal => .produce ⟨nal, time⟩)) := by
  induction nals generalizing q h with
  | nil => exact hr
  | cons nal nals ih =>
    obtain ⟨hnal, hnals⟩ := List.forall_mem_cons.mp hnals
    exact ih hnals (hr.produce hnal time)

/-- One call on both levels. -/
theorem Refines.apply {q : H264FrameQueue} {h : History Nalu} (hr : Refines q h) (op : QueueOp) :
    Refines (q.apply op) (applyOps h (abstractOps op)) := by
  cases op with
  | pushAnnexBFrame data timestampUs =>
    rw [H264FrameQueue.apply, pushAnnexBFrame_fst]
    exact hr.pushAll (fun nal hnal => producedNalus_ne_nil hnal) _
  | popNalu =>
    have hq := hr.queue
    refine ⟨?_, by simp [H264FrameQueue.apply, hr.maxQueuedNalus]⟩
    simp only [H264FrameQueue.apply, H264FrameQueue.popNalu, abstractOps, applyOps, List.foldl_cons,
      List.foldl_nil, History.apply, History.pop]
    cases hqueue : h.queue with
    | nil => simp [hq, hqueue]
    | cons p rest => simp [hq, hqueue]
  | clear => exact ⟨rfl, hr.maxQueuedNalus⟩
  | registerReader scheduler triggerId clientData =>
    exact ⟨by simpa [H264FrameQueue.apply, abstractOps, applyOps] using hr.queue,
      by simpa [H264FrameQueue.apply] using hr.maxQueuedNalus⟩
  | unregisterReader triggerId => exact ⟨hr.queue, hr.maxQueuedNalus⟩

/-! ## What one call adds to the history -/

theorem items_produce_all (time : Timeval) :
    ∀ (nals : List (List UInt8)) (h : History Nalu),
      (applyOps h (nals.map fun nal => .produce ⟨nal, time⟩)).items =
          h.items ++ nals.map (fun nal => ⟨nal, time⟩) ∧
        pops (applyOps h (nals.map fun nal => .produce ⟨nal, time⟩)).log = pops h.log
  | [], h => by simp [applyOps]
  | nal :: nals, h => by
    obtain ⟨hitems, hpops⟩ := items_produce_all time nals (h.produce capacity ⟨nal, time⟩)
    simp only [applyOps, List.map_cons, List.foldl_cons, History.apply] at hitems hpops ⊢
    rw [hitems, hpops]
    exact ⟨by simp [History.produce], pops_produce ..⟩

/-- A call adds to the items what it produces, and to the pops what it returns. -/
theorem items_apply {q : H264FrameQueue} {h : History Nalu} (hr : Refines q h) (op : QueueOp) :
    (applyOps h (abstractOps op)).items = h.items ++ producedBy op ∧
      (pops (applyOps h (abstractOps op)).log).map Prod.snd =
        (pops h.log).map Prod.snd ++ (q.returned op).toList := by
  cases op with
  | pushAnnexBFrame data timestampUs =>
    have hall := items_produce_all (timestampToTimeval timestampUs) (producedNalus data) h
    refine ⟨hall.1, ?_⟩
    rw [abstractOps, hall.2]
    exact (List.append_nil _).symm
  | popNalu =>
    have hq := hr.queue
    simp only [abstractOps, applyOps, List.foldl_cons, List.foldl_nil, History.apply, History.pop,
      producedBy, returned, H264FrameQueue.popNalu]
    cases hqueue : h.queue with
    | nil => simp [hq, hqueue]
    | cons p rest => simp [hq, hqueue, pops]
  | clear =>
    have hpops := pops_clear h
    exact ⟨by simp [abstractOps, applyOps, History.apply, History.clear, producedBy],
      by simp [abstractOps, applyOps, History.apply, hpops, returned]⟩
  | registerReader scheduler triggerId clientData =>
    simp [abstractOps, applyOps, producedBy, returned]
  | unregisterReader triggerId => simp [abstractOps, applyOps, producedBy, returned]

/-- **The queue refines the abstract one**, over every run. -/
theorem run_refines :
    ∀ (ops : List QueueOp) {q : H264FrameQueue} {h : History Nalu}, Refines q h →
      Refines (q.run ops) (applyOps h (ops.flatMap abstractOps)) ∧
        (applyOps h (ops.flatMap abstractOps)).items = h.items ++ ops.flatMap producedBy ∧
        (pops (applyOps h (ops.flatMap abstractOps)).log).map Prod.snd =
          (pops h.log).map Prod.snd ++ q.returnedBy ops
  | [], q, h, hr => by
    refine ⟨hr, ?_, ?_⟩ <;> simp [applyOps, returnedBy]
  | op :: ops, q, h, hr => by
    obtain ⟨hitems, hpops⟩ := items_apply hr op
    obtain ⟨href, hitems', hpops'⟩ := run_refines ops (hr.apply op)
    have happ : applyOps h ((op :: ops).flatMap abstractOps) =
        applyOps (applyOps h (abstractOps op)) (ops.flatMap abstractOps) := by
      simp [applyOps, List.foldl_append]
    rw [happ]
    refine ⟨href, ?_, ?_⟩
    · rw [hitems', hitems, List.flatMap_cons, List.append_assoc]
    · rw [hpops', hpops, returnedBy, List.append_assoc]

theorem run_history (ops : List QueueOp) :
    Refines (new.run ops) (history ops) ∧ (history ops).items = ops.flatMap producedBy ∧
      (pops (history ops).log).map Prod.snd = new.returnedBy ops := by
  have h := run_refines ops refines_new
  exact h

/-- **The queue over a whole run.** `h` numbers all NALUs produced so far in order of production
and logs what became of each; it holds the same NALUs as the queue and its pops are what
`popNalu` returned. The queue never exceeds 300 NALUs and is a run of consecutive numbers up to
the latest one; the popped numbers increase and each pop has the bytes and the time its number was
produced with; and a NALU that is not queued was popped, was cleared, or was dropped after the
next 300 had been produced and before any of those was popped. -/
theorem queue_history (ops : List QueueOp) :
    let q := new.run ops
    let h := history ops
    (q.queue = h.queue.map Prod.snd ∧ h.items = ops.flatMap producedBy ∧
        (pops h.log).map Prod.snd = new.returnedBy ops) ∧
      q.queue.length ≤ 300 ∧
      h.queue.map Prod.fst = List.range' (h.items.length - h.queue.length) h.queue.length ∧
      (∀ p ∈ h.queue, h.items[p.1]? = some p.2) ∧
      ((pops h.log).map Prod.fst).Pairwise (· < ·) ∧
      (∀ p ∈ pops h.log, h.items[p.1]? = some p.2) ∧
      ∀ n, n < h.items.length →
        n ∈ h.queue.map Prod.fst ∨ n ∈ (pops h.log).map Prod.fst ∨ .cleared n ∈ h.log ∨
          Overflowed 300 h.log n := by
  intro q h
  obtain ⟨href, hitems, hpops⟩ := run_history ops
  have hs : Sound 300 h := run_sound (by decide) _
  refine ⟨⟨href.queue, hitems, hpops⟩, ?_, hs.numbers, hs.queue_items, ?_, ?_, ?_⟩
  · have hlen : q.queue.length = h.queue.length := by
      rw [href.queue, List.length_map]
    rw [hlen]
    exact hs.bounded
  · rw [List.pairwise_map]
    exact hs.increasing
  · intro p hp
    exact hs.popped_items p.1 p.2 (mem_pops.mp hp)
  · intro n hn
    rcases hs.queued_or_gone hn with hqueued | ⟨a, hpopped⟩ | hcleared | hover
    · exact Or.inl hqueued
    · exact Or.inr (Or.inl (List.mem_map.mpr ⟨(n, a), mem_pops.mpr hpopped, rfl⟩))
    · exact Or.inr (Or.inr (Or.inl hcleared))
    · exact Or.inr (Or.inr (Or.inr hover))

end H264FrameQueue

end RtspPush
