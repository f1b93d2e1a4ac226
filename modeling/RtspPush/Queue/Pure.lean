import RtspPush.Queue.Push

/-!
# Only pure NALUs enter the queue, and when

The framer behind the queue needs NALUs that are not empty and hold no start code. The spans of
`splitAnnexB` are such NALUs, but the fallback of `pushAnnexBFrame`, taken when there is no span,
queues the whole buffer, and there are two reasons for having no span: no start code at all, or
nothing but start codes (`OnlyStartCodes`). `queue_pure_iff`: a run keeps the queue pure in every
state exactly when no buffer of the second kind is pushed.
-/

namespace RtspPush

open Lib

/-- What the discrete framer requires of a NALU. -/
def PureNalu (data : List UInt8) : Prop := data ≠ [] ∧ ¬ Marked data

/-- Every queued NALU is pure, and so is the one that `popNalu` would return. -/
def H264FrameQueue.Pure (q : H264FrameQueue) : Prop :=
  (∀ nalu ∈ q.queue, PureNalu nalu.data) ∧
    ∀ nalu, q.popNalu.1 = some nalu → PureNalu nalu.data

/-- Behind the bytes in front of its first start code, the buffer holds nothing but start codes:
one or more, with only empty NALUs between and behind them. -/
def OnlyStartCodes (data : List UInt8) : Prop :=
  ∃ (pre : List UInt8) (codes : List StartCode), codes ≠ [] ∧ ¬ Marked pre ∧
    data = pre ++ codes.flatMap StartCode.bytes

namespace H264FrameQueue

/-- The units of a stream of empty payloads. -/
def emptyUnits (codes : List StartCode) : List StreamUnit := codes.map fun c => ⟨c, []⟩

theorem assemble_emptyUnits (codes : List StartCode) :
    assemble (emptyUnits codes) = codes.flatMap StartCode.bytes := by
  simp [assemble, emptyUnits, StreamUnit.bytes, List.flatMap_map]

/-- Recutting start codes with nothing between them leaves nothing between them. -/
theorem recut_emptyUnits (codes : List StartCode) (pre : List UInt8) :
    ∀ payload ∈ (recut pre (emptyUnits codes)).2.map StreamUnit.payload, payload = [] := by
  induction codes generalizing pre with
  | nil => simp [emptyUnits, recut]
  | cons c codes ih =>
    have hfst : (recut [] (emptyUnits codes)).1 = [] := by
      cases codes with
      | nil => rfl
      | cons d codes => simp [emptyUnits, recut_fst_cons, not_endsInZero_nil]
    intro payload hp
    simp only [emptyUnits, List.map_cons] at hp
    rw [recut_payloads_cons] at hp
    rcases List.mem_cons.mp hp with rfl | hp
    · exact hfst
    · exact ih [] payload hp

/-- A buffer of nothing but start codes is queued whole, start codes included. -/
theorem producedNalus_of_onlyStartCodes {data : List UInt8} (h : OnlyStartCodes data) :
    producedNalus (some data) = [data] ∧ Marked data := by
  obtain ⟨pre, codes, hne, hpre, rfl⟩ := h
  have hmarked : Marked (pre ++ codes.flatMap StartCode.bytes) := by
    rw [← assemble_emptyUnits]
    cases codes with
    | nil => exact absurd rfl hne
    | cons c codes => exact marked_assemble pre _ _
  have hcanon : Canonical (recut pre (emptyUnits codes)).1 (recut pre (emptyUnits codes)).2 := by
    refine recut_canonical hpre fun u hu => ?_
    obtain ⟨c, -, rfl⟩ := List.mem_map.mp hu
    exact not_marked_nil
  have hbytes := recut_bytes (emptyUnits codes) pre
  have hprod := producedNalus_canonical hcanon
  have hnone : ((recut pre (emptyUnits codes)).2.map StreamUnit.payload).filter (· ≠ []) = [] := by
    rw [List.filter_eq_nil_iff]
    intro payload hp
    simpa using recut_emptyUnits codes pre payload hp
  rw [hbytes, assemble_emptyUnits, hnone] at hprod
  refine ⟨?_, hmarked⟩
  rw [hprod, if_neg, if_pos rfl]
  rintro heq
  rw [heq] at hmarked
  exact not_marked_nil hmarked

/-- Every other buffer is cut into pure NALUs, or queued whole because it holds no start code. -/
theorem producedNalus_pure {data : List UInt8} (h : ¬ OnlyStartCodes data) {nal : List UInt8}
    (hnal : nal ∈ producedNalus (some data)) : PureNalu nal := by
  refine ⟨producedNalus_ne_nil hnal, ?_⟩
  obtain ⟨pre, us, rfl, hcanon⟩ := exists_canonical data
  rw [producedNalus_canonical hcanon] at hnal
  split at hnal
  · simp at hnal
  · split at hnal
    · next hnone =>
      rw [List.mem_singleton.mp hnal]
      cases us with
      | nil => simpa using hcanon.not_marked
      | cons u us =>
        -- start codes with only empty payloads: the excluded kind
        refine absurd ⟨pre, (u :: us).map StreamUnit.code, by simp, hcanon.not_marked, ?_⟩ h
        have hempty : ∀ v ∈ u :: us, v.payload = [] := by
          intro v hv
          have := List.filter_eq_nil_iff.mp hnone v.payload (List.mem_map_of_mem hv)
          simpa using this
        have hbytes : assemble (u :: us) =
            ((u :: us).map StreamUnit.code).flatMap StartCode.bytes := by
          rw [assemble, List.flatMap_map]
          refine List.flatMap_congr fun v hv => ?_
          simp [StreamUnit.bytes, hempty v hv]
        rw [hbytes]
    · obtain ⟨hmem, -⟩ := List.mem_filter.mp hnal
      obtain ⟨u, hu, rfl⟩ := List.mem_map.mp hmem
      exact hcanon.payload_not_marked u hu

theorem pure_of_queue {q : H264FrameQueue} (h : ∀ nalu ∈ q.queue, PureNalu nalu.data) :
    q.Pure := by
  refine ⟨h, fun nalu hpop => h nalu ?_⟩
  rw [q.popNalu_some hpop]
  exact List.mem_cons_self

/-- The condition on one call: a push is not of start codes alone. -/
def Separable : QueueOp → Prop
  | .pushAnnexBFrame (some data) _ => ¬ OnlyStartCodes data
  | _ => True

/-- One call keeps the queue pure when it meets the condition. -/
theorem Pure.apply {q : H264FrameQueue} (h : q.Pure) {op : QueueOp} (hop : Separable op) :
    (q.apply op).Pure := by
  apply pure_of_queue
  cases op with
  | pushAnnexBFrame data timestampUs =>
    intro nalu hnalu
    rcases q.mem_pushAnnexBFrame_queue hnalu with hq | hprod
    · exact h.1 nalu hq
    · obtain ⟨nal, hnal, rfl⟩ := List.mem_map.mp hprod
      cases data with
      | none => simp [producedNalus] at hnal
      | some data => exact producedNalus_pure hop hnal
  | popNalu =>
    intro nalu hnalu
    cases hpop : q.popNalu.1 with
    | none =>
      have hq : q.popNalu.2 = q := by
        have hempty := q.popNalu_eq_none_iff.mp hpop
        simp [H264FrameQueue.popNalu, hempty]
      rw [H264FrameQueue.apply, hq] at hnalu
      exact h.1 nalu hnalu
    | some front =>
      refine h.1 nalu ?_
      rw [q.popNalu_some hpop]
      exact List.mem_cons_of_mem front hnalu
  | clear =>
    intro nalu hnalu
    simp [H264FrameQueue.apply] at hnalu
  | registerReader scheduler triggerId clientData =>
    intro nalu hnalu
    rw [H264FrameQueue.apply, registerReader_queue] at hnalu
    exact h.1 nalu hnalu
  | unregisterReader triggerId => exact h.1

/-- A push of start codes alone puts them into the queue. -/
theorem not_pure_apply {q : H264FrameQueue} {op : QueueOp} (hop : ¬ Separable op) :
    ¬ (q.apply op).Pure := by
  intro hpure
  match op, hop with
  | .pushAnnexBFrame none timestampUs, hop => exact hop trivial
  | .pushAnnexBFrame (some data) timestampUs, hop =>
    obtain ⟨hprod, hmarked⟩ := producedNalus_of_onlyStartCodes (Classical.not_not.mp hop)
    have hlast : (producedNalus (some data)).getLast? = some data := by
      rw [hprod]
      rfl
    have hmem := q.getLast_mem_pushAnnexBFrame_queue hlast timestampUs
    exact (hpure.1 _ hmem).2 hmarked
  | .popNalu, hop => exact hop trivial
  | .clear, hop => exact hop trivial
  | .registerReader .., hop => exact hop trivial
  | .unregisterReader .., hop => exact hop trivial

/-- **When only pure NALUs are queued**: every state of a run from a new queue is pure exactly
when no push of the run is of start codes alone. -/
theorem queue_pure_iff (ops : List QueueOp) :
    machine.Throughout Pure new ops ↔
      ∀ data timestampUs, QueueOp.pushAnnexBFrame (some data) timestampUs ∈ ops →
        ¬ OnlyStartCodes data := by
  have halong : machine.Along (fun _ => Separable) new ops ↔ ∀ op ∈ ops, Separable op :=
    Machine.along_iff_forall (exec_machine new ops)
  have hnew : new.Pure := pure_of_queue (by simp [new])
  constructor
  · intro hpure data timestampUs hmem
    refine halong.mp (Machine.along_of_throughout ?_ hpure) _ hmem
    intro q op _ hop
    exact ⟨q.apply op, rfl, not_pure_apply hop⟩
  · intro hops
    refine Machine.throughout_of_along ?_ hnew (halong.mpr fun op hop => ?_)
    · intro q op q' hq hsep hstep
      cases hstep
      exact hq.apply hsep
    · cases op with
      | pushAnnexBFrame data timestampUs =>
        cases data with
        | none => trivial
        | some data => exact hops data timestampUs hop
      | _ => trivial

/-- The buffer `00 00 01` is a start code with an empty NALU behind it: it has no span, so it is
queued whole. -/
theorem start_code_queued :
    ∃ q, machine.Reachable q ∧ ∃ nalu ∈ q.queue, Marked nalu.data :=
  ⟨new.run [.pushAnnexBFrame (some [0, 0, 1]) 0], ⟨_, exec_machine new _⟩,
    ⟨[0, 0, 1], timestampToTimeval 0⟩, by decide, by decide⟩

end H264FrameQueue

end RtspPush
