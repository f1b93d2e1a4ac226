import RtspPush.AnnexB.Decompose
import RtspPush.AnnexB.SizeT
import RtspPush.Queue.Push

/-!
# A push in `size_t` arithmetic

`pushAnnexBFrame` on top of the scanner of `AnnexB.SizeT`, with the reads that
`pushPureNaluLocked` makes: the first byte for the type, and the whole span once for each copy it
takes. `pushAnnexBFrame_holds` says that it is in bounds and computes what
`H264FrameQueue.pushAnnexBFrame` computes over natural numbers, so the results about the queue are
results about the program as the machine runs it.
-/

namespace RtspPush.SizeT

open Lib Traced H264FrameQueue

variable (buffer : Buffer)

/-- The bytes `data[offset .. offset + size)`. -/
def copy (offset size : UInt64) : Run (List UInt8) := do
  log (.copy offset size)
  return (buffer.bytes.drop offset.toNat).take size.toNat

/-- `sps_.assign` or `pps_.assign` in `pushPureNaluLocked`. -/
def assignParameterSet (q : H264FrameQueue) (nal : NalSpan) (nalType : UInt8) :
    Run H264FrameQueue :=
  if nalType = 7 ∧ q.sps = [] then do
    let sps ← copy buffer nal.offset nal.size
    return { q with sps := sps }
  else if nalType = 8 ∧ q.pps = [] then do
    let pps ← copy buffer nal.offset nal.size
    return { q with pps := pps }
  else
    return q

/-- `pushPureNaluLocked(data + nal.offset, nal.size, presentationTime)`. -/
def pushPureNaluLocked (q : H264FrameQueue) (nal : NalSpan) (presentationTime : Timeval) :
    Run H264FrameQueue := do
  log (.handed nal.offset nal.size)
  if nal.size = 0 then
    return q
  else
    let byte ← read buffer nal.offset
    let q ← assignParameterSet buffer q nal (byte &&& 0x1F)
    let data ← copy buffer nal.offset nal.size
    return { q with queue := evict q.maxQueuedNalus q.queue ++ [⟨data, presentationTime⟩] }

/-- `pushAnnexBFrame(data, size, timestampUs)`; `none` is a null pointer. -/
def pushAnnexBFrame (fuel : Nat) (q : H264FrameQueue) (buffer : Option Buffer)
    (timestampUs : UInt64) : Run (H264FrameQueue × List Reader) :=
  match buffer with
  | none => pure (q, [])
  | some buffer =>
    if buffer.size = 0 then pure (q, [])
    else do
      let presentationTime := timestampToTimeval timestampUs
      let nals ← splitAnnexB buffer fuel
      if nals.isEmpty then
        let q ← pushPureNaluLocked buffer q ⟨0, buffer.size⟩ presentationTime
        return (q, q.wakeReadersLocked)
      else
        let q ← nals.foldlM (fun q nal => pushPureNaluLocked buffer q nal presentationTime) q
        return (q, q.wakeReadersLocked)

/-! ## What is handed to the queue -/

variable {buffer}

/-- The bytes that a span stands for. -/
def NalSpan.slice (buffer : Buffer) (nal : NalSpan) : List UInt8 :=
  (buffer.bytes.drop nal.offset.toNat).take nal.size.toNat

/-- The whole buffer as a span. -/
theorem slice_whole : NalSpan.slice buffer ⟨0, buffer.size⟩ = buffer.bytes := by
  change (buffer.bytes.drop 0).take buffer.size.toNat = buffer.bytes
  rw [buffer.size_eq, List.drop_zero, List.take_length]

theorem toNat_ofNat_span_offset {nal : RtspPush.NalSpan}
    (h : nal.offset + nal.size ≤ buffer.bytes.length) :
    (NalSpan.ofNat nal).offset.toNat = nal.offset := by
  have hoffset : nal.offset ≤ buffer.bytes.length := Nat.le_of_add_right_le h
  exact toNat_ofNat_position hoffset

theorem toNat_ofNat_span_size {nal : RtspPush.NalSpan}
    (h : nal.offset + nal.size ≤ buffer.bytes.length) :
    (NalSpan.ofNat nal).size.toNat = nal.size := by
  have hsize : nal.size ≤ buffer.bytes.length := Nat.le_of_add_left_le h
  exact toNat_ofNat_position hsize

theorem slice_ofNat {nal : RtspPush.NalSpan}
    (h : nal.offset + nal.size ≤ buffer.bytes.length) :
    (NalSpan.ofNat nal).slice buffer = nal.bytes buffer.bytes := by
  rw [NalSpan.slice, toNat_ofNat_span_offset h, toNat_ofNat_span_size h]
  rfl

theorem copy_holds {nal : NalSpan}
    (h : nal.offset.toNat + nal.size.toNat ≤ buffer.bytes.length) :
    Holds (InBounds buffer.bytes) (copy buffer nal.offset nal.size) (· = nal.slice buffer) := by
  have hlog : InBounds buffer.bytes (.copy nal.offset nal.size) := h
  exact (holds_log hlog).bind fun _ _ => holds_pure rfl

theorem assignParameterSet_holds {nal : NalSpan}
    (h : nal.offset.toNat + nal.size.toNat ≤ buffer.bytes.length) (q : H264FrameQueue)
    (nalType : UInt8) :
    Holds (InBounds buffer.bytes) (assignParameterSet buffer q nal nalType)
      (· =
        if nalType = 7 ∧ q.sps = [] then { q with sps := nal.slice buffer }
        else if nalType = 8 ∧ q.pps = [] then { q with pps := nal.slice buffer }
        else q) := by
  unfold assignParameterSet
  split
  · exact (copy_holds h).bind fun sps hsps => holds_pure (by rw [hsps])
  · split
    · exact (copy_holds h).bind fun pps hpps => holds_pure (by rw [hpps])
    · exact holds_pure rfl

/-- A span that is not empty and lies in the buffer is pushed as its bytes. -/
theorem pushPureNaluLocked_holds {nal : NalSpan} (hpos : 0 < nal.size.toNat)
    (hin : nal.offset.toNat + nal.size.toNat ≤ buffer.bytes.length) (q : H264FrameQueue)
    (time : Timeval) :
    Holds (InBounds buffer.bytes) (pushPureNaluLocked buffer q nal time)
      (· = q.pushPureNaluLocked (nal.slice buffer) time) := by
  have hlog : InBounds buffer.bytes (.handed nal.offset nal.size) := ⟨hpos, hin⟩
  have hne : nal.size ≠ 0 := by
    intro h
    rw [h] at hpos
    exact absurd hpos (by decide)
  refine (holds_log hlog).bind fun _ _ => ?_
  rw [if_neg hne]
  refine (read_holds (by omega)).bind fun byte hbyte => ?_
  refine (assignParameterSet_holds hin q _).bind fun cached hcached => ?_
  refine (copy_holds hin).bind fun data hdata => holds_pure ?_
  have hhead : (nal.slice buffer).head? = some byte := by
    rw [NalSpan.slice, List.head?_take, if_neg (by omega), List.head?_drop, hbyte]
  obtain ⟨rest, hslice⟩ := List.head?_eq_some_iff.mp hhead
  rw [hdata, hcached, hslice]
  rfl

/-- **A push in `size_t` arithmetic** ends, is in bounds, and computes the push over natural
numbers. -/
theorem pushAnnexBFrame_holds {fuel : Nat} (hfuel : buffer.bytes.length < fuel)
    (q : H264FrameQueue) (timestampUs : UInt64) :
    Holds (InBounds buffer.bytes) (pushAnnexBFrame fuel q (some buffer) timestampUs)
      (· = q.pushAnnexBFrame (some buffer.bytes) timestampUs) := by
  unfold pushAnnexBFrame H264FrameQueue.pushAnnexBFrame
  dsimp only
  by_cases hsize : buffer.size = 0
  · have hlen : buffer.bytes.length = 0 := by
      rw [← buffer.size_eq, hsize]
      rfl
    rw [if_pos hsize, if_pos hlen]
    exact holds_pure rfl
  · have hlen : buffer.bytes.length ≠ 0 := by
      intro h
      rw [← buffer.size_eq] at h
      exact hsize (UInt64.toNat_inj.mp h)
    rw [if_neg hsize, if_neg hlen]
    refine (splitAnnexB_holds hfuel).bind fun nals hnals => ?_
    subst hnals
    rw [List.isEmpty_map]
    by_cases hnone : (RtspPush.splitAnnexB buffer.bytes).isEmpty = true
    · rw [if_pos hnone, if_pos hnone]
      refine (pushPureNaluLocked_holds ?_ ?_ q _).bind fun q' hq' => holds_pure ?_
      · rw [buffer.size_eq]
        omega
      · change 0 + buffer.size.toNat ≤ _
        rw [Nat.zero_add]
        exact Nat.le_of_eq buffer.size_eq
      · rw [hq', slice_whole]
    · rw [if_neg hnone, if_neg hnone, List.foldlM_map]
      have hspans : ∀ q, ∀ nal ∈ RtspPush.splitAnnexB buffer.bytes,
          Holds (InBounds buffer.bytes)
            (pushPureNaluLocked buffer q (.ofNat nal) (timestampToTimeval timestampUs))
            (· = q.pushPureNaluLocked (nal.bytes buffer.bytes)
              (timestampToTimeval timestampUs)) := by
        intro q nal hnal
        obtain ⟨hpos, hin⟩ := splitAnnexB_inside nal hnal
        rw [← slice_ofNat hin]
        apply pushPureNaluLocked_holds
        · rwa [toNat_ofNat_span_size hin]
        · rwa [toNat_ofNat_span_offset hin, toNat_ofNat_span_size hin]
      refine (Holds.foldlM hspans q).bind fun q' hq' => holds_pure ?_
      rw [hq']

/-- **The scanner stays in bounds and ends.** For every buffer, and when each loop may take more
steps than there are bytes, `splitAnnexB` and the push around it end with the results of the model
over natural numbers, and all they log is in bounds: every index read, every copy, every sum and
difference, every result of `findStartCode` and every span handed to `pushPureNaluLocked`. -/
theorem scanner_in_bounds (buffer : Buffer) (fuel : Nat) (hfuel : buffer.bytes.length < fuel)
    (q : H264FrameQueue) (timestampUs : UInt64) :
    let scan := splitAnnexB buffer fuel
    let push := pushAnnexBFrame fuel q (some buffer) timestampUs
    (scan.value = some ((RtspPush.splitAnnexB buffer.bytes).map NalSpan.ofNat) ∧
        ∀ event ∈ scan.events, InBounds buffer.bytes event) ∧
      push.value = some (q.pushAnnexBFrame (some buffer.bytes) timestampUs) ∧
        ∀ event ∈ push.events, InBounds buffer.bytes event := by
  intro scan push
  have hscan := splitAnnexB_holds hfuel
  have hpush := pushAnnexBFrame_holds hfuel q timestampUs
  exact ⟨⟨hscan.value_eq, hscan.events⟩, hpush.value_eq, hpush.events⟩

/-- A NALU, then a start code that the end of the buffer cuts off after two bytes. -/
def cutOff : Buffer where
  bytes := [0x00, 0x00, 0x01, 0x67, 0x00, 0x00]
  size := 6
  size_eq := by decide
  size_le := by decide

/-- The cut-off code is read up to the end of the buffer and belongs to the NALU. -/
theorem scanner_in_bounds_cutOff :
    (splitAnnexB cutOff 7).value = some [⟨3, 3⟩] ∧
      ∀ event ∈ (pushAnnexBFrame 7 new (some cutOff) 0).events, InBounds cutOff.bytes event := by
  have h := scanner_in_bounds cutOff 7 (by decide) new 0
  refine ⟨?_, h.2.2⟩
  rw [h.1.1]
  decide

end RtspPush.SizeT
