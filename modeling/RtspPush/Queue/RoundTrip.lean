import RtspPush.Queue.Grouping

/-!
# What comes back out of a stream

`splitAnnexB_encode` is for NALUs as an encoder writes them. Beyond that the exact limit is this: a
stream gives its payloads back if and only if each is not empty and holds no `00 00 01`, and none
that ends in a zero is followed by a 3-byte code (`splitAnnexB_assemble_iff`). So 4-byte codes are
always safe: whatever a push reads in a buffer, `reframe` writes it as a stream that is read in the
same way (`push_reframed`).
-/

namespace RtspPush

open Lib

/-- The spans of a canonical stream without a first segment are its payloads, if none is empty. -/
theorem spanBytes_assemble {us : List StreamUnit} (hcanon : Canonical [] us)
    (hne : ∀ u ∈ us, u.payload ≠ []) : spanBytes (assemble us) = us.map StreamUnit.payload := by
  have hbytes := splitAnnexB_bytes hcanon
  rw [List.nil_append] at hbytes
  rw [spanBytes, hbytes, List.filter_eq_self]
  intro nal hnal
  obtain ⟨u, hu, rfl⟩ := List.mem_map.mp hnal
  simpa using hne u hu

/-- What `splitAnnexB` finds is not empty and holds no start code. -/
theorem pure_of_mem_spanBytes {data nal : List UInt8} (h : nal ∈ spanBytes data) :
    nal ≠ [] ∧ ¬ Marked nal := by
  obtain ⟨pre, us, rfl, hcanon⟩ := exists_canonical data
  rw [spanBytes, splitAnnexB_bytes hcanon] at h
  obtain ⟨hmem, hne⟩ := List.mem_filter.mp h
  obtain ⟨u, hu, rfl⟩ := List.mem_map.mp hmem
  exact ⟨by simpa using hne, hcanon.payload_not_marked u hu⟩

/-- **The streams that give their payloads back**, exactly. -/
theorem splitAnnexB_assemble_iff (us : List StreamUnit) :
    spanBytes (assemble us) = us.map StreamUnit.payload ↔
      (∀ u ∈ us, u.payload ≠ [] ∧ ¬ Marked u.payload) ∧ us.IsChain Keeps := by
  constructor
  · intro h
    have hpure : ∀ u ∈ us, u.payload ≠ [] ∧ ¬ Marked u.payload := by
      intro u hu
      exact pure_of_mem_spanBytes (h ▸ List.mem_map_of_mem hu)
    have hunmarked : ∀ u ∈ us, ¬ Marked u.payload := fun u hu => (hpure u hu).2
    -- the canonical reading has as many units, so that none of its payloads is empty either
    have hbytes := splitAnnexB_bytes (recut_canonical not_marked_nil hunmarked)
    rw [recut_bytes, List.nil_append] at hbytes
    have hfilter : ((recut [] us).2.map StreamUnit.payload).filter (· ≠ []) =
        us.map StreamUnit.payload := hbytes.symm.trans h
    have hpayloads : (recut [] us).2.map StreamUnit.payload = us.map StreamUnit.payload := by
      rw [← hfilter]
      refine (List.filter_sublist.eq_of_length ?_).symm
      rw [hfilter, List.length_map, List.length_map, length_recut]
    have hfirst : (recut [] us).1 = [] := by
      cases us with
      | nil => rfl
      | cons u us => rw [recut_fst_cons, if_neg fun h => not_endsInZero_nil h.2]
    exact ⟨hpure, (canonical_nil_iff.mp
      (canonical_of_recut not_marked_nil hunmarked hfirst hpayloads)).2⟩
  · rintro ⟨hpure, hkeeps⟩
    exact spanBytes_assemble (canonical_nil_iff.mpr ⟨fun u hu => (hpure u hu).2, hkeeps⟩)
      fun u hu => (hpure u hu).1

/-! ## The normal form of a buffer -/

/-- The NALUs that a buffer holds, behind 4-byte start codes. -/
def reframe (data : List UInt8) : List UInt8 :=
  assemble ((spanBytes data).map fun nal => ⟨.long, nal⟩)

theorem spanBytes_reframe (data : List UInt8) : spanBytes (reframe data) = spanBytes data := by
  have hpayloads : ((spanBytes data).map fun nal => (⟨.long, nal⟩ : StreamUnit)).map
      StreamUnit.payload = spanBytes data := by
    rw [List.map_map]
    exact List.map_id _
  have hpure : ∀ u ∈ (spanBytes data).map fun nal => (⟨.long, nal⟩ : StreamUnit),
      u.payload ≠ [] ∧ ¬ Marked u.payload ∧ u.code = .long := by
    intro u hu
    obtain ⟨nal, hnal, rfl⟩ := List.mem_map.mp hu
    obtain ⟨hne, hunmarked⟩ := pure_of_mem_spanBytes hnal
    exact ⟨hne, hunmarked, rfl⟩
  have hkeeps : ((spanBytes data).map fun nal => (⟨.long, nal⟩ : StreamUnit)).IsChain Keeps := by
    refine List.Pairwise.isChain (List.pairwise_of_forall_mem_list fun u _ v hv hcode => ?_)
    rw [(hpure v hv).2.2] at hcode
    cases hcode
  have hcanon := canonical_nil_iff.mpr ⟨fun u hu => (hpure u hu).2.1, hkeeps⟩
  rw [reframe, spanBytes_assemble hcanon fun u hu => (hpure u hu).1, hpayloads]

namespace H264FrameQueue

/-- **A push of any buffer that holds a NALU is the push of its normal form**: the same queue,
parameter-set caches and wake-ups, whatever junk, padding or empty units the buffer has. -/
theorem push_reframed (q : H264FrameQueue) {data : List UInt8} (h : splitAnnexB data ≠ [])
    (timestampUs : UInt64) :
    q.pushAnnexBFrame (some (reframe data)) timestampUs =
      q.pushAnnexBFrame (some data) timestampUs := by
  have hspans := spanBytes_reframe data
  have hreframe : splitAnnexB (reframe data) ≠ [] := by
    intro hnil
    rw [spanBytes, hnil, List.map_nil, spanBytes] at hspans
    exact h (List.map_eq_nil_iff.mp hspans.symm)
  have hproduced : producedNalus (some (reframe data)) = producedNalus (some data) := by
    rw [producedNalus_of_spans hreframe, producedNalus_of_spans h, hspans]
  refine Prod.ext ?_ ?_
  · rw [pushAnnexBFrame_fst, pushAnnexBFrame_fst, hproduced]
  · have hnothing : nothingToPush (some (reframe data)) = nothingToPush (some data) := by
      rw [Bool.eq_iff_iff, ← producedNalus_eq_nil_iff, hproduced, producedNalus_eq_nil_iff]
    rw [pushAnnexBFrame_snd, pushAnnexBFrame_snd, hnothing]

/-- Junk in front, a zero that belongs to nothing, and a unit without a payload. -/
theorem push_reframed_junk :
    reframe [9, 0, 0, 1, 0x65, 0, 0, 0, 0, 1, 0, 0, 1, 0x41] =
        [0, 0, 0, 1, 0x65, 0, 0, 0, 0, 1, 0x41] ∧
      new.pushAnnexBFrame (some (reframe [9, 0, 0, 1, 0x65, 0, 0, 0, 0, 1, 0, 0, 1, 0x41])) 7 =
        new.pushAnnexBFrame (some [9, 0, 0, 1, 0x65, 0, 0, 0, 0, 1, 0, 0, 1, 0x41]) 7 :=
  ⟨by decide, push_reframed new (by decide) 7⟩

end H264FrameQueue

end RtspPush
