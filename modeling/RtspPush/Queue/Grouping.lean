import RtspPush.Queue.Push

/-!
# Grouping into pushes does not matter

The interface takes one frame or a group of NALUs per call. The last NALU of a buffer ends with
the buffer in one case and at the next start code in the other; it is the same NALU as long as it
does not end in a zero. `spanBytes_append` is that fact, and `push_grouping` carries it to the
queue: the NALUs are pushed one by one in either case, so eviction and the parameter-set caches
see the same sequence.
-/

namespace RtspPush

open Lib

/-- The NALU byte strings that `splitAnnexB` finds. -/
def spanBytes (data : List UInt8) : List (List UInt8) :=
  (splitAnnexB data).map (NalSpan.bytes data)

/-- The buffer begins with a start code. -/
def BeginsWithCode (data : List UInt8) : Prop := ∃ c : StartCode, c.bytes <+: data

theorem BeginsWithCode.append {data : List UInt8} (h : BeginsWithCode data) (rest : List UInt8) :
    BeginsWithCode (data ++ rest) :=
  h.imp fun _ hc => hc.trans (List.prefix_append data rest)

theorem BeginsWithCode.flatten {fs : List (List UInt8)} (hne : fs ≠ [])
    (h : ∀ f ∈ fs, BeginsWithCode f) : BeginsWithCode fs.flatten := by
  cases fs with
  | nil => exact absurd rfl hne
  | cons f fs =>
    rw [List.flatten_cons]
    exact (h f List.mem_cons_self).append fs.flatten

/-- **Two buffers hold the NALUs of their concatenation** if the second begins with a start code
and the first lends it no zero. -/
theorem spanBytes_append {f g : List UInt8} (hg : BeginsWithCode g) (hf : ¬ EndsInZero f) :
    spanBytes (f ++ g) = spanBytes f ++ spanBytes g := by
  obtain ⟨pre, us, rfl, hus⟩ := exists_canonical f
  obtain ⟨vs, rfl, hvs⟩ := exists_canonical_nil hg
  have hall := splitAnnexB_bytes (Canonical.append hvs hus hf)
  have hassemble : pre ++ assemble (us ++ vs) = pre ++ assemble us ++ assemble vs := by
    rw [assemble, List.flatMap_append, List.append_assoc]
    rfl
  have hsecond := splitAnnexB_bytes hvs
  rw [List.nil_append] at hsecond
  rw [hassemble] at hall
  unfold spanBytes
  rw [hall, splitAnnexB_bytes hus, hsecond, List.map_append, List.filter_append]

theorem spanBytes_flatten :
    ∀ {fs : List (List UInt8)}, fs ≠ [] → (∀ f ∈ fs.tail, BeginsWithCode f) →
      (∀ f ∈ fs.dropLast, ¬ EndsInZero f) → spanBytes fs.flatten = fs.flatMap spanBytes := by
  intro fs
  induction fs with
  | nil => intro h; exact absurd rfl h
  | cons f fs ih =>
    intro _ hcode hzero
    by_cases hfs : fs = []
    · simp [hfs]
    · rw [List.dropLast_cons_of_ne_nil hfs] at hzero
      obtain ⟨hf, hzero⟩ := List.forall_mem_cons.mp hzero
      have hrest := ih hfs (fun g hg => hcode g (List.mem_of_mem_tail hg)) hzero
      rw [List.flatten_cons, spanBytes_append (BeginsWithCode.flatten hfs hcode) hf, hrest,
        List.flatMap_cons]

namespace H264FrameQueue

theorem producedNalus_of_spans {data : List UInt8} (h : splitAnnexB data ≠ []) :
    producedNalus (some data) = spanBytes data := by
  have hne : data ≠ [] := by
    rintro rfl
    exact h rfl
  simp only [producedNalus]
  rw [if_neg hne, if_neg h]
  rfl

theorem pushAll_append (q : H264FrameQueue) (time : Timeval) (nals nals' : List (List UInt8)) :
    q.pushAll time (nals ++ nals') = (q.pushAll time nals).pushAll time nals' :=
  List.foldl_append

/-- Pushing buffers that hold NALUs one after the other pushes all their NALUs. -/
theorem foldl_push_eq (timestampUs : UInt64) :
    ∀ (fs : List (List UInt8)) (q : H264FrameQueue), (∀ f ∈ fs, splitAnnexB f ≠ []) →
      fs.foldl (fun q f => (q.pushAnnexBFrame (some f) timestampUs).1) q =
        q.pushAll (timestampToTimeval timestampUs) (fs.flatMap spanBytes) := by
  intro fs
  induction fs with
  | nil => intro q _; rfl
  | cons f fs ih =>
    intro q hspans
    obtain ⟨hf, hspans⟩ := List.forall_mem_cons.mp hspans
    rw [List.foldl_cons, ih _ hspans, pushAnnexBFrame_fst, producedNalus_of_spans hf,
      List.flatMap_cons, pushAll_append]

/-- **Grouping into pushes does not matter.** Buffers that each hold a NALU, that begin with a
start code but for the first and do not end in a zero but for the last, leave the same queue,
parameter-set caches included, whether they are pushed one by one or all in one. -/
theorem push_grouping (q : H264FrameQueue) (timestampUs : UInt64) (fs : List (List UInt8))
    (hne : fs ≠ []) (hspans : ∀ f ∈ fs, splitAnnexB f ≠ [])
    (hcode : ∀ f ∈ fs.tail, BeginsWithCode f) (hzero : ∀ f ∈ fs.dropLast, ¬ EndsInZero f) :
    fs.foldl (fun q f => (q.pushAnnexBFrame (some f) timestampUs).1) q =
      (q.pushAnnexBFrame (some fs.flatten) timestampUs).1 := by
  have hflatten := spanBytes_flatten hne hcode hzero
  have hgroup : splitAnnexB fs.flatten ≠ [] := by
    intro hnil
    rw [spanBytes, hnil, List.map_nil, eq_comm, List.flatMap_eq_nil_iff] at hflatten
    obtain ⟨f, hf⟩ := List.exists_mem_of_ne_nil fs hne
    exact hspans f hf (List.map_eq_nil_iff.mp (hflatten f hf))
  rw [foldl_push_eq timestampUs fs q hspans, pushAnnexBFrame_fst, producedNalus_of_spans hgroup,
    hflatten]

/-- A parameter set in one buffer and a picture in the next. -/
theorem push_grouping_parameterSet :
    [[0, 0, 0, 1, 0x67, 0x42], [0, 0, 1, 0x65, 0x88]].foldl
        (fun q f => (q.pushAnnexBFrame (some f) 7).1) new =
      (new.pushAnnexBFrame (some [0, 0, 0, 1, 0x67, 0x42, 0, 0, 1, 0x65, 0x88]) 7).1 :=
  push_grouping new 7 [[0, 0, 0, 1, 0x67, 0x42], [0, 0, 1, 0x65, 0x88]] (by decide) (by decide)
    (fun f hf => ⟨.short, by simp at hf; rw [hf]; decide⟩) (by decide)

end H264FrameQueue

end RtspPush
