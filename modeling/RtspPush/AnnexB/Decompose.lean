import RtspPush.AnnexB.Split

/-!
# `splitAnnexB` decomposes every buffer

On arbitrary input the scanner cuts the buffer into a segment in front, start codes, and the
segments behind them, and returns the segments that are not empty. The cut is the canonical
reading of the buffer, so `splitAnnexB_decomposes` only has to say where things are:
`codesFrom` and `spansFrom` lay the start codes and the spans out one after the other, and
`countP_covers` finds every byte behind the first segment in exactly one of them.
-/

namespace RtspPush

open Lib

/-- Where the start codes of units that begin at `offset` are. -/
def codesFrom : Nat → List StreamUnit → List NalSpan
  | _, [] => []
  | offset, u :: us =>
    ⟨offset, u.code.size⟩ :: codesFrom (offset + u.code.size + u.payload.length) us

/-- The byte at index `i` is in the span. -/
def NalSpan.covers (i : Nat) (nal : NalSpan) : Bool :=
  nal.offset ≤ i && i < nal.offset + nal.size

theorem NalSpan.covers_iff {i : Nat} {nal : NalSpan} :
    nal.covers i = true ↔ nal.offset ≤ i ∧ i < nal.offset + nal.size := by
  simp [covers]

theorem length_assemble_cons (u : StreamUnit) (us : List StreamUnit) :
    (assemble (u :: us)).length = u.code.size + (u.payload.length + (assemble us).length) := by
  rw [assemble_cons, List.length_append, List.length_append, length_bytes]

/-! ## Where the spans are -/

/-- The spans are not empty and lie inside the units. -/
theorem spansFrom_inside :
    ∀ (us : List StreamUnit) (offset : Nat), ∀ nal ∈ spansFrom offset us,
      0 < nal.size ∧ offset < nal.offset ∧
        nal.offset + nal.size ≤ offset + (assemble us).length := by
  intro us
  induction us with
  | nil => intro offset nal hnal; cases hnal
  | cons u us ih =>
    intro offset nal hnal
    have hcode := three_le_size u.code
    have hrest : nal ∈ spansFrom (offset + u.code.size + u.payload.length) us →
        0 < nal.size ∧ offset < nal.offset ∧
          nal.offset + nal.size ≤ offset + (assemble (u :: us)).length := by
      intro h
      obtain ⟨hsize, hlt, hle⟩ := ih _ nal h
      rw [length_assemble_cons]
      omega
    unfold spansFrom at hnal
    split at hnal
    · exact hrest hnal
    · next hpayload =>
      rcases List.mem_cons.mp hnal with rfl | hnal
      · have hpos := List.length_pos_iff.mpr hpayload
        rw [length_assemble_cons]
        simp only
        omega
      · exact hrest hnal

/-- The spans come in order and do not overlap. -/
theorem spansFrom_pairwise :
    ∀ (us : List StreamUnit) (offset : Nat),
      (spansFrom offset us).Pairwise fun a b => a.offset + a.size ≤ b.offset := by
  intro us
  induction us with
  | nil => intro offset; exact List.Pairwise.nil
  | cons u us ih =>
    intro offset
    unfold spansFrom
    split
    · exact ih _
    · refine List.pairwise_cons.mpr ⟨fun nal hnal => ?_, ih _⟩
      exact Nat.le_of_lt (spansFrom_inside us _ nal hnal).2.1

/-! ## Every byte is covered once -/

theorem codesFrom_offset_le :
    ∀ (us : List StreamUnit) (offset : Nat), ∀ code ∈ codesFrom offset us,
      offset ≤ code.offset := by
  intro us
  induction us with
  | nil => intro offset code hcode; cases hcode
  | cons u us ih =>
    intro offset code hcode
    rcases List.mem_cons.mp hcode with rfl | hcode
    · exact Nat.le_refl _
    · have := ih _ code hcode
      omega

/-- Units cover nothing in front of them. -/
theorem countP_covers_before (us : List StreamUnit) {offset i : Nat} (h : i < offset) :
    (codesFrom offset us).countP (NalSpan.covers i) = 0 ∧
      (spansFrom offset us).countP (NalSpan.covers i) = 0 := by
  constructor
  · refine List.countP_eq_zero.mpr fun code hcode hcovers => ?_
    have hle := codesFrom_offset_le us offset code hcode
    have := NalSpan.covers_iff.mp hcovers
    omega
  · refine List.countP_eq_zero.mpr fun nal hnal hcovers => ?_
    have hlt := (spansFrom_inside us offset nal hnal).2.1
    have := NalSpan.covers_iff.mp hcovers
    omega

/-- A byte of the units is in one start code or in one span, and in no other. -/
theorem countP_covers :
    ∀ (us : List StreamUnit) {offset i : Nat}, offset ≤ i → i < offset + (assemble us).length →
      (codesFrom offset us).countP (NalSpan.covers i) +
        (spansFrom offset us).countP (NalSpan.covers i) = 1 := by
  intro us
  induction us with
  | nil =>
    intro offset i hle hlt
    simp only [assemble_nil, List.length_nil] at hlt
    omega
  | cons u us ih =>
    intro offset i hle hlt
    rw [length_assemble_cons] at hlt
    have hspans : (spansFrom offset (u :: us)).countP (NalSpan.covers i) =
        (if offset + u.code.size ≤ i ∧ i < offset + u.code.size + u.payload.length then 1 else 0) +
          (spansFrom (offset + u.code.size + u.payload.length) us).countP (NalSpan.covers i) := by
      simp only [spansFrom]
      by_cases hpayload : u.payload = []
      · rw [if_pos hpayload, if_neg (by simp only [hpayload, List.length_nil]; omega), Nat.zero_add]
      · rw [if_neg hpayload, List.countP_cons, Nat.add_comm]
        simp only [NalSpan.covers_iff]
    have hcodes : (codesFrom offset (u :: us)).countP (NalSpan.covers i) =
        (if i < offset + u.code.size then 1 else 0) +
          (codesFrom (offset + u.code.size + u.payload.length) us).countP (NalSpan.covers i) := by
      rw [codesFrom, List.countP_cons, Nat.add_comm]
      simp only [NalSpan.covers_iff, hle, true_and]
    rw [hspans, hcodes]
    by_cases hunit : i < offset + u.code.size + u.payload.length
    · -- the byte is in this unit, in its start code or in its payload
      obtain ⟨hcodes₀, hspans₀⟩ := countP_covers_before us hunit
      rw [hcodes₀, hspans₀]
      by_cases hcode : i < offset + u.code.size
      · rw [if_pos hcode, if_neg (by omega)]
      · rw [if_neg hcode, if_pos (by omega)]
    · rw [if_neg (by omega), if_neg (by omega), Nat.zero_add, Nat.zero_add]
      exact ih (by omega) (by omega)

/-- The spans that `splitAnnexB` returns are not empty and lie in the buffer. -/
theorem splitAnnexB_inside {data : List UInt8} :
    ∀ nal ∈ splitAnnexB data, 0 < nal.size ∧ nal.offset + nal.size ≤ data.length := by
  obtain ⟨pre, us, rfl, hcanon⟩ := exists_canonical data
  rw [splitAnnexB_canonical hcanon]
  intro nal hnal
  obtain ⟨hsize, -, hend⟩ := spansFrom_inside us pre.length nal hnal
  exact ⟨hsize, by rwa [List.length_append]⟩

/-- **`splitAnnexB` decomposes every buffer exactly.** Without a `00 00 01` it returns nothing.
Otherwise the buffer is a first segment and at least one unit, read canonically, and the spans are
the payloads that are not empty; every byte behind the first segment is in exactly one start code
or returned span. In any case the spans are not empty, increasing, disjoint and inside. -/
theorem splitAnnexB_decomposes (data : List UInt8) :
    (¬ Marked data → splitAnnexB data = []) ∧
      (Marked data → ∃ pre us, us ≠ [] ∧ data = pre ++ assemble us ∧ Canonical pre us ∧
        splitAnnexB data = spansFrom pre.length us ∧
        ∀ i, pre.length ≤ i → i < data.length →
          (codesFrom pre.length us).countP (NalSpan.covers i) +
            (splitAnnexB data).countP (NalSpan.covers i) = 1) ∧
      (∀ nal ∈ splitAnnexB data, 0 < nal.size ∧ nal.offset + nal.size ≤ data.length) ∧
      (splitAnnexB data).Pairwise fun a b => a.offset + a.size ≤ b.offset := by
  obtain ⟨pre, us, rfl, hcanon⟩ := exists_canonical data
  have hsplit := splitAnnexB_canonical hcanon
  refine ⟨fun hnot => ?_, fun hmarked => ?_, splitAnnexB_inside, ?_⟩
  · cases us with
    | nil => exact hsplit
    | cons u us => exact absurd (marked_assemble pre u us) hnot
  · refine ⟨pre, us, ?_, rfl, hcanon, hsplit, fun i hle hlt => ?_⟩
    · rintro rfl
      rw [assemble_nil, List.append_nil] at hmarked
      exact hcanon hmarked
    · rw [hsplit]
      exact countP_covers us hle (by rwa [List.length_append] at hlt)
  · rw [hsplit]
    exact spansFrom_pairwise us pre.length

end RtspPush
