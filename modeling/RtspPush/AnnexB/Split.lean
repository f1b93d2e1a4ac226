import RtspPush.Lib.StartCode

/-!
# `findStartCode` and `splitAnnexB`

The start-code scanner of `h264FrameQueue.cpp`, with its two loops. `findStartCode` scans by
index and tests the two forms under their own bounds; `splitAnnexB` cuts the buffer at the codes
it finds and keeps the spans that are not empty. `splitAnnexB_canonical` states what it computes:
on a canonical reading of the buffer it returns the spans of the non-empty payloads.

Sizes and indices are natural numbers here: a buffer is a list of bytes, so `i + 3 <= size`
cannot wrap; `AnnexB.SizeT` runs the same functions in machine arithmetic and refines this module.
`std::string::npos` is `none`, and `startCodeSize` is returned beside the position.
-/

namespace RtspPush

open Lib

/-- A span of the buffer (`H264FrameQueue::NalSpan`). -/
structure NalSpan where
  offset : Nat
  size : Nat
  deriving DecidableEq, Repr

/-- The `for` loop of `findStartCode` at index `i`, with at most `fuel` iterations left. -/
def findStartCodeLoop (data : List UInt8) : Nat → Nat → Option (Nat × Nat)
  | 0, _ => none
  | fuel + 1, i =>
    if i + 3 ≤ data.length then
      if i + 3 ≤ data.length ∧ data[i]? = some 0x00 ∧ data[i + 1]? = some 0x00 ∧
          data[i + 2]? = some 0x01 then
        some (i, 3)
      else if i + 4 ≤ data.length ∧ data[i]? = some 0x00 ∧ data[i + 1]? = some 0x00 ∧
          data[i + 2]? = some 0x00 ∧ data[i + 3]? = some 0x01 then
        some (i, 4)
      else
        findStartCodeLoop data fuel (i + 1)
    else
      none

/-- `findStartCode(data, size, from, startCodeSize)`: the position and the size of the first
start code at or after `start`. -/
def findStartCode (data : List UInt8) (start : Nat) : Option (Nat × Nat) :=
  findStartCodeLoop data (data.length - start) start

/-- The `while` loop of `splitAnnexB`, from the start code found last; at most `fuel` codes are
left. -/
def splitLoop (data : List UInt8) : Nat → Option (Nat × Nat) → List NalSpan
  | 0, _ => []
  | _ + 1, none => []
  | fuel + 1, some (start, startCodeSize) =>
    let nalStart := start + startCodeSize
    let next := findStartCode data nalStart
    let nalEnd :=
      match next with
      | none => data.length
      | some (nextStart, _) => nextStart
    if nalEnd > nalStart then ⟨nalStart, nalEnd - nalStart⟩ :: splitLoop data fuel next
    else splitLoop data fuel next

/-- `splitAnnexB(data, size)`. -/
def splitAnnexB (data : List UInt8) : List NalSpan :=
  splitLoop data (data.length + 1) (findStartCode data 0)

/-- The bytes `data[offset .. offset + size)` of a span. -/
def NalSpan.bytes (data : List UInt8) (nal : NalSpan) : List UInt8 :=
  (data.drop nal.offset).take nal.size

/-! ## The scan -/

/-- A code at index `i`, byte by byte. -/
theorem code_prefix_iff {code : List UInt8} (hne : code ≠ []) (data : List UInt8) (i : Nat) :
    code <+: data.drop i ↔
      i + code.length ≤ data.length ∧ ∀ k (hk : k < code.length), data[i + k]? = some code[k] := by
  rw [List.prefix_iff_getElem?]
  simp only [List.getElem?_drop]
  refine ⟨fun h => ⟨?_, h⟩, fun h => h.2⟩
  have hlast : code.length - 1 < code.length :=
    Nat.sub_one_lt (mt List.length_eq_zero_iff.mp hne)
  obtain ⟨hlt, -⟩ := List.getElem?_eq_some_iff.mp (h _ hlast)
  omega

theorem short_prefix_iff (data : List UInt8) (i : Nat) :
    [0, 0, 1] <+: data.drop i ↔
      i + 3 ≤ data.length ∧ data[i]? = some 0x00 ∧ data[i + 1]? = some 0x00 ∧
        data[i + 2]? = some 0x01 := by
  rw [code_prefix_iff (List.cons_ne_nil _ _)]
  constructor
  · rintro ⟨hlen, h⟩
    exact ⟨hlen, h 0 (by decide), h 1 (by decide), h 2 (by decide)⟩
  · rintro ⟨hlen, h0, h1, h2⟩
    refine ⟨hlen, fun k hk => ?_⟩
    match k with
    | 0 => exact h0
    | 1 => exact h1
    | 2 => exact h2

theorem long_prefix_iff (data : List UInt8) (i : Nat) :
    [0, 0, 0, 1] <+: data.drop i ↔
      i + 4 ≤ data.length ∧ data[i]? = some 0x00 ∧ data[i + 1]? = some 0x00 ∧
        data[i + 2]? = some 0x00 ∧ data[i + 3]? = some 0x01 := by
  rw [code_prefix_iff (List.cons_ne_nil _ _)]
  constructor
  · rintro ⟨hlen, h⟩
    exact ⟨hlen, h 0 (by decide), h 1 (by decide), h 2 (by decide), h 3 (by decide)⟩
  · rintro ⟨hlen, h0, h1, h2, h3⟩
    refine ⟨hlen, fun k hk => ?_⟩
    match k with
    | 0 => exact h0
    | 1 => exact h1
    | 2 => exact h2
    | 3 => exact h3

/-- A code found in the rest of the buffer, at its index in the whole buffer. -/
def atIndex (i : Nat) (p : Nat × StartCode) : Nat × Nat := (i + p.1, p.2.size)

theorem firstCode_short_list {l : List UInt8} (h : l.length < 3) : firstCode l = none :=
  firstCode_eq_none fun hm => by
    have := hm.length_le
    simp only [List.length_cons, List.length_nil] at this
    omega

/-- The loop finds what `firstCode` finds in the rest of the buffer, when it has one iteration
for each byte that is left. -/
theorem findStartCodeLoop_eq (data : List UInt8) :
    ∀ (fuel i : Nat), data.length ≤ i + fuel →
      findStartCodeLoop data fuel i = (firstCode (data.drop i)).map (atIndex i) := by
  intro fuel
  induction fuel with
  | zero =>
    intro i hi
    rw [List.drop_eq_nil_of_le (by omega)]
    rfl
  | succ fuel ih =>
    intro i hi
    unfold findStartCodeLoop
    by_cases hlen : i + 3 ≤ data.length
    · have hcons : data.drop i = data[i] :: data.drop (i + 1) :=
        List.drop_eq_getElem_cons (by omega)
      have hshort := short_prefix_iff data i
      have hlong := long_prefix_iff data i
      rw [if_pos hlen]
      rw [hcons] at hshort hlong ⊢
      unfold firstCode
      by_cases hs : [0, 0, 1] <+: data[i] :: data.drop (i + 1)
      · rw [if_pos (hshort.mp hs), if_pos hs]
        rfl
      · rw [if_neg (mt hshort.mpr hs), if_neg hs]
        by_cases hl : [0, 0, 0, 1] <+: data[i] :: data.drop (i + 1)
        · rw [if_pos (hlong.mp hl), if_pos hl]
          rfl
        · rw [if_neg (mt hlong.mpr hl), if_neg hl, ih (i + 1) (by omega), Option.map_map]
          congr 1
          funext p
          simp only [atIndex, Function.comp_apply]
          congr 1
          omega
    · rw [if_neg hlen, firstCode_short_list (by rw [List.length_drop]; omega)]
      rfl

/-- **`findStartCode` finds the first start code** of the rest of the buffer. -/
theorem findStartCode_eq (data : List UInt8) (start : Nat) :
    findStartCode data start = (firstCode (data.drop start)).map (atIndex start) :=
  findStartCodeLoop_eq data _ _ (by omega)

theorem findStartCode_eq_none {data : List UInt8} {start : Nat}
    (h : ¬ Marked (data.drop start)) : findStartCode data start = none := by
  rw [findStartCode_eq, firstCode_eq_none h]
  rfl

/-! ## The split -/

/-- The spans of the non-empty payloads of units that start at `offset`. -/
def spansFrom : Nat → List StreamUnit → List NalSpan
  | _, [] => []
  | offset, u :: us =>
    let nalStart := offset + u.code.size
    let rest := spansFrom (nalStart + u.payload.length) us
    if u.payload = [] then rest else ⟨nalStart, u.payload.length⟩ :: rest

/-- Where the scan finds the next code when the rest of the buffer is a canonical stream. -/
def nextCode (start : Nat) : List StreamUnit → Option (Nat × Nat)
  | [] => none
  | u :: _ => some (start, u.code.size)

theorem findStartCode_canonical {data pre : List UInt8} {us : List StreamUnit} {start : Nat}
    (hdrop : data.drop start = pre ++ assemble us) (h : Canonical pre us) :
    findStartCode data start = nextCode (start + pre.length) us := by
  cases us with
  | nil =>
    rw [findStartCode_eq_none]
    · rfl
    · rw [hdrop, assemble_nil, List.append_nil]
      exact h
  | cons u us =>
    rw [findStartCode_eq, hdrop, assemble_cons, firstCode_append h.1 h.2.1]
    rfl

/-- One round of the loop for each unit: the code, then its payload, then the next code. -/
theorem splitLoop_canonical (data : List UInt8) :
    ∀ (us : List StreamUnit) (pre : List UInt8) (fuel start : Nat),
      data.drop start = pre ++ assemble us → Canonical pre us → us.length < fuel →
        splitLoop data fuel (nextCode (start + pre.length) us) =
          spansFrom (start + pre.length) us := by
  intro us
  induction us with
  | nil =>
    intro pre fuel start _ _ hfuel
    obtain ⟨fuel, rfl⟩ : ∃ k, fuel = k + 1 := ⟨fuel - 1, by simp at hfuel; omega⟩
    rfl
  | cons u us ih =>
    intro pre fuel start hdrop h hfuel
    obtain ⟨fuel, rfl⟩ : ∃ k, fuel = k + 1 := ⟨fuel - 1, by simp at hfuel; omega⟩
    have hdrop' : data.drop (start + pre.length + u.code.size) = u.payload ++ assemble us := by
      rw [Nat.add_assoc, ← List.drop_drop, hdrop, assemble_cons, ← List.append_assoc,
        List.drop_left' (by simp)]
    have hend : data.length = start + pre.length + u.code.size + u.payload.length +
        (assemble us).length := by
      have hlen := congrArg List.length hdrop'
      have hlen₀ := congrArg List.length hdrop
      simp only [List.length_drop, List.length_append, assemble_cons, length_bytes] at hlen hlen₀
      have := three_le_size u.code
      omega
    have hnext := findStartCode_canonical hdrop' h.2.2
    have hrest := ih u.payload fuel _ hdrop' h.2.2 (by simpa using hfuel)
    have hnalEnd : (match findStartCode data (start + pre.length + u.code.size) with
        | none => data.length
        | some (nextStart, _) => nextStart) =
        start + pre.length + u.code.size + u.payload.length := by
      rw [hnext]
      cases us with
      | nil => simpa [nextCode] using hend
      | cons v us => rfl
    simp only [nextCode, splitLoop, spansFrom]
    rw [hnalEnd, hnext, hrest]
    by_cases hp : u.payload = []
    · rw [if_neg (by simp [hp]), if_pos hp]
    · have hpos : 0 < u.payload.length := List.length_pos_iff.mpr hp
      rw [if_pos (by omega), if_neg hp, Nat.add_sub_cancel_left]

/-- A stream holds at most one unit for each three bytes; one for each byte is enough here. -/
theorem length_le_assemble (us : List StreamUnit) : us.length ≤ (assemble us).length := by
  induction us with
  | nil => simp
  | cons u us ih =>
    rw [assemble_cons]
    have := three_le_size u.code
    simp only [List.length_cons, List.length_append, length_bytes]
    omega

/-- **`splitAnnexB` on a canonical reading** returns the spans of the non-empty payloads. -/
theorem splitAnnexB_canonical {pre : List UInt8} {us : List StreamUnit} (h : Canonical pre us) :
    splitAnnexB (pre ++ assemble us) = spansFrom pre.length us := by
  have hdrop : (pre ++ assemble us).drop 0 = pre ++ assemble us := rfl
  have hloop := splitLoop_canonical _ us pre ((pre ++ assemble us).length + 1) 0 hdrop h (by
    have := length_le_assemble us
    rw [List.length_append]
    omega)
  rw [Nat.zero_add] at hloop
  rw [splitAnnexB, findStartCode_canonical hdrop h, Nat.zero_add, hloop]

/-- The bytes of the spans are the non-empty payloads. -/
theorem spansFrom_bytes (data : List UInt8) :
    ∀ (us : List StreamUnit) (offset : Nat), data.drop offset = assemble us →
      (spansFrom offset us).map (NalSpan.bytes data) =
        (us.map StreamUnit.payload).filter (· ≠ []) := by
  intro us
  induction us with
  | nil => intro offset _; rfl
  | cons u us ih =>
    intro offset hdrop
    have hdrop' : data.drop (offset + u.code.size) = u.payload ++ assemble us := by
      rw [← List.drop_drop, hdrop, assemble_cons, List.drop_left' (by simp)]
    have hrest := ih (offset + u.code.size + u.payload.length) (by
      rw [← List.drop_drop, hdrop', List.drop_left])
    unfold spansFrom
    by_cases hp : u.payload = []
    · simp only [hp, if_true, List.length_nil, Nat.add_zero] at hrest ⊢
      rw [hrest]
      simp [hp]
    · simp only [hp, if_false, List.map_cons]
      rw [hrest]
      simp [NalSpan.bytes, hdrop', hp]

/-- The NALU byte strings of a canonical stream. -/
theorem splitAnnexB_bytes {pre : List UInt8} {us : List StreamUnit} (h : Canonical pre us) :
    (splitAnnexB (pre ++ assemble us)).map (NalSpan.bytes (pre ++ assemble us)) =
      (us.map StreamUnit.payload).filter (· ≠ []) := by
  rw [splitAnnexB_canonical h]
  exact spansFrom_bytes _ us pre.length (List.drop_left ..)

end RtspPush
