import Mathlib.Algebra.Group.Nat.Defs
import RtspPush.AnnexB.Split
import RtspPush.Lib.Traced

/-!
# The scanner in `size_t` arithmetic

`findStartCode` and `splitAnnexB` once more, as the machine runs them: positions are `size_t`
values modulo 2^64, `npos` is the largest of them, a condition reads `data` only as far as its
`&&` gets, and a loop goes on until its test fails. Every read and every addition or subtraction
is logged. A read outside the buffer has no meaning in C++; here it is logged like any other and
gives a zero.

`splitAnnexB_holds` is about this program: on a buffer that a C++ object can hold, it ends, all it
logs is `InBounds`, and it returns the spans of the scanner over natural numbers.
-/

namespace RtspPush.SizeT

open Lib Traced

/-- `std::string::npos`. -/
def npos : UInt64 := 0xFFFFFFFFFFFFFFFF

/-- `data` and `size`. No C++ object is larger than 2^63 - 1 bytes. -/
structure Buffer where
  bytes : List UInt8
  size : UInt64
  size_eq : size.toNat = bytes.length
  size_le : bytes.length ≤ 2 ^ 63 - 1

structure NalSpan where
  offset : UInt64
  size : UInt64
  deriving DecidableEq, Repr

/-- What the program logs. -/
inductive Event
  /-- `data[index]` -/
  | read (index : UInt64)
  /-- `assign(data + offset, data + offset + size)` -/
  | copy (offset size : UInt64)
  /-- `a + b` -/
  | add (a b : UInt64)
  /-- `a - b` -/
  | sub (a b : UInt64)
  /-- `findStartCode(data, size, from, startCodeSize)` returned `result`. -/
  | found (start result startCodeSize : UInt64)
  /-- `pushPureNaluLocked(data + offset, size, ..)` was called. -/
  | handed (offset size : UInt64)
  deriving DecidableEq, Repr

abbrev Run := Traced Event

def add (a b : UInt64) : Run UInt64 := do
  log (.add a b)
  return a + b

def sub (a b : UInt64) : Run UInt64 := do
  log (.sub a b)
  return a - b

variable (buffer : Buffer)

def read (index : UInt64) : Run UInt8 := do
  log (.read index)
  return buffer.bytes.getD index.toNat 0

/-- `i + k <= size` -/
def fits (i k : UInt64) : Run Bool := do
  let last ← add i k
  return decide (last ≤ buffer.size)

/-- `data[i] == byte` -/
def hasByte (i : UInt64) (byte : UInt8) : Run Bool := do
  let found ← read buffer i
  return found == byte

/-- `data[i + k] == byte` -/
def hasByteAt (i k : UInt64) (byte : UInt8) : Run Bool := do
  let index ← add i k
  hasByte buffer index byte

/-- The condition of the first `if` in `findStartCode`. -/
def isShortCode (i : UInt64) : Run Bool :=
  (fits buffer i 3).and <| (hasByte buffer i 0x00).and <| (hasByteAt buffer i 1 0x00).and <|
    hasByteAt buffer i 2 0x01

/-- The condition of the second. -/
def isLongCode (i : UInt64) : Run Bool :=
  (fits buffer i 4).and <| (hasByte buffer i 0x00).and <| (hasByteAt buffer i 1 0x00).and <|
    (hasByteAt buffer i 2 0x00).and <| hasByteAt buffer i 3 0x01

/-- `for (size_t i = from; i + 3 <= size; ++i)`, and what `findStartCode` returns. -/
def findStartCodeLoop : Nat → UInt64 → Run (UInt64 × UInt64)
  | 0, _ => unfinished
  | fuel + 1, i => do
    if ← fits buffer i 3 then
      if ← isShortCode buffer i then
        return (i, 3)
      else if ← isLongCode buffer i then
        return (i, 4)
      else
        let next ← add i 1
        findStartCodeLoop fuel next
    else
      return (npos, 0)

/-- `findStartCode(data, size, from, startCodeSize)`: the result and `startCodeSize`. -/
def findStartCode (fuel : Nat) (start : UInt64) : Run (UInt64 × UInt64) := do
  let found ← findStartCodeLoop buffer fuel start
  log (.found start found.1 found.2)
  return found

/-- `while (start != npos)`; each of the inner loops gets `fuel` steps. -/
def splitLoop (fuel : Nat) : Nat → List NalSpan → UInt64 × UInt64 → Run (List NalSpan)
  | 0, _, _ => unfinished
  | rounds + 1, nals, (start, startCodeSize) =>
    if start = npos then
      return nals
    else do
      let nalStart ← add start startCodeSize
      let next ← findStartCode buffer fuel nalStart
      let nalEnd := if next.1 = npos then buffer.size else next.1
      if nalEnd > nalStart then
        let nalSize ← sub nalEnd nalStart
        splitLoop fuel rounds (nals ++ [⟨nalStart, nalSize⟩]) next
      else
        splitLoop fuel rounds nals next

/-- `splitAnnexB(data, size)`, with at most `fuel` steps for each loop. -/
def splitAnnexB (fuel : Nat) : Run (List NalSpan) := do
  let first ← findStartCode buffer fuel 0
  splitLoop buffer fuel fuel [] first

/-- What a logged event must satisfy. A result of `findStartCode` is `npos` exactly when there is
no start code to find; else it and the code lie inside the buffer, at or behind `from`. -/
def InBounds (data : List UInt8) : Event → Prop
  | .read index => index.toNat < data.length
  | .copy offset size => offset.toNat + size.toNat ≤ data.length
  | .add a b => a.toNat + b.toNat < 2 ^ 64
  | .sub a b => b.toNat ≤ a.toNat
  | .found start result startCodeSize =>
    (result = npos ↔ ¬ Marked (data.drop start.toNat)) ∧
      (result ≠ npos →
        start.toNat ≤ result.toNat ∧ result.toNat + startCodeSize.toNat ≤ data.length)
  | .handed offset size => 0 < size.toNat ∧ offset.toNat + size.toNat ≤ data.length

/-! ## The operations -/

variable {buffer} {data : List UInt8}

theorem add_holds {a b : UInt64} (h : a.toNat + b.toNat < 2 ^ 64) :
    Holds (InBounds data) (add a b) fun c => c.toNat = a.toNat + b.toNat := by
  have hlog : InBounds data (.add a b) := h
  refine (holds_log hlog).bind fun _ _ => holds_pure ?_
  rw [UInt64.toNat_add, Nat.mod_eq_of_lt h]

theorem sub_holds {a b : UInt64} (h : b.toNat ≤ a.toNat) :
    Holds (InBounds data) (sub a b) fun c => c.toNat = a.toNat - b.toNat := by
  have hlog : InBounds data (.sub a b) := h
  refine (holds_log hlog).bind fun _ _ => holds_pure ?_
  exact UInt64.toNat_sub_of_le _ _ (UInt64.le_iff_toNat_le.mpr h)

theorem read_holds {i : UInt64} (h : i.toNat < buffer.bytes.length) :
    Holds (InBounds buffer.bytes) (read buffer i) fun b => buffer.bytes[i.toNat]? = some b := by
  have hlog : InBounds buffer.bytes (.read i) := h
  refine (holds_log hlog).bind fun _ _ => holds_pure ?_
  rw [List.getD_eq_getElem?_getD, List.getElem?_eq_getElem h, Option.getD_some]

/-- `i + k` does not wrap while `i` is a position of the buffer. -/
theorem fits_holds {i k : UInt64} (hi : i.toNat ≤ buffer.bytes.length) (hk : k.toNat ≤ 4) :
    Holds (InBounds buffer.bytes) (fits buffer i k) fun b =>
      b = true ↔ i.toNat + k.toNat ≤ buffer.bytes.length := by
  have hmax := buffer.size_le
  refine (add_holds (by omega)).bind fun last hlast => holds_pure ?_
  rw [decide_eq_true_iff, UInt64.le_iff_toNat_le, hlast, buffer.size_eq]

theorem hasByte_holds {i : UInt64} {byte : UInt8} (h : i.toNat < buffer.bytes.length) :
    Holds (InBounds buffer.bytes) (hasByte buffer i byte) fun b =>
      b = true ↔ buffer.bytes[i.toNat]? = some byte := by
  refine (read_holds h).bind fun found hfound => holds_pure ?_
  rw [hfound, beq_iff_eq, Option.some_inj]

theorem hasByteAt_holds {i k : UInt64} {byte : UInt8}
    (h : i.toNat + k.toNat < buffer.bytes.length) :
    Holds (InBounds buffer.bytes) (hasByteAt buffer i k byte) fun b =>
      b = true ↔ buffer.bytes[i.toNat + k.toNat]? = some byte := by
  have hmax := buffer.size_le
  refine (add_holds (by omega)).bind fun index hindex => ?_
  rw [← hindex] at h ⊢
  exact hasByte_holds h

/-! ## The scan -/

/-- The first test of the loop, with its reads: they are made only when `i + 3 <= size`. -/
theorem isShortCode_holds {i : UInt64} (hi : i.toNat ≤ buffer.bytes.length) :
    Holds (InBounds buffer.bytes) (isShortCode buffer i) fun b =>
      b = true ↔ i.toNat + 3 ≤ buffer.bytes.length ∧ buffer.bytes[i.toNat]? = some 0x00 ∧
        buffer.bytes[i.toNat + 1]? = some 0x00 ∧ buffer.bytes[i.toNat + 2]? = some 0x01 := by
  refine (fits_holds hi (k := 3) (by decide)).and fun hfits => ?_
  have hfits : i.toNat + 3 ≤ buffer.bytes.length := hfits
  refine (hasByte_holds (by omega)).and fun _ => ?_
  refine (hasByteAt_holds (k := 1) ?_).and fun _ => hasByteAt_holds (k := 2) ?_
  · change i.toNat + 1 < _
    omega
  · change i.toNat + 2 < _
    omega

/-- The second test: its last read needs the bound `i + 4 <= size` of its own. -/
theorem isLongCode_holds {i : UInt64} (hi : i.toNat ≤ buffer.bytes.length) :
    Holds (InBounds buffer.bytes) (isLongCode buffer i) fun b =>
      b = true ↔ i.toNat + 4 ≤ buffer.bytes.length ∧ buffer.bytes[i.toNat]? = some 0x00 ∧
        buffer.bytes[i.toNat + 1]? = some 0x00 ∧ buffer.bytes[i.toNat + 2]? = some 0x00 ∧
        buffer.bytes[i.toNat + 3]? = some 0x01 := by
  refine (fits_holds hi (k := 4) (by decide)).and fun hfits => ?_
  have hfits : i.toNat + 4 ≤ buffer.bytes.length := hfits
  refine (hasByte_holds (by omega)).and fun _ => ?_
  refine (hasByteAt_holds (k := 1) ?_).and fun _ => ?_
  · change i.toNat + 1 < _
    omega
  refine (hasByteAt_holds (k := 2) ?_).and fun _ => hasByteAt_holds (k := 3) ?_
  · change i.toNat + 2 < _
    omega
  · change i.toNat + 3 < _
    omega

/-- One round of `findStartCode` over natural numbers, whatever number of rounds is left. -/
theorem findStartCode_round (data : List UInt8) (i : Nat) :
    RtspPush.findStartCode data i =
      if i + 3 ≤ data.length then
        if i + 3 ≤ data.length ∧ data[i]? = some 0x00 ∧ data[i + 1]? = some 0x00 ∧
            data[i + 2]? = some 0x01 then
          some (i, 3)
        else if i + 4 ≤ data.length ∧ data[i]? = some 0x00 ∧ data[i + 1]? = some 0x00 ∧
            data[i + 2]? = some 0x00 ∧ data[i + 3]? = some 0x01 then
          some (i, 4)
        else
          RtspPush.findStartCode data (i + 1)
      else
        none := by
  unfold RtspPush.findStartCode
  by_cases hlen : i + 3 ≤ data.length
  · have hfuel : data.length - i = data.length - (i + 1) + 1 := by omega
    rw [hfuel, RtspPush.findStartCodeLoop]
  · rw [if_neg hlen]
    cases data.length - i with
    | zero => rfl
    | succ fuel => rw [RtspPush.findStartCodeLoop, if_neg hlen]

/-- What `findStartCode` finds from a position of the buffer. -/
theorem findStartCode_cases {data : List UInt8} {start : Nat} (h : start ≤ data.length) :
    (¬ Marked (data.drop start) ∧ RtspPush.findStartCode data start = none) ∨
      ∃ p, ∃ code : StartCode, Marked (data.drop start) ∧
        RtspPush.findStartCode data start = some (p, code.size) ∧ start ≤ p ∧
          p + code.size ≤ data.length := by
  obtain ⟨pre, us, hdrop, hcanon⟩ := exists_canonical (data.drop start)
  have hfind := findStartCode_canonical hdrop hcanon
  rw [hdrop]
  cases us with
  | nil =>
    refine Or.inl ⟨?_, hfind⟩
    rw [assemble_nil, List.append_nil]
    exact hcanon
  | cons u us =>
    refine Or.inr ⟨_, u.code, marked_assemble pre u us, hfind, by omega, ?_⟩
    have hlen := congrArg List.length hdrop
    simp only [List.length_drop, List.length_append, assemble_cons, length_bytes] at hlen
    omega

/-- How `findStartCode` returns what it found. -/
def position : Option (Nat × Nat) → UInt64 × UInt64
  | none => (npos, 0)
  | some (p, startCodeSize) => (.ofNat p, .ofNat startCodeSize)

/-- **The inner loop ends**, stays in bounds and finds what the scanner over natural numbers
finds. -/
theorem findStartCodeLoop_holds :
    ∀ (fuel : Nat) (i : UInt64), i.toNat ≤ buffer.bytes.length →
      buffer.bytes.length < i.toNat + fuel →
        Holds (InBounds buffer.bytes) (findStartCodeLoop buffer fuel i)
          (· = position (RtspPush.findStartCode buffer.bytes i.toNat)) := by
  intro fuel
  induction fuel with
  | zero =>
    intro i hi hfuel
    omega
  | succ fuel ih =>
    intro i hi hfuel
    rw [findStartCode_round]
    refine (fits_holds hi (k := 3) (by decide)).bind fun b hb => ?_
    have hb : b = true ↔ i.toNat + 3 ≤ buffer.bytes.length := hb
    by_cases hfits : i.toNat + 3 ≤ buffer.bytes.length
    · rw [if_pos (hb.mpr hfits), if_pos hfits]
      refine (isShortCode_holds hi).bind fun short hshort => ?_
      by_cases hs : short = true
      · rw [if_pos hs, if_pos (hshort.mp hs)]
        exact holds_pure (by simp [position])
      · rw [if_neg hs, if_neg (mt hshort.mpr hs)]
        refine (isLongCode_holds hi).bind fun long hlong => ?_
        by_cases hl : long = true
        · rw [if_pos hl, if_pos (hlong.mp hl)]
          exact holds_pure (by simp [position])
        · rw [if_neg hl, if_neg (mt hlong.mpr hl)]
          have hmax := buffer.size_le
          have hadd : i.toNat + (1 : UInt64).toNat < 2 ^ 64 := by
            change i.toNat + 1 < _
            omega
          refine (add_holds hadd).bind fun next hnext => ?_
          have hnext : next.toNat = i.toNat + 1 := hnext
          rw [← hnext]
          exact ih next (by omega) (by omega)
    · rw [if_neg (mt hb.mp hfits), if_neg hfits]
      exact holds_pure rfl

theorem toNat_ofNat_position {p : Nat} (h : p ≤ buffer.bytes.length) :
    (UInt64.ofNat p).toNat = p := by
  have hmax := buffer.size_le
  rw [UInt64.toNat_ofNat', Nat.mod_eq_of_lt (by omega)]

/-- A position of the buffer is never `npos`. -/
theorem ofNat_position_ne_npos {p : Nat} (h : p ≤ buffer.bytes.length) :
    UInt64.ofNat p ≠ npos := by
  intro hp
  have hmax := buffer.size_le
  have hval : (UInt64.ofNat p).toNat = 2 ^ 64 - 1 := congrArg UInt64.toNat hp
  rw [toNat_ofNat_position h] at hval
  omega

theorem toNat_ofNat_size (code : StartCode) : (UInt64.ofNat code.size).toNat = code.size := by
  cases code <;> rfl

/-- What `findStartCode` returns satisfies the condition on its log entry. -/
theorem inBounds_found {start : UInt64} (hstart : start.toNat ≤ buffer.bytes.length) :
    let found := position (RtspPush.findStartCode buffer.bytes start.toNat)
    InBounds buffer.bytes (.found start found.1 found.2) := by
  rcases findStartCode_cases hstart with
    ⟨hmarked, hfind⟩ | ⟨p, code, hmarked, hfind, hle, hlen⟩
  · rw [hfind]
    exact ⟨iff_of_true rfl hmarked, fun h => absurd rfl h⟩
  · rw [hfind]
    have hp : p ≤ buffer.bytes.length := by omega
    refine ⟨iff_of_false (ofNat_position_ne_npos hp) (not_not_intro hmarked), fun _ => ?_⟩
    simp only [position]
    rw [toNat_ofNat_position hp, toNat_ofNat_size]
    exact ⟨hle, hlen⟩

theorem findStartCode_holds {fuel : Nat} {start : UInt64}
    (hstart : start.toNat ≤ buffer.bytes.length) (hfuel : buffer.bytes.length < fuel) :
    Holds (InBounds buffer.bytes) (findStartCode buffer fuel start)
      (· = position (RtspPush.findStartCode buffer.bytes start.toNat)) := by
  refine (findStartCodeLoop_holds fuel start hstart (by omega)).bind fun found hfound => ?_
  subst hfound
  have hlog := inBounds_found hstart
  exact (holds_log (P := InBounds buffer.bytes) hlog).bind fun _ _ => holds_pure rfl

/-! ## The split -/

/-- A span of the scanner over natural numbers. -/
def NalSpan.ofNat (nal : RtspPush.NalSpan) : NalSpan := ⟨.ofNat nal.offset, .ofNat nal.size⟩

/-- `nalEnd` of the scanner over natural numbers. -/
def natEnd (data : List UInt8) : Option (Nat × Nat) → Nat
  | none => data.length
  | some (nextStart, _) => nextStart

theorem natSplitLoop_succ (data : List UInt8) (rounds start startCodeSize : Nat) :
    RtspPush.splitLoop data (rounds + 1) (some (start, startCodeSize)) =
      let nalStart := start + startCodeSize
      let next := RtspPush.findStartCode data nalStart
      if natEnd data next > nalStart then
        ⟨nalStart, natEnd data next - nalStart⟩ :: RtspPush.splitLoop data rounds next
      else RtspPush.splitLoop data rounds next :=
  rfl

/-- Both scanners have the same `nalEnd`. -/
theorem toNat_nalEnd {start : Nat} (hstart : start ≤ buffer.bytes.length) :
    (if (position (RtspPush.findStartCode buffer.bytes start)).1 = npos then buffer.size
      else (position (RtspPush.findStartCode buffer.bytes start)).1).toNat =
      natEnd buffer.bytes (RtspPush.findStartCode buffer.bytes start) := by
  rcases findStartCode_cases hstart with ⟨-, hfind⟩ | ⟨p, code, -, hfind, -, hlen⟩
  · rw [hfind]
    exact buffer.size_eq
  · rw [hfind]
    have hp : p ≤ buffer.bytes.length := by omega
    have hne : (position (some (p, code.size))).1 ≠ npos := ofNat_position_ne_npos hp
    rw [if_neg hne]
    exact toNat_ofNat_position hp

theorem splitLoop_succ (fuel rounds : Nat) (nals : List NalSpan) (found : UInt64 × UInt64) :
    splitLoop buffer fuel (rounds + 1) nals found =
      if found.1 = npos then pure nals
      else (do
        let nalStart ← add found.1 found.2
        let next ← findStartCode buffer fuel nalStart
        let nalEnd := if next.1 = npos then buffer.size else next.1
        if nalEnd > nalStart then
          let nalSize ← sub nalEnd nalStart
          splitLoop buffer fuel rounds (nals ++ [⟨nalStart, nalSize⟩]) next
        else
          splitLoop buffer fuel rounds nals next) :=
  rfl

/-- **The outer loop ends**: it goes on behind the code it found, so each round starts at least
three bytes further. `start` is where the search for the current code began. -/
theorem splitLoop_holds {fuel : Nat} (hfuel : buffer.bytes.length < fuel) :
    ∀ (rounds natRounds start : Nat) (nals : List NalSpan), start ≤ buffer.bytes.length →
      buffer.bytes.length < start + rounds → buffer.bytes.length < start + natRounds →
        Holds (InBounds buffer.bytes)
          (splitLoop buffer fuel rounds nals
            (position (RtspPush.findStartCode buffer.bytes start)))
          (· = nals ++ (RtspPush.splitLoop buffer.bytes natRounds
            (RtspPush.findStartCode buffer.bytes start)).map NalSpan.ofNat) := by
  intro rounds
  induction rounds with
  | zero =>
    intro natRounds start nals hstart hrounds _
    omega
  | succ rounds ih =>
    intro natRounds start nals hstart hrounds hnat
    obtain ⟨natRounds, rfl⟩ : ∃ k, natRounds = k + 1 := ⟨natRounds - 1, by omega⟩
    rcases findStartCode_cases hstart with ⟨-, hfind⟩ | ⟨p, code, -, hfind, hle, hlen⟩
    · rw [hfind]
      exact holds_pure (by simp [RtspPush.splitLoop])
    · rw [hfind]
      have hcode := three_le_size code
      have hp : p ≤ buffer.bytes.length := by omega
      have hmax := buffer.size_le
      have hne : (position (some (p, code.size))).1 ≠ npos := ofNat_position_ne_npos hp
      rw [splitLoop_succ, if_neg hne, natSplitLoop_succ]
      have hadd : (UInt64.ofNat p).toNat + (UInt64.ofNat code.size).toNat < 2 ^ 64 := by
        rw [toNat_ofNat_position hp, toNat_ofNat_size]
        omega
      refine (add_holds hadd).bind fun nalStart hnalStart => ?_
      rw [toNat_ofNat_position hp, toNat_ofNat_size] at hnalStart
      rw [← hnalStart] at hlen ⊢
      refine (findStartCode_holds hlen hfuel).bind fun next hnext => ?_
      subst hnext
      dsimp only
      have hrest := fun nals => ih natRounds nalStart.toNat nals hlen (by omega) (by omega)
      rw [← toNat_nalEnd hlen]
      generalize (if (position (RtspPush.findStartCode buffer.bytes nalStart.toNat)).1 = npos
        then buffer.size
        else (position (RtspPush.findStartCode buffer.bytes nalStart.toNat)).1) = nalEnd
      by_cases hlt : nalEnd > nalStart
      · have hnat : nalEnd.toNat > nalStart.toNat := UInt64.lt_iff_toNat_lt.mp hlt
        rw [if_pos hlt, if_pos hnat]
        refine (sub_holds (Nat.le_of_lt hnat)).bind fun nalSize hnalSize => ?_
        refine (hrest _).mono fun spans hspans => ?_
        rw [hspans, ← hnalSize, List.map_cons, NalSpan.ofNat, UInt64.ofNat_toNat,
          UInt64.ofNat_toNat, List.append_assoc]
        rfl
      · rw [if_neg hlt, if_neg (mt UInt64.lt_iff_toNat_lt.mpr hlt)]
        exact hrest nals

/-- **`splitAnnexB` in `size_t` arithmetic** ends within as many steps as there are bytes, stays in
bounds, and returns the spans of the scanner over natural numbers. -/
theorem splitAnnexB_holds {fuel : Nat} (hfuel : buffer.bytes.length < fuel) :
    Holds (InBounds buffer.bytes) (splitAnnexB buffer fuel)
      (· = (RtspPush.splitAnnexB buffer.bytes).map NalSpan.ofNat) := by
  refine (findStartCode_holds (Nat.zero_le _) hfuel).bind fun first hfirst => ?_
  subst hfirst
  exact splitLoop_holds hfuel fuel (buffer.bytes.length + 1) 0 [] (Nat.zero_le _) (by omega)
    (by omega)

end RtspPush.SizeT
