import Mathlib.Data.List.Basic

/-!
# Byte streams cut by start codes

The byte stream format of Annex B: units, each behind the mark `00 00 01` or behind the longer
`00 00 00 01`. The short code is a suffix of the long one and a payload may end in zeros, so one
stream has several readings as units. `Canonical` picks the one a left-to-right scanner finds: no
segment holds a mark, and a short code never follows a zero (it would have been long).

`firstCode_append` says where the first code of a canonical stream is, `exists_canonical` that
every byte string has a canonical reading, `Canonical.append` when two streams can be put one
behind the other, and `recut` turns any reading whose segments hold no
mark into the canonical one by moving at most one zero at each boundary.
-/

namespace RtspPush.Lib

/-- The two forms of a start code. -/
inductive StartCode
  | short
  | long
  deriving DecidableEq, Repr

def StartCode.bytes : StartCode → List UInt8
  | .short => [0, 0, 1]
  | .long => [0, 0, 0, 1]

def StartCode.size (c : StartCode) : Nat := c.bytes.length

/-- A start code and the payload behind it. -/
structure StreamUnit where
  code : StartCode
  payload : List UInt8
  deriving DecidableEq, Repr

def StreamUnit.bytes (u : StreamUnit) : List UInt8 := u.code.bytes ++ u.payload

/-- The units one after the other. -/
def assemble (us : List StreamUnit) : List UInt8 := us.flatMap StreamUnit.bytes

/-- A contiguous `00 00 01` occurs. -/
def Marked (l : List UInt8) : Prop := [0, 0, 1] <:+: l

def EndsInZero (l : List UInt8) : Prop := l.getLast? = some 0

instance (l : List UInt8) : Decidable (Marked l) := inferInstanceAs (Decidable (_ <:+: l))

instance (l : List UInt8) : Decidable (EndsInZero l) := inferInstanceAs (Decidable (_ = _))

/-- The reading `pre ++ assemble us` that a left-to-right scanner finds. -/
def Canonical : List UInt8 → List StreamUnit → Prop
  | pre, [] => ¬ Marked pre
  | pre, u :: us =>
    ¬ Marked pre ∧ (u.code = .short → ¬ EndsInZero pre) ∧ Canonical u.payload us

@[simp] theorem assemble_nil : assemble [] = [] := rfl

theorem assemble_cons (u : StreamUnit) (us : List StreamUnit) :
    assemble (u :: us) = u.code.bytes ++ (u.payload ++ assemble us) := by
  simp [assemble, StreamUnit.bytes]

@[simp] theorem size_short : StartCode.short.size = 3 := rfl

@[simp] theorem size_long : StartCode.long.size = 4 := rfl

theorem three_le_size (c : StartCode) : 3 ≤ c.size := by
  cases c <;> simp

@[simp] theorem length_bytes (c : StartCode) : c.bytes.length = c.size := rfl

/-! ## Marks in a list -/

theorem not_marked_nil : ¬ Marked [] := by decide

theorem Marked.cons {x : UInt8} {l : List UInt8} (h : Marked l) : Marked (x :: l) :=
  List.infix_cons_iff.mpr (Or.inr h)

theorem marked_cons_iff {x : UInt8} {l : List UInt8} :
    Marked (x :: l) ↔ [0, 0, 1] <+: x :: l ∨ Marked l :=
  List.infix_cons_iff

theorem Marked.append_left {l : List UInt8} (pre : List UInt8) (h : Marked l) :
    Marked (pre ++ l) :=
  h.trans (List.suffix_append pre l).isInfix

theorem Marked.append_right {l : List UInt8} (h : Marked l) (post : List UInt8) :
    Marked (l ++ post) :=
  h.trans (List.prefix_append l post).isInfix

theorem Marked.of_dropLast {l : List UInt8} (h : Marked l.dropLast) : Marked l :=
  h.trans (List.dropLast_prefix l).isInfix

/-- A zero behind a list adds no mark to it. -/
theorem Marked.of_append_zero {l : List UInt8} (h : Marked (l ++ [0])) : Marked l := by
  rcases List.infix_concat_iff.mp h with ⟨t, ht⟩ | hi
  · have hlast := congrArg List.getLast? ht
    simp at hlast
  · exact hi

theorem marked_bytes (c : StartCode) : Marked c.bytes := by
  cases c <;> decide

theorem marked_assemble (pre : List UInt8) (u : StreamUnit) (us : List StreamUnit) :
    Marked (pre ++ assemble (u :: us)) := by
  rw [assemble_cons]
  exact ((marked_bytes u.code).append_right _).append_left pre

theorem endsInZero_cons_cons {x y : UInt8} {l : List UInt8} :
    EndsInZero (x :: y :: l) ↔ EndsInZero (y :: l) := by
  simp [EndsInZero, List.getLast?_cons_cons]

theorem not_endsInZero_nil : ¬ EndsInZero [] := by decide

/-! ## The first start code -/

/-- Position and form of the first start code, looking for the short form first at each
position. -/
def firstCode : List UInt8 → Option (Nat × StartCode)
  | [] => none
  | x :: l =>
    if [0, 0, 1] <+: x :: l then some (0, .short)
    else if [0, 0, 0, 1] <+: x :: l then some (0, .long)
    else (firstCode l).map fun p => (p.1 + 1, p.2)

theorem marked_of_longCode {l : List UInt8} (h : [0, 0, 0, 1] <+: l) : Marked l := by
  obtain ⟨t, rfl⟩ := h
  exact ⟨[0], t, rfl⟩

theorem firstCode_eq_none {l : List UInt8} (h : ¬ Marked l) : firstCode l = none := by
  induction l with
  | nil => rfl
  | cons x l ih =>
    have hshort : ¬ [0, 0, 1] <+: x :: l := fun hp => h hp.isInfix
    have hlong : ¬ [0, 0, 0, 1] <+: x :: l := fun hp => h (marked_of_longCode hp)
    unfold firstCode
    rw [if_neg hshort, if_neg hlong, ih fun hl => h hl.cons]
    rfl

/-- A mark that starts inside an unmarked segment does not reach past its end. -/
theorem not_mark_at {x : UInt8} {pre : List UInt8} (rest : List UInt8) (c : StartCode)
    (h : ¬ Marked (x :: pre)) : ¬ [0, 0, 1] <+: (x :: pre) ++ (c.bytes ++ rest) := by
  intro hp
  match pre with
  | [] => cases c <;> simp [StartCode.bytes, List.cons_prefix_cons] at hp
  | [y] => cases c <;> simp [StartCode.bytes, List.cons_prefix_cons] at hp
  | y :: z :: pre =>
    simp only [List.cons_append, List.cons_prefix_cons, List.nil_prefix, and_true] at hp
    obtain ⟨rfl, rfl, rfl⟩ := hp
    exact h ⟨[], pre, rfl⟩

/-- A long code starts inside an unmarked segment only when the code behind the segment is short
and the segment ends in the missing zero. -/
theorem not_long_at {x : UInt8} {pre : List UInt8} (rest : List UInt8) {c : StartCode}
    (h : ¬ Marked (x :: pre)) (hz : c = .short → ¬ EndsInZero (x :: pre)) :
    ¬ [0, 0, 0, 1] <+: (x :: pre) ++ (c.bytes ++ rest) := by
  intro hp
  rw [List.cons_append, List.cons_prefix_cons] at hp
  obtain ⟨rfl, hp⟩ := hp
  match pre with
  | [] =>
    cases c
    · exact hz rfl rfl
    · simp [StartCode.bytes, List.cons_prefix_cons] at hp
  | y :: pre => exact not_mark_at rest c (fun hm => h hm.cons) hp

/-- **The first code of a canonical stream** is the one behind the first segment. -/
theorem firstCode_append {pre rest : List UInt8} {c : StartCode} (h : ¬ Marked pre)
    (hz : c = .short → ¬ EndsInZero pre) :
    firstCode (pre ++ (c.bytes ++ rest)) = some (pre.length, c) := by
  induction pre with
  | nil =>
    cases c <;> simp [StartCode.bytes, firstCode, List.cons_prefix_cons]
  | cons x pre ih =>
    have htail : firstCode (pre ++ (c.bytes ++ rest)) = some (pre.length, c) := by
      refine ih (fun hm => h hm.cons) fun hc => ?_
      cases pre with
      | nil => exact not_endsInZero_nil
      | cons y pre => exact fun he => hz hc (endsInZero_cons_cons.mpr he)
    have hshort := not_mark_at rest c h
    have hlong := not_long_at rest h hz
    rw [List.cons_append] at hshort hlong ⊢
    unfold firstCode
    rw [if_neg hshort, if_neg hlong, htail]
    rfl

/-! ## Every byte string has a canonical reading -/

theorem Canonical.not_marked {pre : List UInt8} {us : List StreamUnit} (h : Canonical pre us) :
    ¬ Marked pre := by
  cases us with
  | nil => exact h
  | cons u us => exact h.1

theorem Canonical.payload_not_marked :
    ∀ {us : List StreamUnit} {pre : List UInt8}, Canonical pre us →
      ∀ u ∈ us, ¬ Marked u.payload
  | [], _, _ => by simp
  | u :: us, _, h => by
    intro v hv
    rcases List.mem_cons.mp hv with rfl | hv
    · exact h.2.2.not_marked
    · exact h.2.2.payload_not_marked v hv

/-- One more byte in front: it completes a short code, lengthens a short code to a long one, or
joins the first segment. -/
theorem exists_canonical_cons {pre : List UInt8} {us : List StreamUnit} (x : UInt8)
    (h : Canonical pre us) :
    ∃ pre' us', x :: (pre ++ assemble us) = pre' ++ assemble us' ∧ Canonical pre' us' := by
  by_cases hm : [0, 0, 1] <+: x :: pre
  · obtain ⟨rest, hrest⟩ := hm
    refine ⟨[], ⟨.short, rest⟩ :: us, ?_, not_marked_nil, fun _ => not_endsInZero_nil, ?_⟩
    · rw [assemble_cons, ← List.cons_append, ← hrest]
      simp [StartCode.bytes]
    · have hpre : pre = 0 :: 1 :: rest := by
        simpa using (List.cons.inj hrest).2.symm
      have hr : ¬ Marked rest := fun hr => h.not_marked (by rw [hpre]; exact hr.cons.cons)
      subst hpre
      cases us with
      | nil => exact hr
      | cons u us =>
        refine ⟨hr, fun hc he => h.2.1 hc ?_, h.2.2⟩
        cases rest with
        | nil => exact absurd he not_endsInZero_nil
        | cons y rest => exact endsInZero_cons_cons.mpr (endsInZero_cons_cons.mpr he)
  · have hx : ¬ Marked (x :: pre) := fun hx => (marked_cons_iff.mp hx).elim hm h.not_marked
    match us with
    | [] => exact ⟨x :: pre, [], by simp, hx⟩
    | u :: us =>
      by_cases hz : u.code = .short ∧ pre = [] ∧ x = 0
      · obtain ⟨hc, rfl, rfl⟩ := hz
        refine ⟨[], ⟨.long, u.payload⟩ :: us, ?_, not_marked_nil, nofun, h.2.2⟩
        simp [assemble_cons, hc, StartCode.bytes]
      · refine ⟨x :: pre, u :: us, by simp, hx, fun hc he => ?_, h.2.2⟩
        cases pre with
        | nil =>
          have hx0 : x = 0 := by simpa [EndsInZero] using he
          exact hz ⟨hc, rfl, hx0⟩
        | cons y pre => exact h.2.1 hc (endsInZero_cons_cons.mp he)

/-- **Every byte string has a canonical reading.** -/
theorem exists_canonical (l : List UInt8) :
    ∃ pre us, l = pre ++ assemble us ∧ Canonical pre us := by
  induction l with
  | nil => exact ⟨[], [], rfl, not_marked_nil⟩
  | cons x l ih =>
    obtain ⟨pre, us, rfl, h⟩ := ih
    exact exists_canonical_cons x h

/-- A byte string that begins with a start code has a canonical reading with nothing in front. -/
theorem exists_canonical_nil {l : List UInt8} (h : ∃ c : StartCode, c.bytes <+: l) :
    ∃ us, l = assemble us ∧ Canonical [] us := by
  obtain ⟨c, hc⟩ := h
  have hfirst : (firstCode l).map Prod.fst = some 0 := by
    obtain ⟨rest, rfl⟩ := hc
    have hfirst : firstCode ([] ++ (c.bytes ++ rest)) = some (0, c) :=
      firstCode_append not_marked_nil fun _ => not_endsInZero_nil
    rw [List.nil_append] at hfirst
    rw [hfirst]
    rfl
  obtain ⟨pre, us, rfl, hcanon⟩ := exists_canonical l
  cases us with
  | nil =>
    have hnone := firstCode_eq_none (l := pre ++ assemble []) (by simpa using hcanon.not_marked)
    rw [hnone] at hfirst
    cases hfirst
  | cons u us =>
    rw [assemble_cons, firstCode_append hcanon.1 hcanon.2.1] at hfirst
    have hpre : pre = [] := by simpa using hfirst
    subst hpre
    exact ⟨u :: us, rfl, hcanon⟩

/-! ## Concatenation -/

theorem EndsInZero.append_left {l : List UInt8} (h : EndsInZero l) (pre : List UInt8) :
    EndsInZero (pre ++ l) := by
  cases l with
  | nil => exact absurd h not_endsInZero_nil
  | cons x l => rwa [EndsInZero, List.getLast?_append_of_ne_nil _ (List.cons_ne_nil x l)]

/-- Two canonical streams make one if the first lends no zero to the start code behind it. -/
theorem Canonical.append {us vs : List StreamUnit} (hv : Canonical [] vs) :
    ∀ {pre : List UInt8}, Canonical pre us → ¬ EndsInZero (pre ++ assemble us) →
      Canonical pre (us ++ vs) := by
  induction us with
  | nil =>
    intro pre h hz
    rw [assemble_nil, List.append_nil] at hz
    cases vs with
    | nil => exact h
    | cons v vs => exact ⟨h, fun _ => hz, hv.2.2⟩
  | cons u us ih =>
    intro pre h hz
    refine ⟨h.1, h.2.1, ih h.2.2 fun he => hz ?_⟩
    rw [assemble_cons]
    exact (he.append_left u.code.bytes).append_left pre

/-! ## From a reading to the canonical one -/

/-- Move the last zero of a segment into the short code behind it. -/
def recut : List UInt8 → List StreamUnit → List UInt8 × List StreamUnit
  | pre, [] => (pre, [])
  | pre, u :: us =>
    let r := recut u.payload us
    if u.code = .short ∧ EndsInZero pre then (pre.dropLast, ⟨.long, r.1⟩ :: r.2)
    else (pre, ⟨u.code, r.1⟩ :: r.2)

theorem recut_bytes (us : List StreamUnit) :
    ∀ pre, (recut pre us).1 ++ assemble (recut pre us).2 = pre ++ assemble us := by
  induction us with
  | nil => intro pre; rfl
  | cons u us ih =>
    intro pre
    rw [recut]
    split
    · next h =>
      have hlast : pre.dropLast ++ [0] = pre := List.dropLast_append_getLast? 0 h.2
      rw [assemble_cons, assemble_cons, ih u.payload, h.1]
      conv => rhs; rw [← hlast]
      simp [StartCode.bytes]
    · rw [assemble_cons, assemble_cons, ih u.payload]

theorem recut_canonical {us : List StreamUnit} :
    ∀ {pre}, ¬ Marked pre → (∀ u ∈ us, ¬ Marked u.payload) →
      Canonical (recut pre us).1 (recut pre us).2 := by
  induction us with
  | nil => intro pre h _; exact h
  | cons u us ih =>
    intro pre h hus
    have hrest := ih (hus u List.mem_cons_self) fun v hv => hus v (List.mem_cons_of_mem u hv)
    rw [recut]
    split
    · exact ⟨fun hd => h hd.of_dropLast, nofun, hrest⟩
    · next hne => exact ⟨h, fun hc he => hne ⟨hc, he⟩, hrest⟩

/-- The first segment keeps its bytes unless it gives its last zero to a short code. -/
theorem recut_fst_cons (pre : List UInt8) (u : StreamUnit) (us : List StreamUnit) :
    (recut pre (u :: us)).1 = if u.code = .short ∧ EndsInZero pre then pre.dropLast else pre := by
  rw [recut]
  split <;> rfl

/-- The payloads of the canonical reading do not depend on the first segment. -/
theorem recut_payloads_cons (pre : List UInt8) (u : StreamUnit) (us : List StreamUnit) :
    (recut pre (u :: us)).2.map StreamUnit.payload =
      (recut u.payload us).1 :: (recut u.payload us).2.map StreamUnit.payload := by
  rw [recut]
  split <;> rfl

/-! ## When a reading is the canonical one -/

/-- The payload in front of a unit keeps its last zero: a short code would take it. -/
def Keeps (u v : StreamUnit) : Prop := v.code = .short → ¬ EndsInZero u.payload

theorem canonical_payload_iff :
    ∀ {us : List StreamUnit} {u : StreamUnit}, Canonical u.payload us ↔
      (∀ v ∈ u :: us, ¬ Marked v.payload) ∧ (u :: us).IsChain Keeps
  | [], u => by simp [Canonical]
  | v :: us, u => by
    rw [Canonical, canonical_payload_iff, List.forall_mem_cons (a := u), List.isChain_cons_cons]
    exact ⟨fun h => ⟨⟨h.1, h.2.2.1⟩, h.2.1, h.2.2.2⟩, fun h => ⟨h.1.1, h.2.1, h.1.2, h.2.2⟩⟩

theorem canonical_nil_iff {us : List StreamUnit} :
    Canonical [] us ↔ (∀ u ∈ us, ¬ Marked u.payload) ∧ us.IsChain Keeps := by
  cases us with
  | nil => simp [Canonical, not_marked_nil]
  | cons u us =>
    rw [Canonical, canonical_payload_iff]
    exact ⟨fun h => h.2.2, fun h => ⟨not_marked_nil, fun _ => not_endsInZero_nil, h⟩⟩

theorem length_recut (us : List StreamUnit) : ∀ pre, (recut pre us).2.length = us.length := by
  induction us with
  | nil => intro pre; rfl
  | cons u us ih =>
    intro pre
    rw [recut]
    split <;> simp [ih]

/-- A reading that `recut` leaves its payloads is the canonical one. -/
theorem canonical_of_recut {us : List StreamUnit} :
    ∀ {pre : List UInt8}, ¬ Marked pre → (∀ u ∈ us, ¬ Marked u.payload) → (recut pre us).1 = pre →
      (recut pre us).2.map StreamUnit.payload = us.map StreamUnit.payload → Canonical pre us := by
  induction us with
  | nil => intro pre hpre _ _ _; exact hpre
  | cons u us ih =>
    intro pre hpre hus hfirst hpayloads
    obtain ⟨hu, hus⟩ := List.forall_mem_cons.mp hus
    rw [recut_payloads_cons, List.map_cons] at hpayloads
    obtain ⟨hpayload, hpayloads⟩ := List.cons.inj hpayloads
    refine ⟨hpre, fun hcode hzero => ?_, ih hu hus hpayload hpayloads⟩
    rw [recut_fst_cons, if_pos ⟨hcode, hzero⟩] at hfirst
    have hlast : pre.dropLast ++ [0] = pre := List.dropLast_append_getLast? 0 hzero
    rw [hfirst] at hlast
    simp at hlast

end RtspPush.Lib
