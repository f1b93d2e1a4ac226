import Mathlib.Data.List.Basic

/-!
# A cache that keeps the first value it wants

A cell that holds `unset` until a wanted value is offered and never changes after that. There is
no flag beside the cell: whether it still waits is read off its value. That is sound as long as
`unset` itself is never wanted, and then the cell holds what `List.find?` finds among the values
offered so far (`offerAll_eq_find?`).
-/

namespace RtspPush.Lib.FirstWins

universe u

variable {α : Type u} [DecidableEq α] {unset : α} {wanted : α → Bool}

variable (unset wanted) in
/-- Offer a value to the cell. -/
def offer (cell value : α) : α :=
  if wanted value = true ∧ cell = unset then value else cell

variable (unset wanted) in
/-- Offer values one after the other. -/
def offerAll (cell : α) (values : List α) : α := values.foldl (offer unset wanted) cell

theorem offerAll_append (cell : α) (xs ys : List α) :
    offerAll unset wanted cell (xs ++ ys) =
      offerAll unset wanted (offerAll unset wanted cell xs) ys :=
  List.foldl_append

/-- A cell that is set keeps its value. -/
theorem offerAll_of_set {cell : α} (h : cell ≠ unset) (values : List α) :
    offerAll unset wanted cell values = cell := by
  induction values with
  | nil => rfl
  | cons value values ih =>
    have hkeep : offer unset wanted cell value = cell := if_neg fun hset => h hset.2
    unfold offerAll at ih ⊢
    rw [List.foldl_cons, hkeep]
    exact ih

omit [DecidableEq α] in
theorem ne_unset_of_wanted (hunset : wanted unset = false) {value : α} (h : wanted value = true) :
    value ≠ unset := by
  rintro rfl
  rw [h] at hunset
  cases hunset

/-- **The cell holds the first wanted value.** -/
theorem offerAll_eq_find? (hunset : wanted unset = false) (values : List α) :
    offerAll unset wanted unset values = (values.find? wanted).getD unset := by
  induction values with
  | nil => rfl
  | cons value values ih =>
    cases hwanted : wanted value with
    | true =>
      have hne : value ≠ unset := ne_unset_of_wanted hunset hwanted
      have htake : offer unset wanted unset value = value := if_pos ⟨hwanted, rfl⟩
      rw [List.find?_cons_of_pos hwanted, Option.getD_some]
      calc offerAll unset wanted unset (value :: values)
          = offerAll unset wanted value values := by rw [offerAll, List.foldl_cons, htake]; rfl
        _ = value := offerAll_of_set hne values
    | false =>
      have hskip : offer unset wanted unset value = unset :=
        if_neg fun htake => by
          rw [hwanted] at htake
          cases htake.1
      rw [List.find?_cons_of_neg (by simp [hwanted]), ← ih]
      rw [offerAll, List.foldl_cons, hskip]
      rfl

/-- The cell is set exactly when a wanted value was offered. -/
theorem offerAll_ne_unset_iff (hunset : wanted unset = false) (values : List α) :
    offerAll unset wanted unset values ≠ unset ↔ ∃ value ∈ values, wanted value = true := by
  rw [offerAll_eq_find? hunset]
  cases hfind : values.find? wanted with
  | none =>
    have hnone := List.find?_eq_none.mp hfind
    simpa using hnone
  | some value =>
    have hwanted : wanted value = true := List.find?_some hfind
    exact ⟨fun _ => ⟨value, List.mem_of_find?_eq_some hfind, hwanted⟩,
      fun _ => ne_unset_of_wanted hunset hwanted⟩

/-- A set cell holds a wanted value: the first one that was offered. -/
theorem find?_eq_some_of_set (hunset : wanted unset = false) {values : List α}
    (h : offerAll unset wanted unset values ≠ unset) :
    values.find? wanted = some (offerAll unset wanted unset values) := by
  rw [offerAll_eq_find? hunset] at h ⊢
  cases hfind : values.find? wanted with
  | none =>
    rw [hfind] at h
    exact absurd rfl h
  | some value => rfl

end RtspPush.Lib.FirstWins
