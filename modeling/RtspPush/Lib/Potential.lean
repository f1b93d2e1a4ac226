import Mathlib.Algebra.GroupWithZero.Nat
import RtspPush.Lib.Machine

/-!
# Potentials

A bound on the work of every run, by what one step does: each step's work is paid by what it takes
from a potential or by what it brings in. `potential` sums this up over a run, with an invariant
beside it; with nothing brought in the potential bounds the length of the run.
-/

namespace RtspPush.Lib.Machine

universe u v

variable {σ : Type u} {α : Type v} {M : Machine σ α}

/-- The sum of `cost` over the steps that a run takes. -/
def spent (M : Machine σ α) (cost : σ → α → Nat) : σ → List α → Nat
  | _, [] => 0
  | s, a :: as =>
    match M.step s a with
    | some t => cost s a + spent M cost t as
    | none => 0

theorem spent_cons {cost : σ → α → Nat} {s t : σ} {a : α} {as : List α}
    (h : M.step s a = some t) : M.spent cost s (a :: as) = cost s a + M.spent cost t as := by
  simp only [spent, h]

/-- A cost that depends on the action alone. -/
theorem spent_sum {cost : α → Nat} {as : List α} :
    ∀ {s t : σ}, M.exec s as = some t → M.spent (fun _ a => cost a) s as = (as.map cost).sum := by
  induction as with
  | nil => intro s t _; rfl
  | cons a as ih =>
    intro s t h
    obtain ⟨u, hu, ht⟩ := exec_cons_iff.mp h
    rw [spent_cons hu, ih ht, List.map_cons, List.sum_cons]

/-- The actions of one kind cost the same. -/
theorem spent_countP {p : α → Bool} {n : Nat} {s t : σ} {as : List α} (h : M.exec s as = some t) :
    M.spent (fun _ a => if p a then n else 0) s as = n * as.countP p := by
  rw [spent_sum h]
  clear h
  induction as with
  | nil => rfl
  | cons a as ih =>
    rw [List.map_cons, List.sum_cons, ih, List.countP_cons]
    split
    · rw [Nat.mul_succ, Nat.add_comm]
    · rw [Nat.zero_add, Nat.add_zero]

/-- **The potential of a run**: what every step allowed by `P` pays for itself, every run that `P`
allows does. -/
theorem potential {P : σ → α → Prop} {I : σ → Prop} {Φ : σ → Nat} {work brings : σ → α → Nat}
    (hstep : ∀ s a t, I s → P s a → M.step s a = some t →
      I t ∧ work s a + Φ t ≤ Φ s + brings s a)
    {as : List α} :
    ∀ {s t : σ}, I s → M.Along P s as → M.exec s as = some t →
      I t ∧ M.spent work s as + Φ t ≤ Φ s + M.spent brings s as := by
  induction as with
  | nil =>
    intro s t hs _ h
    cases h
    exact ⟨hs, by simp [spent]⟩
  | cons a as ih =>
    intro s t hs hP h
    obtain ⟨u, hu, ht⟩ := exec_cons_iff.mp h
    obtain ⟨hI, hpaid⟩ := hstep s a u hs hP.1 hu
    obtain ⟨hend, hrest⟩ := ih hI (hP.2 u hu) ht
    rw [spent_cons hu, spent_cons hu]
    exact ⟨hend, by omega⟩

end RtspPush.Lib.Machine
