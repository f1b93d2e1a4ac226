import Mathlib.Data.List.Basic
import Mathlib.Logic.Function.Basic

/-!
# Ledgers

What has been created and given back, the latest event first. `WellKept` is that nothing is created
while it is held and nothing given back that is not held or that something held still uses; then
everything has been given back as often as it has been created, but for what is held
(`count_created`). `Keeps` ties a ledger to whatever says in a program what is held, with a rule for
each way in which a program writes to it.
-/

namespace RtspPush.Lib

universe u

/-- A resource has been created or given back. -/
inductive LedgerEvent (ρ : Type u)
  | created (r : ρ)
  | givenBack (r : ρ)
  deriving DecidableEq

namespace Ledger

variable {ρ : Type u} [DecidableEq ρ]

/-- The resource has been created and not given back since. -/
def holds (r : ρ) : List (LedgerEvent ρ) → Bool
  | [] => false
  | .created r' :: log => if r' = r then true else holds r log
  | .givenBack r' :: log => if r' = r then false else holds r log

/-- Nothing is created twice, given back twice, or given back before all that uses it. -/
def WellKept (uses : ρ → ρ → Bool) : List (LedgerEvent ρ) → Prop
  | [] => True
  | .created r :: log => holds r log = false ∧ WellKept uses log
  | .givenBack r :: log =>
    holds r log = true ∧ (∀ user, uses user r = true → holds user log = false) ∧ WellKept uses log

@[simp] theorem holds_created (r r' : ρ) (log : List (LedgerEvent ρ)) :
    holds r (.created r' :: log) = if r' = r then true else holds r log := rfl

@[simp] theorem holds_givenBack (r r' : ρ) (log : List (LedgerEvent ρ)) :
    holds r (.givenBack r' :: log) = if r' = r then false else holds r log := rfl

/-- **Each resource has been created as often as it has been given back**, and once more if it is
held. -/
theorem count_created {uses : ρ → ρ → Bool} (r : ρ) :
    ∀ {log : List (LedgerEvent ρ)}, WellKept uses log →
      log.count (.created r) = log.count (.givenBack r) + if holds r log then 1 else 0 := by
  intro log
  induction log with
  | nil => intro _; rfl
  | cons event log ih =>
    intro h
    cases event with
    | created r' =>
      obtain ⟨hfree, hlog⟩ := h
      by_cases hr : r' = r
      · subst hr
        simp [ih hlog, hfree]
      · simp [ih hlog, hr]
    | givenBack r' =>
      obtain ⟨hheld, -, hlog⟩ := h
      by_cases hr : r' = r
      · subst hr
        simp [ih hlog, hheld]
      · simp [ih hlog, hr]

/-- The ledger is well kept and says of every resource what `held` says. -/
structure Keeps (uses : ρ → ρ → Bool) (log : List (LedgerEvent ρ)) (held : ρ → Bool) : Prop where
  wellKept : WellKept uses log
  holds_eq : ∀ r, holds r log = held r

namespace Keeps

variable {uses : ρ → ρ → Bool} {log : List (LedgerEvent ρ)} {held : ρ → Bool}

theorem nil : Keeps uses [] fun _ => false := ⟨trivial, fun _ => rfl⟩

/-- A resource that is not held is created, or is not. -/
theorem create (hk : Keeps uses log held) {r : ρ} (hfree : held r = false) (happens : Bool) :
    Keeps uses (if happens then .created r :: log else log) (Function.update held r happens) := by
  cases happens with
  | false =>
    have hsame : Function.update held r false = held := hfree ▸ Function.update_eq_self r held
    rw [hsame]
    exact hk
  | true =>
    refine ⟨⟨(hk.holds_eq r).trans hfree, hk.wellKept⟩, fun r' => ?_⟩
    by_cases hr : r' = r
    · subst hr
      simp
    · simp [hr, Ne.symm hr, hk.holds_eq r']

/-- A resource that nothing held uses is given back if it is held. -/
theorem giveBack (hk : Keeps uses log held) {r : ρ}
    (husers : ∀ user, uses user r = true → held user = false) :
    Keeps uses (if held r then .givenBack r :: log else log) (Function.update held r false) := by
  cases hheld : held r with
  | false =>
    have hsame : Function.update held r false = held := hheld ▸ Function.update_eq_self r held
    rw [hsame]
    exact hk
  | true =>
    refine ⟨⟨(hk.holds_eq r).trans hheld, fun user huse => ?_, hk.wellKept⟩, fun r' => ?_⟩
    · exact (hk.holds_eq user).trans (husers user huse)
    · by_cases hr : r' = r
      · subst hr
        simp
      · simp [hr, Ne.symm hr, hk.holds_eq r']

end Keeps

end Ledger

end RtspPush.Lib
