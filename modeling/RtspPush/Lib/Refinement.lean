import RtspPush.Lib.Machine

/-!
# Refinement and conservation

Two rules about whole runs that need one step only. `Refines`: a machine that makes some steps of
another one in each of its own runs the other one, so that what holds of the runs of the other one
holds of its own. `conserved`: if each step takes in what it gives out or keeps, in order, so does
each run.
-/

namespace RtspPush.Lib.Machine

universe u u' v v' w w'

variable {σ : Type u} {τ : Type u'} {α : Type v} {β : Type v'} {γ : Type w}
variable {M : Machine σ α} {N : Machine τ β}

/-- Nothing is seen of actions that show nothing. -/
theorem observed_eq_nil {obs : σ → α → List γ} {as : List α}
    (h : ∀ s, ∀ a ∈ as, obs s a = []) : ∀ s, M.observed obs s as = [] := by
  induction as with
  | nil => intro s; rfl
  | cons a as ih =>
    intro s
    obtain ⟨t, ht⟩ | hnone := (M.step s a).eq_none_or_eq_some.symm
    · have hrest : ∀ s, ∀ b ∈ as, obs s b = [] := fun s b hb => h s b (List.mem_cons_of_mem a hb)
      rw [observed_cons ht, h s a List.mem_cons_self, ih hrest t, List.append_nil]
    · simp only [observed, hnone]

/-- What is seen, seen through `f`. -/
theorem flatMap_observed {obs : σ → α → List γ} {δ : Type w'} (f : γ → List δ) {as : List α} :
    ∀ s, (M.observed obs s as).flatMap f = M.observed (fun s a => (obs s a).flatMap f) s as := by
  induction as with
  | nil => intro s; rfl
  | cons a as ih =>
    intro s
    obtain ⟨t, ht⟩ | hnone := (M.step s a).eq_none_or_eq_some.symm
    · rw [observed_cons ht, observed_cons ht, List.flatMap_append, ih t]
    · simp only [observed, hnone, List.flatMap_nil]

/-- `M` runs `N` on what `f` sees of its state, and each of its steps is the steps `g` of `N`. -/
structure Refines (M : Machine σ α) (N : Machine τ β) (f : σ → τ) (g : σ → α → List β) : Prop where
  init : f M.init = N.init
  step : ∀ s a t, M.step s a = some t → N.exec (f s) (g s a) = some (f t)

namespace Refines

variable {f : σ → τ} {g : σ → α → List β}

/-- A run of `M` is a run of `N`. -/
theorem exec (h : Refines M N f g) {as : List α} :
    ∀ {s t : σ}, M.exec s as = some t → N.exec (f s) (M.observed g s as) = some (f t) := by
  induction as with
  | nil =>
    intro s t ht
    cases ht
    rfl
  | cons a as ih =>
    intro s t ht
    obtain ⟨u, hu, ht⟩ := exec_cons_iff.mp ht
    rw [observed_cons hu]
    exact exec_append_iff.mpr ⟨f u, h.step s a u hu, ih ht⟩

/-- What is seen of the steps of `N` can be seen of those of `M`. -/
theorem observed (h : Refines M N f g) {obs : τ → β → List γ} {obs' : σ → α → List γ}
    (hobs : ∀ s a t, M.step s a = some t → N.observed obs (f s) (g s a) = obs' s a)
    {as : List α} :
    ∀ {s t : σ}, M.exec s as = some t →
      N.observed obs (f s) (M.observed g s as) = M.observed obs' s as := by
  induction as with
  | nil => intro s t _; rfl
  | cons a as ih =>
    intro s t ht
    obtain ⟨u, hu, ht⟩ := exec_cons_iff.mp ht
    rw [observed_cons hu, observed_cons hu, observed_append (h.step s a u hu), hobs s a u hu,
      ih ht]

end Refines

/-- **Conservation**: what a run has taken in, behind what was held before, is what it has given
out, with what is held now behind it. -/
theorem conserved {taken given : σ → α → List γ} {held : σ → List γ}
    (hstep : ∀ s a t, M.step s a = some t → held s ++ taken s a = given s a ++ held t)
    {as : List α} :
    ∀ {s t : σ}, M.exec s as = some t →
      held s ++ M.observed taken s as = M.observed given s as ++ held t := by
  induction as with
  | nil =>
    intro s t ht
    cases ht
    simp [Machine.observed]
  | cons a as ih =>
    intro s t ht
    obtain ⟨u, hu, ht⟩ := exec_cons_iff.mp ht
    rw [observed_cons hu, observed_cons hu, ← List.append_assoc, hstep s a u hu,
      List.append_assoc, ih ht, List.append_assoc]

end RtspPush.Lib.Machine
