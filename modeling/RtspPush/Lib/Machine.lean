import Mathlib.Data.List.Basic

/-!
# Action-labelled machines

A machine is a partial step function: every choice of the environment (which thread runs, what
a call returns) is an action, so a run is a list of actions and can be evaluated. The rules here
are the ones a verification uses: `Machine.invariant` (what each step preserves holds of every
reachable state), `Machine.invariant_along` (the same under a condition on the steps taken),
`Machine.exec_flatMap` (a state component that every step extends), `Machine.invariant_observed`
(a relation between the history of a run and its state) and `Machine.exists_of_not_along` (the
first step that breaks a condition).
-/

namespace RtspPush.Lib

universe u v w

/-- A partial step function with an initial state. -/
structure Machine (σ : Type u) (α : Type v) where
  init : σ
  step : σ → α → Option σ

namespace Machine

variable {σ : Type u} {α : Type v} (M : Machine σ α)

/-- Run a list of actions; `none` when one of them is not enabled. -/
def exec : σ → List α → Option σ
  | s, [] => some s
  | s, a :: as => (M.step s a).bind fun t => exec t as

/-- `t` is reached by some list of actions from the initial state. -/
def Reachable (t : σ) : Prop := ∃ as, M.exec M.init as = some t

/-- Every action of the run, with the state it is taken in, satisfies `P`. -/
def Along (P : σ → α → Prop) : σ → List α → Prop
  | _, [] => True
  | s, a :: as => P s a ∧ ∀ t, M.step s a = some t → Along P t as

/-- Every state of the run, the first and the last included, satisfies `I`. -/
def Throughout (I : σ → Prop) (s : σ) (as : List α) : Prop :=
  ∀ bs, bs <+: as → ∀ t, M.exec s bs = some t → I t

@[simp] theorem exec_nil (s : σ) : M.exec s [] = some s := rfl

variable {M}

theorem exec_cons_iff {s u : σ} {a : α} {as : List α} :
    M.exec s (a :: as) = some u ↔ ∃ t, M.step s a = some t ∧ M.exec t as = some u := by
  simp only [exec, Option.bind_eq_some_iff]

theorem exec_append_iff {s u : σ} {as bs : List α} :
    M.exec s (as ++ bs) = some u ↔ ∃ t, M.exec s as = some t ∧ M.exec t bs = some u := by
  induction as generalizing s with
  | nil => simp
  | cons a as ih =>
    simp only [List.cons_append, exec_cons_iff, ih]
    constructor
    · rintro ⟨t, ht, v, hv, hu⟩
      exact ⟨v, ⟨t, ht, hv⟩, hu⟩
    · rintro ⟨v, ⟨t, ht, hv⟩, hu⟩
      exact ⟨t, ht, v, hv, hu⟩

theorem Reachable.init : M.Reachable M.init := ⟨[], rfl⟩

theorem Reachable.exec {s t : σ} {as : List α} (hs : M.Reachable s) (h : M.exec s as = some t) :
    M.Reachable t := by
  obtain ⟨bs, hbs⟩ := hs
  exact ⟨bs ++ as, exec_append_iff.mpr ⟨s, hbs, h⟩⟩

theorem Reachable.step {s t : σ} {a : α} (hs : M.Reachable s) (h : M.step s a = some t) :
    M.Reachable t :=
  hs.exec (exec_cons_iff.mpr ⟨t, h, rfl⟩ : M.exec s [a] = some t)

/-! ## Invariants -/

/-- What every step allowed by `P` preserves holds at the end of every run that `P` allows. -/
theorem invariant_along {P : σ → α → Prop} {I : σ → Prop}
    (hstep : ∀ s a t, I s → P s a → M.step s a = some t → I t) :
    ∀ {as : List α} {s t : σ}, I s → M.Along P s as → M.exec s as = some t → I t := by
  intro as
  induction as with
  | nil =>
    intro s t hs _ h
    cases h
    exact hs
  | cons a as ih =>
    intro s t hs hP h
    obtain ⟨u, hu, ht⟩ := exec_cons_iff.mp h
    exact ih (hstep s a u hs hP.1 hu) (hP.2 u hu) ht

theorem along_true (s : σ) (as : List α) : M.Along (fun _ _ => True) s as := by
  induction as generalizing s with
  | nil => trivial
  | cons a as ih => exact ⟨trivial, fun t _ => ih t⟩

/-- What every step preserves holds at the end of every run. -/
theorem invariant_exec {I : σ → Prop} (hstep : ∀ s a t, I s → M.step s a = some t → I t)
    {as : List α} {s t : σ} (hs : I s) (h : M.exec s as = some t) : I t :=
  invariant_along (P := fun _ _ => True) (fun s a t hI _ => hstep s a t hI) hs
    (along_true s as) h

/-- **The invariant rule**: what holds initially and is preserved by every step holds of every
reachable state. -/
theorem invariant {I : σ → Prop} (hinit : I M.init)
    (hstep : ∀ s a t, I s → M.step s a = some t → I t) {t : σ} (h : M.Reachable t) : I t := by
  obtain ⟨as, has⟩ := h
  exact invariant_exec hstep hinit has

/-- A condition on steps that follows from another one and what that one preserves. -/
theorem Along.imp {P Q : σ → α → Prop} {I : σ → Prop}
    (hstep : ∀ s a t, I s → P s a → M.step s a = some t → I t)
    (h : ∀ s a, I s → P s a → Q s a) :
    ∀ {as : List α} {s : σ}, I s → M.Along P s as → M.Along Q s as := by
  intro as
  induction as with
  | nil => intro s _ _; trivial
  | cons a as ih =>
    intro s hs hP
    exact ⟨h s a hs hP.1, fun t ht => ih (hstep s a t hs hP.1 ht) (hP.2 t ht)⟩

/-- A condition on steps together with one on the actions of the run. -/
theorem Along.of_forall_mem {P R : σ → α → Prop} {Q : α → Prop}
    (h : ∀ s a, P s a → Q a → R s a) :
    ∀ {as : List α} {s : σ}, M.Along P s as → (∀ a ∈ as, Q a) → M.Along R s as := by
  intro as
  induction as with
  | nil => intro s _ _; trivial
  | cons a as ih =>
    intro s hP hQ
    obtain ⟨ha, hQ⟩ := List.forall_mem_cons.mp hQ
    exact ⟨h s a hP.1 ha, fun t ht => ih (hP.2 t ht) hQ⟩

/-- An observation that every step allowed by `P` extends by `g` of its action is, after a run,
extended by `g` of all its actions in order. -/
theorem exec_flatMap {β : Type w} {P : σ → α → Prop} {I : σ → Prop} (f : σ → List β)
    (g : α → List β) (hI : ∀ s a t, I s → P s a → M.step s a = some t → I t)
    (hstep : ∀ s a t, I s → P s a → M.step s a = some t → f t = f s ++ g a) :
    ∀ {as : List α} {s t : σ}, I s → M.Along P s as → M.exec s as = some t →
      f t = f s ++ as.flatMap g := by
  intro as
  induction as with
  | nil =>
    intro s t _ _ h
    cases h
    simp
  | cons a as ih =>
    intro s t hs hP h
    obtain ⟨u, hu, ht⟩ := exec_cons_iff.mp h
    rw [ih (hI s a u hs hP.1 hu) (hP.2 u hu) ht, hstep s a u hs hP.1 hu, List.flatMap_cons,
      List.append_assoc]

/-- The same for an observation that every step extends, whatever it starts from. -/
theorem exec_flatMap_of_step {β : Type w} (f : σ → List β) (g : α → List β)
    (hstep : ∀ s a t, M.step s a = some t → f t = f s ++ g a) {as : List α} {s t : σ}
    (h : M.exec s as = some t) : f t = f s ++ as.flatMap g :=
  exec_flatMap (P := fun _ _ => True) (I := fun _ => True) f g (fun _ _ _ _ _ _ => trivial)
    (fun s a t _ _ ht => hstep s a t ht) trivial (along_true s as) h

/-- What every step preserves of the actions taken so far and the state. -/
theorem invariant_history {I : List α → σ → Prop}
    (hstep : ∀ h s a t, I h s → M.step s a = some t → I (h ++ [a]) t) :
    ∀ {as : List α} {h : List α} {s t : σ}, I h s → M.exec s as = some t → I (h ++ as) t := by
  intro as
  induction as with
  | nil =>
    intro h s t hs hrun
    cases hrun
    simpa using hs
  | cons a as ih =>
    intro h s t hs hrun
    obtain ⟨u, hu, ht⟩ := exec_cons_iff.mp hrun
    have hrest := ih (hstep h s a u hs hu) ht
    rwa [List.append_assoc] at hrest

/-! ## Observations -/

/-- What `obs` sees of the steps that a run takes, in order. -/
def observed {β : Type w} (M : Machine σ α) (obs : σ → α → List β) : σ → List α → List β
  | _, [] => []
  | s, a :: as =>
    match M.step s a with
    | some t => obs s a ++ observed M obs t as
    | none => []

theorem observed_cons {β : Type w} {obs : σ → α → List β} {s t : σ} {a : α} {as : List α}
    (h : M.step s a = some t) :
    M.observed obs s (a :: as) = obs s a ++ M.observed obs t as := by
  simp only [observed, h]

theorem observed_append {β : Type w} {obs : σ → α → List β} {bs : List α} :
    ∀ {as : List α} {s t : σ}, M.exec s as = some t →
      M.observed obs s (as ++ bs) = M.observed obs s as ++ M.observed obs t bs := by
  intro as
  induction as with
  | nil =>
    intro s t h
    cases h
    simp [observed]
  | cons a as ih =>
    intro s t h
    obtain ⟨u, hu, ht⟩ := exec_cons_iff.mp h
    rw [List.cons_append, observed_cons hu, observed_cons hu, ih ht, List.append_assoc]

/-- **The invariant rule with a history**: a relation between what has been observed and the state
that every step allowed by `P` preserves holds where a run that `P` allows comes to its end. -/
theorem invariant_observed {β : Type w} {P : σ → α → Prop} {obs : σ → α → List β}
    {I : List β → σ → Prop}
    (hstep : ∀ h s a t, I h s → P s a → M.step s a = some t → I (h ++ obs s a) t) :
    ∀ {as : List α} {h : List β} {s : σ}, I h s → M.Along P s as →
      ∃ t, I (h ++ M.observed obs s as) t ∧ ∀ u, M.exec s as = some u → u = t := by
  intro as
  induction as with
  | nil =>
    intro h s hs _
    exact ⟨s, by simpa [observed] using hs, fun u hu => (Option.some.inj hu).symm⟩
  | cons a as ih =>
    intro h s hs hP
    cases ha : M.step s a with
    | none =>
      refine ⟨s, by simpa [observed, ha] using hs, fun u hu => ?_⟩
      obtain ⟨t, ht, -⟩ := exec_cons_iff.mp hu
      rw [ha] at ht
      cases ht
    | some t =>
      obtain ⟨u, hu, hend⟩ := ih (hstep h s a t hs hP.1 ha) (hP.2 t ha)
      refine ⟨u, by rwa [observed_cons ha, ← List.append_assoc], fun v hv => hend v ?_⟩
      obtain ⟨t', ht', hv⟩ := exec_cons_iff.mp hv
      rw [ha] at ht'
      cases ht'
      exact hv

/-- The same at the end of a run that can be taken. -/
theorem invariant_observed_exec {β : Type w} {P : σ → α → Prop} {obs : σ → α → List β}
    {I : List β → σ → Prop}
    (hstep : ∀ h s a t, I h s → P s a → M.step s a = some t → I (h ++ obs s a) t)
    {as : List α} {s t : σ} (hs : I [] s) (hP : M.Along P s as) (h : M.exec s as = some t) :
    I (M.observed obs s as) t := by
  obtain ⟨u, hu, hend⟩ := invariant_observed hstep hs hP
  rw [hend t h]
  exact hu

/-- Every state of the run, the first and the last included, satisfies `I` of what has been observed
by then. -/
def ThroughoutObserved {β : Type w} (M : Machine σ α) (obs : σ → α → List β)
    (I : List β → σ → Prop) (s : σ) (as : List α) : Prop :=
  ∀ bs, bs <+: as → ∀ t, M.exec s bs = some t → I (M.observed obs s bs) t

/-! ## The states of a run -/

theorem Along.mono {P : σ → α → Prop} {bs as : List α} (hbs : bs <+: as) :
    ∀ {s : σ}, M.Along P s as → M.Along P s bs := by
  induction bs generalizing as with
  | nil => intro s _; trivial
  | cons b bs ih =>
    obtain ⟨cs, rfl⟩ := hbs
    intro s h
    exact ⟨h.1, fun t ht => ih ⟨cs, rfl⟩ (h.2 t ht)⟩

/-- The condition holds of each action in the state that the run has reached by then. -/
theorem Along.of_exec {P : σ → α → Prop} {a : α} {bs cs : List α} :
    ∀ {s t : σ}, M.Along P s (bs ++ a :: cs) → M.exec s bs = some t → P t a := by
  induction bs with
  | nil =>
    intro s t hP h
    cases h
    exact hP.1
  | cons b bs ih =>
    intro s t hP h
    obtain ⟨u, hu, ht⟩ := exec_cons_iff.mp h
    exact ih (hP.2 u hu) ht

/-- A run that breaks the condition has a first step that does: it splits there. -/
theorem exists_of_not_along {P : σ → α → Prop} {as : List α} :
    ∀ {s : σ}, ¬ M.Along P s as →
      ∃ bs a cs t, as = bs ++ a :: cs ∧ M.exec s bs = some t ∧ M.Along P s bs ∧ ¬ P t a := by
  induction as with
  | nil => intro s h; exact absurd trivial h
  | cons a as ih =>
    intro s h
    by_cases hP : P s a
    · have hrest : ∃ t, M.step s a = some t ∧ ¬ M.Along P t as := by
        by_contra hno
        push Not at hno
        exact h ⟨hP, hno⟩
      obtain ⟨t, ht, hnot⟩ := hrest
      obtain ⟨bs, b, cs, u, rfl, hu, hbs, hb⟩ := ih hnot
      refine ⟨a :: bs, b, cs, u, rfl, exec_cons_iff.mpr ⟨t, ht, hu⟩, ⟨hP, fun t' ht' => ?_⟩, hb⟩
      rw [ht] at ht'
      cases ht'
      exact hbs
    · exact ⟨[], a, as, s, rfl, rfl, trivial, hP⟩

/-- A run that can be taken and breaks the condition goes through its first step that does. -/
theorem exists_step_of_not_along {P : σ → α → Prop} {as : List α} {s v : σ}
    (hnot : ¬ M.Along P s as) (h : M.exec s as = some v) :
    ∃ bs a cs t u, as = bs ++ a :: cs ∧ M.exec s bs = some t ∧ M.Along P s bs ∧ ¬ P t a ∧
      M.step t a = some u ∧ M.exec u cs = some v := by
  obtain ⟨bs, a, cs, t, rfl, ht, hbs, ha⟩ := exists_of_not_along hnot
  obtain ⟨t', ht', hrest⟩ := exec_append_iff.mp h
  obtain rfl : t = t' := Option.some.inj (ht.symm.trans ht')
  obtain ⟨u, hu, hend⟩ := exec_cons_iff.mp hrest
  exact ⟨bs, a, cs, t, u, rfl, ht, hbs, ha, hu, hend⟩

/-- The rest of a run that stays in `I` stays in it. -/
theorem Throughout.of_exec {I : σ → Prop} {s t : σ} {as bs : List α}
    (h : M.Throughout I s (as ++ bs)) (ht : M.exec s as = some t) : M.Throughout I t bs := by
  rintro cs ⟨ds, rfl⟩ u hu
  exact h (as ++ cs) ⟨ds, by rw [List.append_assoc]⟩ u (exec_append_iff.mpr ⟨t, ht, hu⟩)

/-- What every step allowed by `P` preserves holds throughout every run that `P` allows. -/
theorem throughout_of_along {P : σ → α → Prop} {I : σ → Prop}
    (hstep : ∀ s a t, I s → P s a → M.step s a = some t → I t) {as : List α} {s : σ} (hs : I s)
    (hP : M.Along P s as) : M.Throughout I s as :=
  fun _ hbs _ ht => invariant_along hstep hs (hP.mono hbs) ht

theorem throughoutObserved_of_along {β : Type w} {P : σ → α → Prop} {obs : σ → α → List β}
    {I : List β → σ → Prop}
    (hstep : ∀ h s a t, I h s → P s a → M.step s a = some t → I (h ++ obs s a) t) {as : List α}
    {s : σ} (hs : I [] s) (hP : M.Along P s as) : M.ThroughoutObserved obs I s as :=
  fun _ hbs _ ht => invariant_observed_exec hstep hs (hP.mono hbs) ht

/-- If every step outside the condition leads out of `I`, a run that stays in `I` throughout meets
the condition. -/
theorem along_of_throughout {P : σ → α → Prop} {I : σ → Prop} {s : σ} {as : List α}
    (hbad : ∀ s a, I s → ¬ P s a → ∃ t, M.step s a = some t ∧ ¬ I t)
    (h : M.Throughout I s as) : M.Along P s as := by
  by_contra hnot
  obtain ⟨bs, a, cs, t, rfl, ht, -, ha⟩ := exists_of_not_along hnot
  obtain ⟨u, hu, hIu⟩ := hbad t a (h bs (List.prefix_append ..) t ht) ha
  have hsplit : bs ++ a :: cs = bs ++ [a] ++ cs := by simp
  rw [hsplit] at h
  exact hIu (h (bs ++ [a]) (List.prefix_append ..) u
    (exec_append_iff.mpr ⟨t, ht, exec_cons_iff.mpr ⟨u, hu, rfl⟩⟩))

/-- A condition on actions alone is met along a run iff all its actions meet it. -/
theorem along_iff_forall {P : α → Prop} {as : List α} :
    ∀ {s t : σ}, M.exec s as = some t → (M.Along (fun _ => P) s as ↔ ∀ a ∈ as, P a) := by
  induction as with
  | nil => intro s t _; simp [Along]
  | cons a as ih =>
    intro s t h
    obtain ⟨u, hu, ht⟩ := exec_cons_iff.mp h
    simp only [Along, List.forall_mem_cons]
    refine and_congr_right fun _ => ?_
    rw [← ih ht]
    constructor
    · intro hall
      exact hall u hu
    · intro hu' v hv
      rw [hu] at hv
      cases hv
      exact hu'

end Machine

end RtspPush.Lib
