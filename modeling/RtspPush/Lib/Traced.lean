import Mathlib.Data.List.Basic

/-!
# Programs that log what they do

A run logs events and ends with a value, or it does not end in the steps it was given and has
none. `Holds P m Q` is total correctness with a condition on the log: the run ends, every event of
it satisfies `P`, and its value satisfies `Q`. The rules below prove it along the text of a program:
one for each construct, so no proof about a program looks at a log.
-/

namespace RtspPush.Lib

universe u v

/-- The events of a run, and its value when it ended. -/
structure Traced (ε : Type v) (α : Type u) where
  events : List ε
  value : Option α

namespace Traced

variable {ε : Type v} {α β : Type u}

protected def bind (m : Traced ε α) (f : α → Traced ε β) : Traced ε β :=
  match m.value with
  | none => ⟨m.events, none⟩
  | some a => ⟨m.events ++ (f a).events, (f a).value⟩

instance : Monad (Traced ε) where
  pure a := ⟨[], some a⟩
  bind := Traced.bind

def log (event : ε) : Traced ε PUnit := ⟨[event], some ⟨⟩⟩

/-- A loop that was not given enough steps. -/
def unfinished : Traced ε α := ⟨[], none⟩

/-- `m && n`: the second test runs only when the first one is true. -/
def and (m n : Traced ε Bool) : Traced ε Bool := m >>= fun b => if b = true then n else pure false

/-- The run ends, its events satisfy `P` and its value satisfies `Q`. -/
structure Holds (P : ε → Prop) (m : Traced ε α) (Q : α → Prop) : Prop where
  events : ∀ event ∈ m.events, P event
  value : ∃ a, m.value = some a ∧ Q a

variable {P : ε → Prop} {m : Traced ε α} {Q R : α → Prop}

theorem Holds.mono (h : Holds P m R) (hQ : ∀ a, R a → Q a) : Holds P m Q := by
  obtain ⟨a, ha, hR⟩ := h.value
  exact ⟨h.events, a, ha, hQ a hR⟩

/-- A run with one possible value has that value. -/
theorem Holds.value_eq {a : α} (h : Holds P m (· = a)) : m.value = some a := by
  obtain ⟨b, hb, rfl⟩ := h.value
  exact hb

theorem holds_pure {a : α} (h : Q a) : Holds P (pure a) Q :=
  ⟨fun _ hevent => absurd hevent List.not_mem_nil, a, rfl, h⟩

theorem holds_log {event : ε} (h : P event) : Holds P (log event) fun _ => True :=
  ⟨fun _ hevent => List.mem_singleton.mp hevent ▸ h, ⟨⟩, rfl, trivial⟩

theorem Holds.bind {f : α → Traced ε β} {S : β → Prop} (hm : Holds P m R)
    (hf : ∀ a, R a → Holds P (f a) S) : Holds P (m >>= f) S := by
  obtain ⟨a, ha, hR⟩ := hm.value
  obtain ⟨b, hb, hS⟩ := (hf a hR).value
  have hrun : m >>= f = ⟨m.events ++ (f a).events, (f a).value⟩ := by
    change m.bind f = _
    rw [Traced.bind, ha]
  rw [hrun]
  refine ⟨fun event hevent => ?_, b, hb, hS⟩
  rcases List.mem_append.mp hevent with hleft | hright
  · exact hm.events event hleft
  · exact (hf a hR).events event hright

/-- A test that is known to come out as `A`, then one that may rely on `A`. -/
theorem Holds.and {m n : Traced ε Bool} {A B : Prop} (hm : Holds P m fun b => b = true ↔ A)
    (hn : A → Holds P n fun b => b = true ↔ B) :
    Holds P (m.and n) fun b => b = true ↔ A ∧ B := by
  refine hm.bind fun b hb => ?_
  split
  · next htrue =>
    have hA : A := hb.mp htrue
    exact (hn hA).mono fun c hc => hc.trans ⟨fun hB => ⟨hA, hB⟩, And.right⟩
  · next hfalse =>
    exact holds_pure ⟨nofun, fun hAB => absurd (hb.mpr hAB.1) hfalse⟩

/-- A fold whose every step computes `g`. -/
theorem Holds.foldlM {σ : Type u} {f : σ → α → Traced ε σ} {g : σ → α → σ} {xs : List α}
    (hf : ∀ s, ∀ x ∈ xs, Holds P (f s x) (· = g s x)) (s : σ) :
    Holds P (xs.foldlM f s) (· = xs.foldl g s) := by
  induction xs generalizing s with
  | nil => exact holds_pure rfl
  | cons x xs ih =>
    rw [List.foldlM_cons, List.foldl_cons]
    refine (hf s x List.mem_cons_self).bind fun t ht => ?_
    rw [ht]
    exact ih (fun r y hy => hf r y (List.mem_cons_of_mem x hy)) _

end Traced

end RtspPush.Lib
