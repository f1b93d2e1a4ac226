import Mathlib.Data.List.Basic
import Mathlib.Data.List.Range

/-!
# A bounded queue that drops the oldest item, with its history

Items are numbered from 0 in the order they are produced. `History` holds the queue with the
numbers, every item ever produced, and the log of what happened to each: produced, dropped to make
room, popped, or removed by a clear. `Sound` is the invariant: the queue is a run of consecutive
numbers that ends with the latest one, pops come in increasing order with the item that was
produced, and an item that left the queue was popped, cleared, or dropped only after a full
capacity of later items had been produced and none of them popped (`Overflowed`).
`run_sound` proves it of every sequence of operations.
-/

namespace RtspPush.Lib.DropOldest

universe u

variable {α : Type u}

/-- One entry of the log. A pop records the item it returned. -/
inductive Event (α : Type u)
  | produced (n : Nat)
  | dropped (n : Nat)
  | popped (n : Nat) (a : α)
  | cleared (n : Nat)
  deriving DecidableEq

structure History (α : Type u) where
  items : List α
  queue : List (Nat × α)
  log : List (Event α)

inductive Op (α : Type u)
  | produce (a : α)
  | pop
  | clear

namespace History

def empty : History α := ⟨[], [], []⟩

/-- Produce an item: number it, drop from the front until there is room, append it. -/
def produce (cap : Nat) (h : History α) (a : α) : History α :=
  let excess := h.queue.length + 1 - cap
  { items := h.items ++ [a]
    queue := h.queue.drop excess ++ [(h.items.length, a)]
    log := h.log ++ .produced h.items.length ::
      (h.queue.take excess).map fun p => .dropped p.1 }

def pop (h : History α) : History α :=
  match h.queue with
  | [] => h
  | p :: rest => { h with queue := rest, log := h.log ++ [.popped p.1 p.2] }

def clear (h : History α) : History α :=
  { h with queue := [], log := h.log ++ h.queue.map fun p => .cleared p.1 }

def apply (cap : Nat) (h : History α) : Op α → History α
  | .produce a => h.produce cap a
  | .pop => h.pop
  | .clear => h.clear

def run (cap : Nat) (ops : List (Op α)) : History α := ops.foldl (apply cap) empty

end History

/-- The pops of a log, in order. -/
def pops (log : List (Event α)) : List (Nat × α) :=
  log.filterMap fun
    | .popped n a => some (n, a)
    | _ => none

/-- Item `n` was dropped, and by then the `cap` next items had been produced and none of them
popped. -/
def Overflowed (cap : Nat) (log : List (Event α)) (n : Nat) : Prop :=
  ∃ before after, log = before ++ .dropped n :: after ∧
    ∀ k, 1 ≤ k → k ≤ cap → .produced (n + k) ∈ before ∧ ∀ a, .popped (n + k) a ∉ before

/-- How an item may have left the queue. -/
def Gone (cap : Nat) (log : List (Event α)) (n : Nat) : Prop :=
  (∃ a, .popped n a ∈ log) ∨ .cleared n ∈ log ∨ Overflowed cap log n

/-- The history invariant. -/
structure Sound (cap : Nat) (h : History α) : Prop where
  bounded : h.queue.length ≤ cap
  queue_le : h.queue.length ≤ h.items.length
  numbers : h.queue.map Prod.fst = List.range' (h.items.length - h.queue.length) h.queue.length
  queue_items : ∀ p ∈ h.queue, h.items[p.1]? = some p.2
  produced : ∀ n, n < h.items.length → .produced n ∈ h.log
  popped_items : ∀ n a, .popped n a ∈ h.log → h.items[n]? = some a
  popped_lt : ∀ n a, .popped n a ∈ h.log → n + h.queue.length < h.items.length
  increasing : (pops h.log).Pairwise fun p q => p.1 < q.1
  gone : ∀ n, n + h.queue.length < h.items.length → Gone cap h.log n

/-! ## The log only grows -/

theorem Gone.append {cap : Nat} {log : List (Event α)} {n : Nat} (h : Gone cap log n)
    (more : List (Event α)) : Gone cap (log ++ more) n := by
  rcases h with ⟨a, ha⟩ | hc | ⟨before, after, rfl, hk⟩
  · exact Or.inl ⟨a, List.mem_append_left more ha⟩
  · exact Or.inr (Or.inl (List.mem_append_left more hc))
  · exact Or.inr (Or.inr ⟨before, after ++ more, by simp, hk⟩)

theorem pops_append (l l' : List (Event α)) : pops (l ++ l') = pops l ++ pops l' :=
  List.filterMap_append

theorem mem_pops {log : List (Event α)} {p : Nat × α} :
    p ∈ pops log ↔ .popped p.1 p.2 ∈ log := by
  simp only [pops, List.mem_filterMap]
  constructor
  · rintro ⟨e, he, hp⟩
    cases e <;> simp only [Option.some.injEq, reduceCtorEq] at hp
    subst hp
    exact he
  · intro h
    exact ⟨_, h, rfl⟩

theorem pops_dropped (l : List (Nat × α)) :
    pops (l.map fun p => (.dropped p.1 : Event α)) = [] := by
  simp [pops, List.filterMap_map]

theorem pops_produce (cap : Nat) (h : History α) (a : α) :
    pops (h.produce cap a).log = pops h.log := by
  have hproduced : ∀ (n : Nat) (log : List (Event α)), pops (.produced n :: log) = pops log :=
    fun _ _ => rfl
  simp only [History.produce, pops_append, hproduced, pops_dropped, List.append_nil]

theorem pops_clear (h : History α) : pops h.clear.log = pops h.log := by
  simp [History.clear, pops, List.filterMap_map]

theorem getElem?_append_of_some {l : List α} {n : Nat} {a : α} (h : l[n]? = some a)
    (more : List α) : (l ++ more)[n]? = some a := by
  rw [List.getElem?_append_left (List.getElem?_eq_some_iff.mp h).1, h]

/-! ## The operations keep the invariant -/

namespace Sound

variable {cap : Nat} {h : History α}

theorem empty : Sound cap (History.empty : History α) where
  bounded := Nat.zero_le _
  queue_le := Nat.le_refl _
  numbers := rfl
  queue_items := by simp [History.empty]
  produced := by simp [History.empty]
  popped_items := by simp [History.empty]
  popped_lt := by simp [History.empty]
  increasing := List.Pairwise.nil
  gone := by simp [History.empty]

/-- An item with room in the queue is appended, and nothing leaves. -/
theorem append (hs : Sound cap h) (hroom : h.queue.length < cap) (a : α) :
    Sound cap
      { items := h.items ++ [a]
        queue := h.queue ++ [(h.items.length, a)]
        log := h.log ++ [.produced h.items.length] } where
  bounded := by simp; omega
  queue_le := by have := hs.queue_le; simp; omega
  numbers := by
    have hle := hs.queue_le
    simp only [List.map_append, hs.numbers, List.map_cons, List.map_nil, List.length_append,
      List.length_cons, List.length_nil, Nat.zero_add, Nat.add_sub_add_right]
    rw [List.range'_concat]
    simp only [Nat.one_mul, List.append_cancel_left_eq, List.cons.injEq, and_true]
    omega
  queue_items := by
    intro p hp
    rcases List.mem_append.mp hp with hp | hp
    · exact getElem?_append_of_some (hs.queue_items p hp) [a]
    · obtain rfl := List.mem_singleton.mp hp
      simp
  produced := by
    intro n hn
    simp only [List.length_append, List.length_cons, List.length_nil] at hn
    rcases Nat.lt_succ_iff_lt_or_eq.mp hn with hn | rfl
    · exact List.mem_append_left _ (hs.produced n hn)
    · simp
  popped_items := by
    intro n b hb
    have hb : .popped n b ∈ h.log := by simpa using hb
    exact getElem?_append_of_some (hs.popped_items n b hb) [a]
  popped_lt := by
    intro n b hb
    have hb : .popped n b ∈ h.log := by simpa using hb
    have := hs.popped_lt n b hb
    simp only [List.length_append, List.length_cons, List.length_nil]
    omega
  increasing := by simpa [pops] using hs.increasing
  gone := by
    intro n hn
    simp only [List.length_append, List.length_cons, List.length_nil] at hn
    exact (hs.gone n (by omega)).append _

/-- With the queue full, the item in front is dropped first: the new item is the last of the
`cap` later ones. -/
theorem rotate (hs : Sound cap h) {p : Nat × α} {rest : List (Nat × α)}
    (hq : h.queue = p :: rest) (hfull : h.queue.length = cap) (a : α) :
    Sound cap
      { items := h.items ++ [a]
        queue := rest ++ [(h.items.length, a)]
        log := h.log ++ [.produced h.items.length, .dropped p.1] } := by
  have hle := hs.queue_le
  have hnum := hs.numbers
  rw [hq] at hle hnum hfull
  simp only [List.map_cons, List.length_cons, List.range'_succ, List.cons.injEq] at hle hnum hfull
  obtain ⟨hp, hrest⟩ := hnum
  have hlast : ∀ {n : Nat} {b : α},
      Event.popped n b ∈ h.log ++ [.produced h.items.length, .dropped p.1] →
        .popped n b ∈ h.log := by
    intro n b hb
    simpa using hb
  refine
    { bounded := by simpa using Nat.le_of_eq hfull
      queue_le := by simp; omega
      numbers := ?_
      queue_items := ?_
      produced := ?_
      popped_items := fun n b hb => getElem?_append_of_some (hs.popped_items n b (hlast hb)) [a]
      popped_lt := ?_
      increasing := by simpa [pops] using hs.increasing
      gone := ?_ }
  · simp only [List.map_append, List.map_cons, List.map_nil, hrest, List.length_append,
      List.length_cons, List.length_nil, Nat.zero_add, Nat.add_sub_add_right]
    rw [List.range'_concat]
    have hstart : h.items.length - (rest.length + 1) + 1 = h.items.length - rest.length := by omega
    rw [hstart]
    simp only [Nat.one_mul, List.append_cancel_left_eq, List.cons.injEq, and_true]
    omega
  · intro q hqm
    rcases List.mem_append.mp hqm with hqm | hqm
    · have hqueued := hs.queue_items q (by rw [hq]; exact List.mem_cons_of_mem p hqm)
      exact getElem?_append_of_some hqueued [a]
    · obtain rfl := List.mem_singleton.mp hqm
      simp
  · intro n hn
    simp only [List.length_append, List.length_cons, List.length_nil] at hn
    rcases Nat.lt_succ_iff_lt_or_eq.mp hn with hn | rfl
    · exact List.mem_append_left _ (hs.produced n hn)
    · simp
  · intro n b hb
    have := hs.popped_lt n b (hlast hb)
    rw [hq, List.length_cons] at this
    simp only [List.length_append, List.length_cons, List.length_nil]
    omega
  · intro n hn
    simp only [List.length_append, List.length_cons, List.length_nil] at hn
    by_cases hnp : n = p.1
    · -- the dropped item: every number up to the new one is produced, none of them popped
      right; right
      refine ⟨h.log ++ [.produced h.items.length], [], by simp [hnp], fun k hk1 hk => ⟨?_, ?_⟩⟩
      · by_cases hk' : n + k = h.items.length
        · simp [hk']
        · exact List.mem_append_left _ (hs.produced _ (by omega))
      · intro b hb
        have hb : .popped (n + k) b ∈ h.log := by simpa using hb
        have := hs.popped_lt (n + k) b hb
        rw [hq, List.length_cons] at this
        omega
    · refine (hs.gone n ?_).append _
      rw [hq, List.length_cons]
      omega

theorem produce (hs : Sound cap h) (hcap : 0 < cap) (a : α) : Sound cap (h.produce cap a) := by
  have hb := hs.bounded
  unfold History.produce
  by_cases hroom : h.queue.length < cap
  · have hexcess : h.queue.length + 1 - cap = 0 := by omega
    simpa [hexcess] using hs.append hroom a
  · have hexcess : h.queue.length + 1 - cap = 1 := by omega
    obtain ⟨p, rest, hq⟩ := List.exists_cons_of_length_pos (l := h.queue) (by omega)
    have := hs.rotate hq (by omega) a
    rw [hexcess, hq]
    exact this

theorem pop (hs : Sound cap h) : Sound cap h.pop := by
  unfold History.pop
  split
  · exact hs
  next p rest hq =>
  have hle := hs.queue_le
  have hbound := hs.bounded
  have hnum := hs.numbers
  rw [hq] at hle hnum hbound
  simp only [List.map_cons, List.length_cons, List.range'_succ, List.cons.injEq] at hle hnum hbound
  obtain ⟨hp, hrest⟩ := hnum
  have hstart : h.items.length - (rest.length + 1) + 1 = h.items.length - rest.length := by omega
  have hitem : h.items[p.1]? = some p.2 := hs.queue_items p (by rw [hq]; exact List.mem_cons_self)
  have hcases : ∀ {n : Nat} {b : α}, Event.popped n b ∈ h.log ++ [.popped p.1 p.2] →
      Event.popped n b ∈ h.log ∨ (n = p.1 ∧ b = p.2) := by
    intro n b hb
    simpa using hb
  refine
    { bounded := by simp only; omega
      queue_le := by simp only; omega
      numbers := by simp only; rw [hrest, hstart]
      queue_items := fun q hqm => hs.queue_items q (by rw [hq]; exact List.mem_cons_of_mem p hqm)
      produced := fun n hn => List.mem_append_left _ (hs.produced n hn)
      popped_items := ?_
      popped_lt := ?_
      increasing := ?_
      gone := ?_ }
  · intro n b hb
    rcases hcases hb with hb | ⟨rfl, rfl⟩
    · exact hs.popped_items n b hb
    · exact hitem
  · intro n b hb
    rcases hcases hb with hb | ⟨rfl, rfl⟩
    · have := hs.popped_lt n b hb
      rw [hq, List.length_cons] at this
      simp only
      omega
    · simp only
      omega
  · rw [pops_append, List.pairwise_append]
    refine ⟨hs.increasing, by simp [pops], fun x hx y hy => ?_⟩
    have hy' : y = p := by simpa [pops] using hy
    have := hs.popped_lt x.1 x.2 (mem_pops.mp hx)
    rw [hq, List.length_cons] at this
    rw [hy']
    omega
  · intro n hn
    simp only at hn
    by_cases hnp : n = p.1
    · exact Or.inl ⟨p.2, by simp [hnp]⟩
    · refine (hs.gone n ?_).append _
      rw [hq, List.length_cons]
      omega

theorem clear (hs : Sound cap h) : Sound cap h.clear := by
  have hpops := pops_clear h
  unfold History.clear at hpops ⊢
  have hpopped : ∀ {n : Nat} {b : α},
      Event.popped n b ∈ h.log ++ h.queue.map (fun p => .cleared p.1) → .popped n b ∈ h.log := by
    intro n b hb
    simpa using hb
  refine
    { bounded := Nat.zero_le _
      queue_le := Nat.zero_le _
      numbers := rfl
      queue_items := by simp
      produced := fun n hn => List.mem_append_left _ (hs.produced n hn)
      popped_items := fun n b hb => hs.popped_items n b (hpopped hb)
      popped_lt := ?_
      increasing := ?_
      gone := ?_ }
  · intro n b hb
    have := hs.popped_lt n b (hpopped hb)
    simp only [List.length_nil]
    omega
  · rw [hpops]
    exact hs.increasing
  · intro n hn
    simp only [List.length_nil, Nat.add_zero] at hn
    by_cases hlt : n + h.queue.length < h.items.length
    · exact (hs.gone n hlt).append _
    · have hmem : n ∈ h.queue.map Prod.fst := by
        rw [hs.numbers, List.mem_range'_1]
        have := hs.queue_le
        omega
      obtain ⟨p, hp, rfl⟩ := List.mem_map.mp hmem
      exact Or.inr (Or.inl (List.mem_append_right _ (List.mem_map.mpr ⟨p, hp, rfl⟩)))

theorem apply (hs : Sound cap h) (hcap : 0 < cap) (op : Op α) : Sound cap (h.apply cap op) := by
  cases op with
  | produce a => exact hs.produce hcap a
  | pop => exact hs.pop
  | clear => exact hs.clear

/-- An item is either still queued or gone for one of the three reasons. -/
theorem queued_or_gone (hs : Sound cap h) {n : Nat} (hn : n < h.items.length) :
    n ∈ h.queue.map Prod.fst ∨ Gone cap h.log n := by
  by_cases hlt : n + h.queue.length < h.items.length
  · exact Or.inr (hs.gone n hlt)
  · left
    rw [hs.numbers, List.mem_range'_1]
    have := hs.queue_le
    omega

end Sound

/-- **Every run keeps the history invariant.** -/
theorem run_sound {cap : Nat} (hcap : 0 < cap) (ops : List (Op α)) :
    Sound cap (History.run cap ops) := by
  unfold History.run
  suffices h : ∀ (ops : List (Op α)) (h : History α), Sound cap h →
      Sound cap (ops.foldl (History.apply cap) h) from h ops _ Sound.empty
  intro ops
  induction ops with
  | nil => intro h hs; exact hs
  | cons op ops ih => intro h hs; exact ih _ (hs.apply hcap op)

/-- Items at increasing positions, from `k` on. -/
theorem sublist_drop_of_increasing {items : List α} :
    ∀ {l : List (Nat × α)} {k : Nat}, l.Pairwise (fun p q => p.1 < q.1) →
      (∀ p ∈ l, k ≤ p.1 ∧ items[p.1]? = some p.2) → (l.map Prod.snd).Sublist (items.drop k) := by
  intro l
  induction l with
  | nil => intro k _ _; exact List.nil_sublist _
  | cons p l ih =>
    intro k hinc hitems
    obtain ⟨hhead, hinc⟩ := List.pairwise_cons.mp hinc
    obtain ⟨⟨hk, hp⟩, hitems⟩ := List.forall_mem_cons.mp hitems
    obtain ⟨hlt, hget⟩ := List.getElem?_eq_some_iff.mp hp
    have hrest : (l.map Prod.snd).Sublist (items.drop (p.1 + 1)) :=
      ih hinc fun q hq => ⟨hhead q hq, (hitems q hq).2⟩
    have hfrom : ((p :: l).map Prod.snd).Sublist (items.drop p.1) := by
      rw [List.drop_eq_getElem_cons hlt, hget, List.map_cons]
      exact hrest.cons_cons p.2
    exact hfrom.trans (List.drop_sublist_drop_left items hk)

/-- **Nothing is handed out twice or out of order**: the pops of a run are a subsequence of the
items. -/
theorem run_pops_sublist {cap : Nat} (hcap : 0 < cap) (ops : List (Op α)) :
    ((pops (History.run cap ops).log).map Prod.snd).Sublist (History.run cap ops).items := by
  have hs := run_sound hcap ops
  exact sublist_drop_of_increasing (k := 0) hs.increasing fun p hp =>
    ⟨Nat.zero_le _, hs.popped_items p.1 p.2 (mem_pops.mp hp)⟩

/-! ## Behind a clear -/

/-- Behind a clear with `n` items produced: `earlier` are the pops before it. -/
structure Fresh (n : Nat) (earlier : List (Nat × α)) (h : History α) : Prop where
  items : n ≤ h.items.length
  queued : ∀ p ∈ h.queue, n ≤ p.1
  popped : ∃ later, pops h.log = earlier ++ later ∧ ∀ p ∈ later, n ≤ p.1

namespace Fresh

variable {n : Nat} {earlier : List (Nat × α)} {h : History α}

theorem of_clear (h : History α) : Fresh h.items.length (pops h.log) h.clear where
  items := Nat.le_refl _
  queued p hp := by cases hp
  popped := ⟨[], by simp [pops_clear], by simp⟩

theorem apply (hs : Fresh n earlier h) (cap : Nat) (op : Op α) :
    Fresh n earlier (h.apply cap op) := by
  obtain ⟨later, hlater, hle⟩ := hs.popped
  cases op with
  | produce a =>
    refine ⟨?_, fun p hp => ?_, later, (pops_produce cap h a).trans hlater, hle⟩
    · have hitems := hs.items
      simp only [History.apply, History.produce, List.length_append]
      omega
    · rcases List.mem_append.mp hp with hold | hnew
      · exact hs.queued p (List.mem_of_mem_drop hold)
      · rw [List.mem_singleton.mp hnew]
        exact hs.items
  | pop =>
    simp only [History.apply, History.pop]
    split
    · exact hs
    next p rest hq =>
    have hqueued : ∀ x ∈ p :: rest, n ≤ x.1 := hq ▸ hs.queued
    refine ⟨hs.items, fun x hx => hqueued x (List.mem_cons_of_mem p hx), later ++ [p], ?_, ?_⟩
    · have hpop : pops [(.popped p.1 p.2 : Event α)] = [p] := rfl
      rw [pops_append, hlater, hpop, List.append_assoc]
    · intro x hx
      rcases List.mem_append.mp hx with hx | hx
      · exact hle x hx
      · rw [List.mem_singleton.mp hx]
        exact hqueued p List.mem_cons_self
  | clear =>
    have hempty : ∀ p ∈ h.clear.queue, n ≤ p.1 := by simp [History.clear]
    exact ⟨hs.items, hempty, later, (pops_clear h).trans hlater, hle⟩

theorem run (hs : Fresh n earlier h) (cap : Nat) (ops : List (Op α)) :
    Fresh n earlier (ops.foldl (History.apply cap) h) := by
  induction ops generalizing h with
  | nil => exact hs
  | cons op ops ih => exact ih (hs.apply cap op)

end Fresh

/-- **Nothing from before a clear is handed out behind it**: the pops behind it are a subsequence
of the items behind it. -/
theorem run_clear_pops {cap : Nat} (hcap : 0 < cap) (before after : List (Op α)) :
    ∃ later, pops (History.run cap (before ++ .clear :: after)).log =
        pops (History.run cap before).log ++ later ∧
      (later.map Prod.snd).Sublist ((History.run cap (before ++ .clear :: after)).items.drop
        (History.run cap before).items.length) := by
  have hs := run_sound hcap (before ++ .clear :: after)
  have hfresh := (Fresh.of_clear (History.run cap before)).run cap after
  have hrun : History.run cap (before ++ .clear :: after) =
      after.foldl (History.apply cap) (History.run cap before).clear := by
    rw [History.run, List.foldl_append]
    rfl
  rw [← hrun] at hfresh
  obtain ⟨later, hlater, hle⟩ := hfresh.popped
  have hincreasing := hs.increasing
  rw [hlater] at hincreasing
  refine ⟨later, hlater, sublist_drop_of_increasing (List.pairwise_append.mp hincreasing).2.1 ?_⟩
  intro p hp
  refine ⟨hle p hp, hs.popped_items p.1 p.2 (mem_pops.mp ?_)⟩
  rw [hlater]
  exact List.mem_append_right _ hp

end RtspPush.Lib.DropOldest
