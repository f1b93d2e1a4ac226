import Mathlib.Logic.Function.Basic
import RtspPush.Lib.Machine

/-!
# Objects behind one mutex

The members of an object take its mutex for the whole of their bodies. Any number of threads call
them; a body runs statement by statement, and between two statements of one thread every other
thread may move. `MonitorObject.linearizable` says that none of this shows: the calls act as if
each were made at once, in the order in which they took the mutex, and that order respects real
time (`order_at_cut`).

What is proved about an object is `Implements`: what is left of a body has a meaning `rest`, every
statement keeps it, and at the start it is the meaning of the whole call.
-/

namespace RtspPush.Lib

universe u v w x y

/-- The members of an object: what a call does before it locks (it may return at once) and the
statements of a body under the mutex. -/
structure MonitorObject (σ : Type u) (ω : Type v) (β : Type w) (ρ : Type x) where
  enter : ω → β ⊕ ρ
  stmt : σ → β → σ × (β ⊕ ρ)

namespace MonitorObject

variable {σ : Type u} {ω : Type v} {β : Type w} {ρ : Type x} {τ : Type y}

/-- Where a thread is in its call. -/
inductive Phase (ω : Type v) (β : Type w) (ρ : Type x)
  | idle
  | locking (op : ω) (body : β)
  | inside (left : β ⊕ ρ)
  | returning (result : ρ)

/-- The object, the thread that holds the mutex, and all threads. -/
structure State (τ : Type y) (σ : Type u) (ω : Type v) (β : Type w) (ρ : Type x) where
  object : σ
  mutex : Option τ
  phase : τ → Phase ω β ρ

inductive Action (τ : Type y) (ω : Type v)
  | call (t : τ) (op : ω)
  | lock (t : τ)
  | stmt (t : τ)
  | unlock (t : τ)
  | ret (t : τ)

/-- What a run shows: a call is made, takes effect, returns. -/
inductive Event (τ : Type y) (ω : Type v) (ρ : Type x)
  | called (t : τ) (op : ω)
  | committed (t : τ) (op : ω)
  | returned (t : τ) (result : ρ)

variable (O : MonitorObject σ ω β ρ)

/-- Behind what comes before the lock. -/
def entered (op : ω) : Phase ω β ρ :=
  match O.enter op with
  | .inl body => .locking op body
  | .inr result => .returning result

variable [DecidableEq τ]

def State.setPhase (s : State τ σ ω β ρ) (t : τ) (p : Phase ω β ρ) : State τ σ ω β ρ :=
  { s with phase := Function.update s.phase t p }

/-- One step of one thread. -/
def step (s : State τ σ ω β ρ) : Action τ ω → Option (State τ σ ω β ρ)
  | .call t op =>
    match s.phase t with
    | .idle => some (s.setPhase t (O.entered op))
    | _ => none
  | .lock t =>
    match s.phase t, s.mutex with
    | .locking _ body, none => some { s.setPhase t (.inside (.inl body)) with mutex := some t }
    | _, _ => none
  | .stmt t =>
    match s.phase t with
    | .inside (.inl body) =>
      let (object, left) := O.stmt s.object body
      some { s.setPhase t (.inside left) with object := object }
    | _ => none
  | .unlock t =>
    match s.phase t with
    | .inside (.inr result) => some { s.setPhase t (.returning result) with mutex := none }
    | _ => none
  | .ret t =>
    match s.phase t with
    | .returning _ => some (s.setPhase t .idle)
    | _ => none

/-- No thread is in a call. -/
def start (object : σ) : State τ σ ω β ρ := ⟨object, none, fun _ => .idle⟩

variable (τ) in
def machine (object : σ) : Machine (State τ σ ω β ρ) (Action τ ω) := ⟨start object, O.step⟩

/-- A call takes effect when it takes the mutex, or at once if it never does. -/
def events (s : State τ σ ω β ρ) : Action τ ω → List (Event τ ω ρ)
  | .call t op =>
    match O.enter op with
    | .inl _ => [.called t op]
    | .inr _ => [.called t op, .committed t op]
  | .lock t =>
    match s.phase t with
    | .locking op _ => [.committed t op]
    | _ => []
  | .ret t =>
    match s.phase t with
    | .returning result => [.returned t result]
    | _ => []
  | _ => []

/-- What the run `as` shows. -/
def trace (object : σ) (as : List (Action τ ω)) : List (Event τ ω ρ) :=
  (O.machine τ object).observed O.events (start object) as

namespace Event

/-- The calls that `t` has made. -/
def calledBy (t : τ) : Event τ ω ρ → List ω
  | called u op => if u = t then [op] else []
  | _ => []

/-- The calls in the order in which they take effect. -/
def inOrder : Event τ ω ρ → List (τ × ω)
  | committed u op => [(u, op)]
  | _ => []

/-- What has been returned to `t`. -/
def returnedTo (t : τ) : Event τ ω ρ → List ρ
  | returned u result => if u = t then [result] else []
  | _ => []

end Event

/-- The part of a list that is of thread `t`. -/
def ofThread {α : Type w} (t : τ) (p : τ × α) : List α := if p.1 = t then [p.2] else []

/-- The part of a thread, entry by entry. -/
theorem map_ofThread {α : Type w} {γ : Type x} (f : α → γ) (l : List (τ × α)) (t : τ) :
    (l.map fun p => (p.1, f p.2)).flatMap (ofThread t) = (l.flatMap (ofThread t)).map f := by
  induction l with
  | nil => rfl
  | cons p l ih =>
    by_cases h : p.1 = t <;> simp [ofThread, h, ih]

/-- What `f` makes of each entry, under the thread of that entry. -/
def labelled {α : Type w} {γ : Type x} (f : α → List γ) (l : List (τ × α)) : List (τ × γ) :=
  l.flatMap fun p => (f p.2).map fun c => (p.1, c)

omit [DecidableEq τ] in
theorem map_snd_labelled {α : Type w} {γ : Type x} (f : α → List γ) (l : List (τ × α)) :
    (labelled f l).map Prod.snd = l.flatMap fun p => f p.2 := by
  induction l with
  | nil => rfl
  | cons p l ih =>
    rw [labelled, List.flatMap_cons, List.map_append, ← labelled, ih]
    simp [Function.comp_def]

theorem labelled_ofThread {α : Type w} {γ : Type x} (f : α → List γ) (l : List (τ × α)) (t : τ) :
    (labelled f l).flatMap (ofThread t) = (l.flatMap (ofThread t)).flatMap f := by
  induction l with
  | nil => rfl
  | cons p l ih =>
    rw [labelled, List.flatMap_cons, List.flatMap_append, ← labelled, ih]
    by_cases h : p.1 = t <;> simp [ofThread, h, List.flatMap_map]

/-! ## The steps -/

/-- What a step can do. -/
inductive Transition (s : State τ σ ω β ρ) : Action τ ω → State τ σ ω β ρ → Prop
  | call {t : τ} (op : ω) (hidle : s.phase t = .idle) :
    Transition s (.call t op) (s.setPhase t (O.entered op))
  | lock {t : τ} {op : ω} {body : β} (hphase : s.phase t = .locking op body)
      (hfree : s.mutex = none) :
    Transition s (.lock t) { s.setPhase t (.inside (.inl body)) with mutex := some t }
  | stmt {t : τ} {body : β} (hphase : s.phase t = .inside (.inl body)) :
    Transition s (.stmt t)
      { s.setPhase t (.inside (O.stmt s.object body).2) with object := (O.stmt s.object body).1 }
  | unlock {t : τ} {result : ρ} (hphase : s.phase t = .inside (.inr result)) :
    Transition s (.unlock t) { s.setPhase t (.returning result) with mutex := none }
  | ret {t : τ} {result : ρ} (hphase : s.phase t = .returning result) :
    Transition s (.ret t) (s.setPhase t .idle)

theorem Transition.of_step {s s' : State τ σ ω β ρ} {a : Action τ ω} (h : O.step s a = some s') :
    O.Transition s a s' := by
  cases a with
  | call t op =>
    simp only [step] at h
    split at h
    · next hidle =>
      cases h
      exact .call op hidle
    · cases h
  | lock t =>
    simp only [step] at h
    split at h
    · next hphase hfree =>
      cases h
      exact .lock hphase hfree
    · cases h
  | stmt t =>
    simp only [step] at h
    split at h
    · next hphase =>
      cases h
      exact .stmt hphase
    · cases h
  | unlock t =>
    simp only [step] at h
    split at h
    · next hphase =>
      cases h
      exact .unlock hphase
    · cases h
  | ret t =>
    simp only [step] at h
    split at h
    · next hphase =>
      cases h
      exact .ret hphase
    · cases h

/-! ## Mutual exclusion -/

/-- The mutex is held by the thread that is inside. -/
def Exclusive (s : State τ σ ω β ρ) : Prop :=
  ∀ t, s.mutex = some t ↔ ∃ left, s.phase t = .inside left

omit [DecidableEq τ] in
theorem Exclusive.start (object : σ) : Exclusive (start object : State τ σ ω β ρ) := by
  intro t
  constructor
  · intro h
    cases h
  · rintro ⟨left, h⟩
    cases h

/-- A thread that neither enters nor leaves. -/
theorem Exclusive.setPhase {s : State τ σ ω β ρ} (hs : Exclusive s) {t : τ} {p : Phase ω β ρ}
    (h : (∃ left, s.phase t = .inside left) ↔ ∃ left, p = .inside left) :
    Exclusive (s.setPhase t p) := by
  intro u
  rcases eq_or_ne u t with rfl | hne
  · simp only [State.setPhase, Function.update_self, hs u, h]
  · simp only [State.setPhase, Function.update_of_ne hne, hs u]

theorem entered_ne_inside (op : ω) (left : β ⊕ ρ) : O.entered op ≠ .inside left := by
  intro h
  rw [entered] at h
  split at h <;> cases h

theorem Exclusive.step {s s' : State τ σ ω β ρ} {a : Action τ ω} (hs : Exclusive s)
    (h : O.step s a = some s') : Exclusive s' := by
  cases Transition.of_step O h with
  | call op hidle => exact hs.setPhase (by simp [hidle, entered_ne_inside])
  | @lock t op body hphase hfree =>
    intro u
    rcases eq_or_ne u t with rfl | hne
    · simp [State.setPhase]
    · -- the mutex was free, so nobody else was inside
      have hout := hs u
      simp only [hfree, reduceCtorEq, false_iff] at hout
      simpa [State.setPhase, Function.update_of_ne hne, hne.symm] using hout
  | stmt hphase => exact hs.setPhase (by simp [hphase])
  | @unlock t result hphase =>
    have hheld : s.mutex = some t := (hs t).mpr ⟨_, hphase⟩
    intro u
    rcases eq_or_ne u t with rfl | hne
    · simp [State.setPhase]
    · have hout := hs u
      simp only [hheld, Option.some.injEq, hne.symm, false_iff] at hout
      simpa [State.setPhase, Function.update_of_ne hne] using hout
  | ret hphase => exact hs.setPhase (by simp [hphase])

omit [DecidableEq τ] in
/-- **At most one thread is inside.** -/
theorem Exclusive.eq {s : State τ σ ω β ρ} (hs : Exclusive s) {t u : τ} {left left' : β ⊕ ρ}
    (ht : s.phase t = .inside left) (hu : s.phase u = .inside left') : t = u := by
  have hmutex := (hs t).mpr ⟨left, ht⟩
  rw [(hs u).mpr ⟨left', hu⟩] at hmutex
  exact (Option.some.inj hmutex).symm

/-! ## What the calls mean one after the other -/

variable (apply : σ → ω → σ × ρ)

/-- The object after calls made one after the other. -/
def sequential : σ → List (τ × ω) → σ
  | object, [] => object
  | object, (_, op) :: rest => sequential (apply object op).1 rest

/-- What these calls return, and to whom. -/
def sequentialResults : σ → List (τ × ω) → List (τ × ρ)
  | _, [] => []
  | object, (t, op) :: rest =>
    (t, (apply object op).2) :: sequentialResults (apply object op).1 rest

omit [DecidableEq τ] in
theorem sequential_snoc (object : σ) (calls : List (τ × ω)) (t : τ) (op : ω) :
    sequential apply object (calls ++ [(t, op)]) =
      (apply (sequential apply object calls) op).1 := by
  induction calls generalizing object with
  | nil => rfl
  | cons p calls ih => exact ih (apply object p.2).1

omit [DecidableEq τ] in
theorem sequentialResults_snoc (object : σ) (calls : List (τ × ω)) (t : τ) (op : ω) :
    sequentialResults apply object (calls ++ [(t, op)]) =
      sequentialResults apply object calls ++
        [(t, (apply (sequential apply object calls) op).2)] := by
  induction calls generalizing object with
  | nil => rfl
  | cons p calls ih => exact congrArg ((p.1, (apply object p.2).2) :: ·) (ih (apply object p.2).1)

/-- What is left of a call does to the object and returns. -/
def finish (rest : σ → β → σ × ρ) (object : σ) : β ⊕ ρ → σ × ρ
  | .inl body => rest object body
  | .inr result => (object, result)

@[simp] theorem finish_inl (rest : σ → β → σ × ρ) (object : σ) (body : β) :
    finish rest object (.inl body) = rest object body := rfl

@[simp] theorem finish_inr (rest : σ → β → σ × ρ) (object : σ) (result : ρ) :
    finish rest object (.inr result) = (object, result) := rfl

/-- The statements carry `apply` out: every statement keeps what is left to do. -/
structure Implements (rest : σ → β → σ × ρ) : Prop where
  enter : ∀ object op, finish rest object (O.enter op) = apply object op
  stmt : ∀ object body,
    finish rest (O.stmt object body).1 (O.stmt object body).2 = rest object body

/-! ## Every interleaving acts as the calls in the order of the mutex -/

variable (rest : σ → β → σ × ρ)

/-- The result that a thread has coming from its call. -/
def Phase.pending (object : σ) : Phase ω β ρ → List ρ
  | inside left => [(finish rest object left).2]
  | returning result => [result]
  | _ => []

/-- The call that a thread has yet to lock for. -/
def Phase.waiting : Phase ω β ρ → List ω
  | locking op _ => [op]
  | _ => []

/-- What has been shown explains the state: `calls` is the order so far. -/
structure Explained (object : σ) (shown : List (Event τ ω ρ)) (s : State τ σ ω β ρ) : Prop where
  exclusive : Exclusive s
  locking : ∀ t op body, s.phase t = .locking op body → O.enter op = .inl body
  free : s.mutex = none → s.object = sequential apply object (shown.flatMap Event.inOrder)
  held : ∀ t left, s.phase t = .inside left →
    (finish rest s.object left).1 = sequential apply object (shown.flatMap Event.inOrder)
  results : ∀ t, shown.flatMap (Event.returnedTo t) ++ (s.phase t).pending rest s.object =
    (sequentialResults apply object (shown.flatMap Event.inOrder)).flatMap (ofThread t)
  calls : ∀ t, shown.flatMap (Event.calledBy t) =
    (shown.flatMap Event.inOrder).flatMap (ofThread t) ++ (s.phase t).waiting

theorem Explained.start (object : σ) :
    Explained O apply rest object ([] : List (Event τ ω ρ)) (start object) where
  exclusive := .start object
  locking := by simp [MonitorObject.start]
  free := by simp [MonitorObject.start, sequential]
  held := by simp [MonitorObject.start]
  results := by simp [MonitorObject.start, Phase.pending, sequentialResults]
  calls := by simp [MonitorObject.start, Phase.waiting]

section Step

variable {O apply rest} {object : σ} {shown : List (Event τ ω ρ)} {s : State τ σ ω β ρ} {t : τ}

omit [DecidableEq τ] in
/-- What a thread outside has coming does not depend on the object. -/
theorem Phase.pending_eq {p : Phase ω β ρ} (hout : ¬ ∃ left, p = .inside left) (a b : σ) :
    p.pending rest a = p.pending rest b := by
  cases p with
  | inside left => exact absurd ⟨left, rfl⟩ hout
  | _ => rfl

/-- Another thread is outside while `t` is inside. -/
theorem Explained.outside (hs : Explained O apply rest object shown s) {left : β ⊕ ρ}
    (ht : s.phase t = .inside left) {u : τ} (hne : u ≠ t) :
    ¬ ∃ left', s.phase u = .inside left' := by
  rintro ⟨left', hu⟩
  exact hne (hs.exclusive.eq hu ht)

/-- A thread at the lock has the body that its call begins with. -/
theorem Explained.locking_setPhase (hs : Explained O apply rest object shown s) {p : Phase ω β ρ}
    (hp : ∀ op body, p = .locking op body → O.enter op = .inl body) :
    ∀ u op body, (s.setPhase t p).phase u = .locking op body → O.enter op = .inl body := by
  intro u op body hu
  rcases eq_or_ne u t with rfl | hne
  · exact hp op body (by simpa [State.setPhase] using hu)
  · exact hs.locking u op body (by simpa [State.setPhase, Function.update_of_ne hne] using hu)

/-- A call that goes on to the lock. -/
theorem Explained.called (hs : Explained O apply rest object shown s) (hidle : s.phase t = .idle)
    {op : ω} {body : β} (henter : O.enter op = .inl body) :
    Explained O apply rest object (shown ++ [.called t op]) (s.setPhase t (.locking op body)) where
  exclusive := hs.exclusive.setPhase (by simp [hidle])
  locking := hs.locking_setPhase (by simp [henter])
  free := by simpa [Event.inOrder, State.setPhase] using hs.free
  held := by
    intro u left hu
    rcases eq_or_ne u t with rfl | hne
    · simp [State.setPhase] at hu
    · simpa [Event.inOrder, State.setPhase] using
        hs.held u left (by simpa [State.setPhase, Function.update_of_ne hne] using hu)
  results := by
    intro u
    have hold := hs.results u
    rcases eq_or_ne u t with rfl | hne
    · simpa [Event.inOrder, Event.returnedTo, State.setPhase, Phase.pending, hidle] using hold
    · simpa [Event.inOrder, Event.returnedTo, State.setPhase, Function.update_of_ne hne] using hold
  calls := by
    intro u
    have hold := hs.calls u
    rcases eq_or_ne u t with rfl | hne
    · simpa [Event.inOrder, Event.calledBy, State.setPhase, Phase.waiting, hidle] using hold
    · simpa [Event.inOrder, Event.calledBy, State.setPhase, Function.update_of_ne hne, hne.symm]
        using hold

/-- A call that returns without the lock takes effect at once, and changes nothing. -/
theorem Explained.early (himp : O.Implements apply rest)
    (hs : Explained O apply rest object shown s) (hidle : s.phase t = .idle) {op : ω} {result : ρ}
    (henter : O.enter op = .inr result) :
    Explained O apply rest object (shown ++ [.called t op, .committed t op])
      (s.setPhase t (.returning result)) := by
  have hnothing : ∀ x, apply x op = (x, result) := by
    intro x
    rw [← himp.enter x op, henter]
    rfl
  have horder : (shown ++ [Event.called t op, Event.committed t op]).flatMap Event.inOrder =
      shown.flatMap Event.inOrder ++ [(t, op)] := by simp [Event.inOrder]
  refine ⟨hs.exclusive.setPhase (by simp [hidle]), ?_, ?_, ?_, ?_, ?_⟩
  · exact hs.locking_setPhase (by simp)
  · rw [horder, sequential_snoc, hnothing]
    exact hs.free
  · intro u left hu
    rw [horder, sequential_snoc, hnothing]
    rcases eq_or_ne u t with rfl | hne
    · simp [State.setPhase] at hu
    · exact hs.held u left (by simpa [State.setPhase, Function.update_of_ne hne] using hu)
  · intro u
    have hold := hs.results u
    rw [horder, sequentialResults_snoc, hnothing]
    simp only [List.flatMap_append, ← hold]
    rcases eq_or_ne u t with rfl | hne
    · simp [Event.returnedTo, State.setPhase, Phase.pending, hidle, ofThread]
    · simp [Event.returnedTo, State.setPhase, Function.update_of_ne hne, ofThread, hne.symm]
  · intro u
    have hold := hs.calls u
    simp only [horder, List.flatMap_append, hold]
    rcases eq_or_ne u t with rfl | hne
    · simp [Event.calledBy, State.setPhase, Phase.waiting, hidle, ofThread]
    · simp [Event.calledBy, State.setPhase, Function.update_of_ne hne, ofThread, hne.symm]

/-- A call takes effect when it takes the mutex. -/
theorem Explained.lock (himp : O.Implements apply rest)
    (hs : Explained O apply rest object shown s) {op : ω} {body : β}
    (hphase : s.phase t = .locking op body) (hfree : s.mutex = none)
    (hexclusive : Exclusive { s.setPhase t (.inside (.inl body)) with mutex := some t }) :
    Explained O apply rest object (shown ++ [.committed t op])
      { s.setPhase t (.inside (.inl body)) with mutex := some t } := by
  have hmeaning : rest s.object body = apply s.object op := by
    rw [← himp.enter s.object op, hs.locking t op body hphase]
    rfl
  have hobject := hs.free hfree
  have horder : (shown ++ [Event.committed t op]).flatMap Event.inOrder =
      shown.flatMap Event.inOrder ++ [(t, op)] := by simp [Event.inOrder]
  refine ⟨hexclusive, ?_, ?_, ?_, ?_, ?_⟩
  · exact hs.locking_setPhase (by simp)
  · intro h
    cases h
  · intro u left hu
    obtain rfl := hexclusive.eq hu (Function.update_self ..)
    simp only [State.setPhase, Function.update_self, Phase.inside.injEq] at hu
    subst hu
    rw [horder, sequential_snoc, ← hobject, ← hmeaning]
    rfl
  · intro u
    have hold := hs.results u
    rw [horder, sequentialResults_snoc, ← hobject, ← hmeaning]
    simp only [List.flatMap_append, ← hold]
    rcases eq_or_ne u t with rfl | hne
    · simp [Event.returnedTo, State.setPhase, Phase.pending, hphase, ofThread]
    · simp [Event.returnedTo, State.setPhase, Function.update_of_ne hne, ofThread, hne.symm]
  · intro u
    have hold := hs.calls u
    simp only [horder, List.flatMap_append, hold]
    rcases eq_or_ne u t with rfl | hne
    · simp [Event.calledBy, State.setPhase, Phase.waiting, hphase, ofThread]
    · simp [Event.calledBy, State.setPhase, Function.update_of_ne hne, ofThread, hne.symm]

/-- A statement changes the object and leaves what it will have become. -/
theorem Explained.stmt (himp : O.Implements apply rest)
    (hs : Explained O apply rest object shown s) {body : β}
    (hphase : s.phase t = .inside (.inl body))
    (hexclusive : Exclusive
      { s.setPhase t (.inside (O.stmt s.object body).2) with object := (O.stmt s.object body).1 }) :
    Explained O apply rest object shown { s.setPhase t (.inside (O.stmt s.object body).2) with
      object := (O.stmt s.object body).1 } := by
  have hkept := himp.stmt s.object body
  refine ⟨hexclusive, ?_, ?_, ?_, ?_, ?_⟩
  · exact hs.locking_setPhase (by simp)
  · intro hfree
    have hheld : s.mutex = some t := (hs.exclusive t).mpr ⟨_, hphase⟩
    rw [State.setPhase, hheld] at hfree
    cases hfree
  · intro u left hu
    obtain rfl := hexclusive.eq hu (Function.update_self ..)
    simp only [State.setPhase, Function.update_self, Phase.inside.injEq] at hu
    subst hu
    rw [hkept]
    exact hs.held u (.inl body) hphase
  · intro u
    rw [← hs.results u]
    rcases eq_or_ne u t with rfl | hne
    · simp [State.setPhase, Phase.pending, hphase, hkept]
    · simp only [State.setPhase, Function.update_of_ne hne]
      rw [Phase.pending_eq (hs.outside hphase hne) _ s.object]
  · intro u
    rw [hs.calls u]
    rcases eq_or_ne u t with rfl | hne
    · simp [State.setPhase, Phase.waiting, hphase]
    · simp [State.setPhase, Function.update_of_ne hne]

theorem Explained.unlock (hs : Explained O apply rest object shown s) {result : ρ}
    (hphase : s.phase t = .inside (.inr result))
    (hexclusive : Exclusive { s.setPhase t (.returning result) with mutex := none }) :
    Explained O apply rest object shown
      { s.setPhase t (.returning result) with mutex := none } := by
  refine ⟨hexclusive, ?_, ?_, ?_, ?_, ?_⟩
  · exact hs.locking_setPhase (by simp)
  · intro _
    exact hs.held t (.inr result) hphase
  · intro u left hu
    have hheld := (hexclusive u).mpr ⟨left, hu⟩
    cases hheld
  · intro u
    rw [← hs.results u]
    rcases eq_or_ne u t with rfl | hne
    · simp [State.setPhase, Phase.pending, hphase]
    · simp [State.setPhase, Function.update_of_ne hne]
  · intro u
    rw [hs.calls u]
    rcases eq_or_ne u t with rfl | hne
    · simp [State.setPhase, Phase.waiting, hphase]
    · simp [State.setPhase, Function.update_of_ne hne]

theorem Explained.ret (hs : Explained O apply rest object shown s) {result : ρ}
    (hphase : s.phase t = .returning result) :
    Explained O apply rest object (shown ++ [.returned t result]) (s.setPhase t .idle) := by
  have horder : (shown ++ [Event.returned t result]).flatMap Event.inOrder =
      shown.flatMap Event.inOrder := by simp [Event.inOrder]
  refine ⟨hs.exclusive.setPhase (by simp [hphase]), ?_, ?_, ?_, ?_, ?_⟩
  · exact hs.locking_setPhase (by simp)
  · rw [horder]
    exact hs.free
  · intro u left hu
    rw [horder]
    rcases eq_or_ne u t with rfl | hne
    · simp [State.setPhase] at hu
    · exact hs.held u left (by simpa [State.setPhase, Function.update_of_ne hne] using hu)
  · intro u
    rw [horder, ← hs.results u]
    rcases eq_or_ne u t with rfl | hne
    · simp [Event.returnedTo, State.setPhase, Phase.pending, hphase]
    · simp [Event.returnedTo, State.setPhase, Function.update_of_ne hne, hne.symm]
  · intro u
    simp only [horder, List.flatMap_append, hs.calls u]
    rcases eq_or_ne u t with rfl | hne
    · simp [Event.calledBy, State.setPhase, Phase.waiting, hphase]
    · simp [Event.calledBy, State.setPhase, Function.update_of_ne hne]

/-- **One step.** -/
theorem Explained.step (himp : O.Implements apply rest) {s' : State τ σ ω β ρ} {a : Action τ ω}
    (hs : Explained O apply rest object shown s) (h : O.step s a = some s') :
    Explained O apply rest object (shown ++ O.events s a) s' := by
  have hexclusive := hs.exclusive.step O h
  cases Transition.of_step O h with
  | @call t op hidle =>
    cases henter : O.enter op with
    | inl body => simpa only [events, entered, henter] using hs.called hidle henter
    | inr result => simpa only [events, entered, henter] using hs.early himp hidle henter
  | @lock t op body hphase hfree =>
    simpa only [events, hphase] using hs.lock himp hphase hfree hexclusive
  | stmt hphase => simpa only [events, List.append_nil] using hs.stmt himp hphase hexclusive
  | unlock hphase => simpa only [events, List.append_nil] using hs.unlock hphase hexclusive
  | ret hphase => simpa only [events, hphase] using hs.ret hphase

end Step

section Run

variable {O apply rest} {object : σ} {as : List (Action τ ω)} {s : State τ σ ω β ρ}

theorem explained_of_exec (himp : O.Implements apply rest)
    (h : (O.machine τ object).exec (start object) as = some s) :
    Explained O apply rest object (O.trace object as) s :=
  Machine.invariant_observed_exec (P := fun _ _ => True) (I := Explained O apply rest object)
    (fun _ _ _ _ hs _ h => hs.step himp h) (.start O apply rest object)
    (Machine.along_true _ _) h

/-- **Every interleaving acts as its calls made one after the other**, in the order in which they
took the mutex: each thread is returned what they return to it and has made the calls of it in that
order (the last may not have returned yet, the one behind may still be at the lock), and where
nobody holds the mutex the object is the one they leave. -/
theorem linearizable (himp : O.Implements apply rest)
    (h : (O.machine τ object).exec (start object) as = some s) :
    let shown := O.trace object as
    let order := shown.flatMap Event.inOrder
    (s.mutex = none → s.object = sequential apply object order) ∧
      ∀ t, shown.flatMap (Event.returnedTo t) <+:
          (sequentialResults apply object order).flatMap (ofThread t) ∧
        order.flatMap (ofThread t) <+: shown.flatMap (Event.calledBy t) := by
  intro shown order
  have hs := explained_of_exec himp h
  exact ⟨hs.free, fun t => ⟨⟨_, hs.results t⟩, ⟨_, (hs.calls t).symm⟩⟩⟩

omit [DecidableEq τ] in
/-- Every call returns once. -/
theorem map_fst_sequentialResults (calls : List (τ × ω)) :
    (sequentialResults apply object calls).map Prod.fst = calls.map Prod.fst := by
  induction calls generalizing object with
  | nil => rfl
  | cons p calls ih => simp only [sequentialResults, List.map_cons, ih]

theorem length_ofThread {α : Type w} (t : τ) (l : List (τ × α)) :
    (l.flatMap (ofThread t)).length = (l.map Prod.fst).count t := by
  induction l with
  | nil => rfl
  | cons p l ih =>
    by_cases h : p.1 = t
    · simp [ofThread, h, ih, Nat.add_comm]
    · simp [ofThread, h, ih]

/-- **The order respects real time.** Wherever a run is cut, the calls in effect by then come
before the others; they are all that have returned and none that has not been made. -/
theorem order_at_cut (himp : O.Implements apply rest) {bs : List (Action τ ω)}
    (h : (O.machine τ object).exec (start object) (as ++ bs) = some s) :
    (O.trace object as).flatMap Event.inOrder <+:
        (O.trace object (as ++ bs)).flatMap Event.inOrder ∧
      ∀ t, ((O.trace object as).flatMap (Event.returnedTo t)).length ≤
          (((O.trace object as).flatMap Event.inOrder).flatMap (ofThread t)).length ∧
        (((O.trace object as).flatMap Event.inOrder).flatMap (ofThread t)).length ≤
          ((O.trace object as).flatMap (Event.calledBy t)).length := by
  obtain ⟨s', hs', -⟩ := Machine.exec_append_iff.mp h
  have hexplained := (linearizable himp hs').2
  refine ⟨?_, fun t => ⟨?_, (hexplained t).2.length_le⟩⟩
  · rw [trace, trace, Machine.observed_append hs', List.flatMap_append]
    exact List.prefix_append ..
  · have hreturned := (hexplained t).1.length_le
    rwa [length_ofThread, map_fst_sequentialResults, ← length_ofThread] at hreturned

end Run

/-! ## The mutex is not held for long -/

section Progress

variable {O}

/-- Every statement behind which a body goes on makes `μ` smaller. -/
structure Terminating (O : MonitorObject σ ω β ρ) (I : σ → Prop) (μ : σ → β → Nat) : Prop where
  keep : ∀ object body, I object → I (O.stmt object body).1
  decrease : ∀ object body body', I object → (O.stmt object body).2 = .inl body' →
    μ (O.stmt object body).1 body' < μ object body

/-- A bound on the statements before the unlock. -/
def remaining (μ : σ → β → Nat) (object : σ) : β ⊕ ρ → Nat
  | .inl body => μ object body + 1
  | .inr _ => 0

/-- A statement of `t`. -/
def Action.isStmt (t : τ) : Action τ ω → Bool
  | stmt u => u = t
  | _ => false

variable {I : σ → Prop} {μ : σ → β → Nat} {s s' : State τ σ ω β ρ} {t : τ}

/-- The thread that holds the mutex can go on, whatever the others do. -/
theorem Exclusive.holder_enabled (hs : Exclusive s) (hheld : s.mutex = some t) :
    (∃ s', O.step s (.stmt t) = some s') ∨ ∃ s', O.step s (.unlock t) = some s' := by
  obtain ⟨left, hleft⟩ := (hs t).mp hheld
  cases left with
  | inl body => exact Or.inl ⟨_, by simp only [MonitorObject.step, hleft]; rfl⟩
  | inr result => exact Or.inr ⟨_, by simp only [MonitorObject.step, hleft]; rfl⟩

/-- Until `t` unlocks, the steps of the others leave what it has to do alone. -/
theorem Terminating.step (hterm : O.Terminating I μ) (hs : Exclusive s) (hI : I s.object)
    {left : β ⊕ ρ} (ht : s.phase t = .inside left) {a : Action τ ω} (ha : a ≠ .unlock t)
    (h : O.step s a = some s') :
    ∃ left', s'.phase t = .inside left' ∧ I s'.object ∧
      (if a.isStmt t then 1 else 0) + remaining μ s'.object left' ≤ remaining μ s.object left := by
  have hother : ∀ {u : τ} {p : Phase ω β ρ}, s.phase u = p → (¬ ∃ l, p = .inside l) →
      ∀ q, (s.setPhase u q).phase t = .inside left := by
    intro u p hu hp q
    have hne : t ≠ u := by
      rintro rfl
      exact hp ⟨left, hu.symm.trans ht⟩
    simpa only [State.setPhase, Function.update_of_ne hne] using ht
  cases Transition.of_step O h with
  | call op hidle =>
    exact ⟨left, hother hidle (by simp) _, hI, by simp [Action.isStmt, State.setPhase]⟩
  | lock hphase hfree =>
    exact ⟨left, hother hphase (by simp) _, hI, by simp [Action.isStmt, State.setPhase]⟩
  | @stmt u body hphase =>
    -- only the holder is inside
    obtain rfl := hs.eq ht hphase
    rw [hphase] at ht
    cases ht
    refine ⟨_, Function.update_self .., hterm.keep _ _ hI, ?_⟩
    simp only [Action.isStmt, decide_true, if_true]
    cases hleft : (O.stmt s.object body).2 with
    | inl body' =>
      have hlt := hterm.decrease _ _ _ hI hleft
      simp only [remaining]
      omega
    | inr result => simp [remaining]
  | @unlock u result hphase =>
    obtain rfl := hs.eq ht hphase
    exact absurd rfl ha
  | ret hphase =>
    exact ⟨left, hother hphase (by simp) _, hI, by simp [Action.isStmt, State.setPhase]⟩

/-- The same over a run. -/
theorem Terminating.run (hterm : O.Terminating I μ) {object : σ} :
    ∀ {as : List (Action τ ω)} {s s' : State τ σ ω β ρ} {left : β ⊕ ρ}, Exclusive s → I s.object →
      s.phase t = .inside left → Action.unlock t ∉ as →
      (O.machine τ object).exec s as = some s' →
      Exclusive s' ∧ ∃ left', s'.phase t = .inside left' ∧
        as.countP (Action.isStmt t) + remaining μ s'.object left' ≤ remaining μ s.object left := by
  intro as
  induction as with
  | nil =>
    intro s s' left hs _ ht _ h
    cases h
    exact ⟨hs, left, ht, by simp⟩
  | cons a as ih =>
    intro s s' left hs hI ht hmem h
    obtain ⟨u, hu, hrest⟩ := Machine.exec_cons_iff.mp h
    obtain ⟨ha, hmem⟩ := not_or.mp (List.mem_cons.not.mp hmem)
    obtain ⟨left', ht', hI', hle⟩ := hterm.step hs hI ht (Ne.symm ha) hu
    obtain ⟨hs', left'', ht'', hcount⟩ := ih (hs.step O hu) hI' ht' hmem hrest
    refine ⟨hs', left'', ht'', ?_⟩
    rw [List.countP_cons]
    omega

/-- **The mutex is held for boundedly many statements**, whatever happens in between, and its holder
can always go on. -/
theorem Terminating.exec (hterm : O.Terminating I μ) {object : σ} {as : List (Action τ ω)}
    {left : β ⊕ ρ} (hs : Exclusive s) (hI : I s.object) (ht : s.phase t = .inside left)
    (hmem : Action.unlock t ∉ as) (h : (O.machine τ object).exec s as = some s') :
    as.countP (Action.isStmt t) ≤ remaining μ s.object left ∧
      ((∃ s'', O.step s' (.stmt t) = some s'') ∨ ∃ s'', O.step s' (.unlock t) = some s'') := by
  obtain ⟨hs', left', ht', hcount⟩ := hterm.run hs hI ht hmem h
  exact ⟨by omega, hs'.holder_enabled ((hs' t).mpr ⟨left', ht'⟩)⟩

end Progress

end MonitorObject

end RtspPush.Lib
