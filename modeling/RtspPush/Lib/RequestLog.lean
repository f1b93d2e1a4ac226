import Mathlib.Data.List.Nodup
import Mathlib.Logic.Function.Basic
import RtspPush.Lib.Machine

/-!
# Requests that are answered at most once

Clients make requests of a server, one outstanding at a time, and may withdraw them; the server
takes an item for an outstanding request and answers with it before anything else happens.
`RequestLog.contract` is this as a machine over what the two sides do. In every run of it each
item that is taken is the answer to the request that was outstanding then (`taken_at`), and no
request gets two (`Valid.nodup_taken`). A server is verified by showing that what it does is a run
of the contract.
-/

namespace RtspPush.Lib

universe u v w

/-- What happens between the clients and the server. -/
inductive RequestEvent (ι : Type u) (ρ : Type v) (α : Type w)
  | request (i : ι) (params : ρ)
  | withdraw (i : ι)
  | take (i : ι) (item : α)
  | answer (i : ι)

/-- An item and the request it is taken for: the `number`th of its client, the first being 1. -/
structure Answer (ι : Type u) (ρ : Type v) (α : Type w) where
  client : ι
  number : Nat
  params : ρ
  item : α

/-- The requests of every client, the one that is outstanding, and what has been answered. -/
structure RequestLog (ι : Type u) (ρ : Type v) (α : Type w) where
  issued : ι → List ρ
  outstanding : ι → Option ρ
  answered : List (Answer ι ρ α)
  inHand : Option (Answer ι ρ α)

variable {ι : Type u} {ρ : Type v} {α : Type w}

namespace RequestEvent

/-- The item that is taken, and for whom. -/
def taken : RequestEvent ι ρ α → List (ι × α)
  | take i item => [(i, item)]
  | _ => []

variable [DecidableEq ι]

/-- The request that `i` makes. -/
def requested (i : ι) : RequestEvent ι ρ α → List ρ
  | request j params => if j = i then [params] else []
  | _ => []

/-- A request of `i` is no longer outstanding behind this. -/
def ends (i : ι) : RequestEvent ι ρ α → Bool
  | request j _ | withdraw j | answer j => j = i
  | take _ _ => false

end RequestEvent

/-- `i` has a request with `params` outstanding at the end of the history. -/
def Outstanding [DecidableEq ι] (history : List (RequestEvent ι ρ α)) (i : ι) (params : ρ) : Prop :=
  ∃ earlier later, history = earlier ++ .request i params :: later ∧ ∀ e ∈ later, e.ends i = false

theorem Outstanding.snoc [DecidableEq ι] {history : List (RequestEvent ι ρ α)} {i : ι} {params : ρ}
    (h : Outstanding history i params) {e : RequestEvent ι ρ α} (he : e.ends i = false) :
    Outstanding (history ++ [e]) i params := by
  obtain ⟨earlier, later, rfl, hlater⟩ := h
  refine ⟨earlier, later ++ [e], by simp, fun x hx => ?_⟩
  rcases List.mem_append.mp hx with hx | hx
  · exact hlater x hx
  · rw [List.mem_singleton.mp hx, he]

/-- The request that an answer is for. -/
def Answer.key (a : Answer ι ρ α) : ι × Nat := (a.client, a.number)

/-- Who gets what. -/
def Answer.delivery (a : Answer ι ρ α) : ι × α := (a.client, a.item)

namespace RequestLog

def empty : RequestLog ι ρ α := ⟨fun _ => [], fun _ => none, [], none⟩

/-- What has been taken: the last of it may be in hand. -/
def taken (l : RequestLog ι ρ α) : List (Answer ι ρ α) := l.answered ++ l.inHand.toList

/-- The answer in hand is for an outstanding request, and no request has two answers. -/
structure Valid (l : RequestLog ι ρ α) : Prop where
  in_hand : ∀ a, l.inHand = some a →
    l.outstanding a.client = some a.params ∧ a.number = (l.issued a.client).length
  number_le : ∀ a ∈ l.answered, a.number ≤ (l.issued a.client).length
  unanswered : ∀ a ∈ l.answered, l.outstanding a.client ≠ none →
    a.number ≠ (l.issued a.client).length
  nodup : (l.answered.map Answer.key).Nodup

namespace Valid

variable {l : RequestLog ι ρ α}

theorem empty : (empty : RequestLog ι ρ α).Valid where
  in_hand := by simp [RequestLog.empty]
  number_le := by simp [RequestLog.empty]
  unanswered := by simp [RequestLog.empty]
  nodup := by simp [RequestLog.empty]

/-- The request in hand has no answer yet. -/
theorem key_notMem (hl : l.Valid) {a : Answer ι ρ α} (hhand : l.inHand = some a) :
    a.key ∉ l.answered.map Answer.key := by
  intro hmem
  obtain ⟨b, hb, hkey⟩ := List.mem_map.mp hmem
  obtain ⟨hclient, hnumber⟩ := Prod.mk.inj hkey
  obtain ⟨hout, hlast⟩ := hl.in_hand a hhand
  refine hl.unanswered b hb ?_ ?_
  · simp [hclient, hout]
  · rw [hclient, hnumber, hlast]

/-- **No request is answered twice**, the answer in hand included. -/
theorem nodup_taken (hl : l.Valid) : (l.taken.map Answer.key).Nodup := by
  cases hhand : l.inHand with
  | none => simpa [taken, hhand] using hl.nodup
  | some a =>
    simp only [taken, hhand, Option.toList_some]
    rw [List.map_append, List.nodup_append]
    refine ⟨hl.nodup, by simp, fun key hkey key' hkey' heq => ?_⟩
    have hkey' : key' = a.key := by simpa using hkey'
    exact hl.key_notMem hhand (hkey' ▸ heq ▸ hkey)

end Valid

variable [DecidableEq ι]

/-- What an event does to the log, if the contract allows it. -/
def record (l : RequestLog ι ρ α) : RequestEvent ι ρ α → Option (RequestLog ι ρ α)
  | .request i params =>
    if l.inHand.isSome then none
    else
      some { l with
        issued := Function.update l.issued i (l.issued i ++ [params])
        outstanding := Function.update l.outstanding i (some params) }
  | .withdraw i =>
    if l.inHand.isSome then none
    else some { l with outstanding := Function.update l.outstanding i none }
  | .take i item =>
    match l.inHand, l.outstanding i with
    | none, some params =>
      some { l with inHand := some ⟨i, (l.issued i).length, params, item⟩ }
    | _, _ => none
  | .answer i =>
    match l.inHand with
    | some a =>
      if a.client = i then
        some { l with
          outstanding := Function.update l.outstanding i none
          answered := l.answered ++ [a]
          inHand := none }
      else none
    | none => none

/-- The contract as a machine. -/
def contract (ι : Type u) (ρ : Type v) (α : Type w) [DecidableEq ι] :
    Machine (RequestLog ι ρ α) (RequestEvent ι ρ α) := ⟨empty, record⟩

section Record

variable {l l' : RequestLog ι ρ α} {i : ι} {params : ρ} {item : α}

theorem record_request_iff : l.record (.request i params) = some l' ↔
    l.inHand = none ∧ l' = { l with
      issued := Function.update l.issued i (l.issued i ++ [params])
      outstanding := Function.update l.outstanding i (some params) } := by
  cases hhand : l.inHand <;> simp [record, hhand, eq_comm]

theorem record_withdraw_iff : l.record (.withdraw i) = some l' ↔
    l.inHand = none ∧ l' = { l with outstanding := Function.update l.outstanding i none } := by
  cases hhand : l.inHand <;> simp [record, hhand, eq_comm]

theorem record_take_iff : l.record (.take i item) = some l' ↔
    l.inHand = none ∧ ∃ params, l.outstanding i = some params ∧
      l' = { l with inHand := some ⟨i, (l.issued i).length, params, item⟩ } := by
  cases hhand : l.inHand <;> cases hout : l.outstanding i <;> simp [record, hhand, hout, eq_comm]

theorem record_answer_iff : l.record (.answer i) = some l' ↔
    ∃ a, l.inHand = some a ∧ a.client = i ∧ l' = { l with
      outstanding := Function.update l.outstanding i none
      answered := l.answered ++ [a]
      inHand := none } := by
  cases hhand : l.inHand with
  | none => simp [record, hhand]
  | some a =>
    by_cases hclient : a.client = i
    · simp [record, hhand, hclient, eq_comm]
    · simp [record, hhand, hclient]

end Record

/-! ## What the contract guarantees -/

namespace Valid

variable {l l' : RequestLog ι ρ α}

theorem request (hl : l.Valid) (hhand : l.inHand = none) (i : ι) (params : ρ) :
    Valid { l with
      issued := Function.update l.issued i (l.issued i ++ [params])
      outstanding := Function.update l.outstanding i (some params) } := by
  refine { hl with
    in_hand := by simp [hhand]
    number_le := fun a ha => ?_
    unanswered := fun a ha hout => ?_ }
  · have hle := hl.number_le a ha
    by_cases hclient : a.client = i
    · subst hclient
      simp only [Function.update_self, List.length_append, List.length_singleton]
      omega
    · simpa [Function.update_of_ne hclient] using hle
  · by_cases hclient : a.client = i
    · -- a request that is made now has the next number
      subst hclient
      have hle := hl.number_le a ha
      simp only [Function.update_self, List.length_append, List.length_singleton]
      omega
    · simp only [Function.update_of_ne hclient] at hout ⊢
      exact hl.unanswered a ha hout

theorem withdraw (hl : l.Valid) (hhand : l.inHand = none) (i : ι) :
    Valid { l with outstanding := Function.update l.outstanding i none } := by
  refine { hl with in_hand := by simp [hhand], unanswered := fun a ha hout => ?_ }
  by_cases hclient : a.client = i
  · simp [hclient] at hout
  · simp only [Function.update_of_ne hclient] at hout
    exact hl.unanswered a ha hout

theorem answer (hl : l.Valid) {a : Answer ι ρ α} (hhand : l.inHand = some a) :
    Valid { l with
      outstanding := Function.update l.outstanding a.client none
      answered := l.answered ++ [a]
      inHand := none } := by
  obtain ⟨hout, hlast⟩ := hl.in_hand a hhand
  refine ⟨by simp, fun b hb => ?_, fun b hb hne => ?_, ?_⟩
  · rcases List.mem_append.mp hb with hb | hb
    · exact hl.number_le b hb
    · rw [List.mem_singleton.mp hb]
      exact Nat.le_of_eq hlast
  · by_cases hclient : b.client = a.client
    · simp [hclient] at hne
    · simp only [Function.update_of_ne hclient] at hne
      rcases List.mem_append.mp hb with hb | hb
      · exact hl.unanswered b hb hne
      · exact absurd (congrArg Answer.client (List.mem_singleton.mp hb)) hclient
  · simpa [taken, hhand] using hl.nodup_taken

theorem record (hl : l.Valid) {e : RequestEvent ι ρ α} (h : l.record e = some l') :
    l'.Valid := by
  cases e with
  | request i params =>
    obtain ⟨hhand, rfl⟩ := record_request_iff.mp h
    exact hl.request hhand i params
  | withdraw i =>
    obtain ⟨hhand, rfl⟩ := record_withdraw_iff.mp h
    exact hl.withdraw hhand i
  | take i item =>
    obtain ⟨hhand, params, hout, rfl⟩ := record_take_iff.mp h
    refine { hl with in_hand := ?_ }
    rintro a ⟨⟩
    exact ⟨hout, rfl⟩
  | answer i =>
    obtain ⟨a, hhand, rfl, rfl⟩ := record_answer_iff.mp h
    exact hl.answer hhand

theorem exec {es : List (RequestEvent ι ρ α)} (h : (contract ι ρ α).exec .empty es = some l) :
    l.Valid :=
  Machine.invariant_exec (I := Valid) (fun _ _ _ hl h => record hl h) Valid.empty h

end Valid

/-! ## Runs of the contract -/

section Runs

variable {l l' : RequestLog ι ρ α} {es : List (RequestEvent ι ρ α)}

theorem taken_record {e : RequestEvent ι ρ α} (h : l.record e = some l') :
    l'.taken.map Answer.delivery = l.taken.map Answer.delivery ++ e.taken := by
  cases e with
  | request i params =>
    obtain ⟨-, rfl⟩ := record_request_iff.mp h
    simp [taken, RequestEvent.taken]
  | withdraw i =>
    obtain ⟨-, rfl⟩ := record_withdraw_iff.mp h
    simp [taken, RequestEvent.taken]
  | take i item =>
    obtain ⟨hhand, params, -, rfl⟩ := record_take_iff.mp h
    simp [taken, hhand, RequestEvent.taken, Answer.delivery]
  | answer i =>
    obtain ⟨a, hhand, -, rfl⟩ := record_answer_iff.mp h
    simp [taken, hhand, RequestEvent.taken]

/-- **Every item that is taken is an answer to the client it was taken for**, in order. -/
theorem taken_eq (h : (contract ι ρ α).exec l es = some l') :
    l'.taken.map Answer.delivery = l.taken.map Answer.delivery ++ es.flatMap RequestEvent.taken :=
  Machine.exec_flatMap_of_step (M := contract ι ρ α) (fun l => l.taken.map Answer.delivery)
    RequestEvent.taken (fun _ _ _ h => taken_record h) h

theorem taken_prefix (h : (contract ι ρ α).exec l es = some l') : l.taken <+: l'.taken := by
  refine Machine.invariant_exec (M := contract ι ρ α) (I := fun m => l.taken <+: m.taken)
    (fun m e m' hm h => hm.trans ?_) (List.prefix_refl l.taken) h
  cases e with
  | request i params =>
    obtain ⟨-, rfl⟩ := record_request_iff.mp h
    exact List.prefix_refl _
  | withdraw i =>
    obtain ⟨-, rfl⟩ := record_withdraw_iff.mp h
    exact List.prefix_refl _
  | take i item =>
    obtain ⟨hhand, params, -, rfl⟩ := record_take_iff.mp h
    simp [taken, hhand]
  | answer i =>
    obtain ⟨a, hhand, -, rfl⟩ := record_answer_iff.mp h
    simp [taken, hhand]

theorem issued_record {e : RequestEvent ι ρ α} (h : l.record e = some l') (i : ι) :
    l'.issued i = l.issued i ++ e.requested i := by
  cases e with
  | request j params =>
    obtain ⟨-, rfl⟩ := record_request_iff.mp h
    by_cases hi : i = j
    · subst hi
      simp [RequestEvent.requested]
    · simp [RequestEvent.requested, Function.update_of_ne hi, Ne.symm hi]
  | withdraw j =>
    obtain ⟨-, rfl⟩ := record_withdraw_iff.mp h
    simp [RequestEvent.requested]
  | take j item =>
    obtain ⟨-, -, -, rfl⟩ := record_take_iff.mp h
    simp [RequestEvent.requested]
  | answer j =>
    obtain ⟨-, -, -, rfl⟩ := record_answer_iff.mp h
    simp [RequestEvent.requested]

theorem issued_eq (h : (contract ι ρ α).exec l es = some l') (i : ι) :
    l'.issued i = l.issued i ++ es.flatMap (RequestEvent.requested i) :=
  Machine.exec_flatMap_of_step (M := contract ι ρ α) (fun l => l.issued i)
    (RequestEvent.requested i) (fun _ _ _ h => issued_record h i) h

/-- What the log has as outstanding is so in the history. -/
theorem outstanding_record {history : List (RequestEvent ι ρ α)} {e : RequestEvent ι ρ α}
    (hl : ∀ i params, l.outstanding i = some params → Outstanding history i params)
    (h : l.record e = some l') :
    ∀ i params, l'.outstanding i = some params → Outstanding (history ++ [e]) i params := by
  intro i params hout
  cases e with
  | request j asked =>
    obtain ⟨-, rfl⟩ := record_request_iff.mp h
    by_cases hi : i = j
    · subst hi
      obtain rfl : asked = params := by simpa using hout
      exact ⟨history, [], rfl, by simp⟩
    · simp only [Function.update_of_ne hi] at hout
      exact (hl i params hout).snoc (by simp [RequestEvent.ends, Ne.symm hi])
  | withdraw j =>
    obtain ⟨-, rfl⟩ := record_withdraw_iff.mp h
    by_cases hi : i = j
    · simp [hi] at hout
    · simp only [Function.update_of_ne hi] at hout
      exact (hl i params hout).snoc (by simp [RequestEvent.ends, Ne.symm hi])
  | take j item =>
    obtain ⟨-, asked, -, rfl⟩ := record_take_iff.mp h
    exact (hl i params hout).snoc rfl
  | answer j =>
    obtain ⟨a, -, -, rfl⟩ := record_answer_iff.mp h
    by_cases hi : i = j
    · simp [hi] at hout
    · simp only [Function.update_of_ne hi] at hout
      exact (hl i params hout).snoc (by simp [RequestEvent.ends, Ne.symm hi])

theorem outstanding_of_exec (h : (contract ι ρ α).exec .empty es = some l) {i : ι} {params : ρ}
    (hout : l.outstanding i = some params) : Outstanding es i params := by
  have hrun := Machine.invariant_history (M := contract ι ρ α)
    (I := fun history m => ∀ i params, m.outstanding i = some params →
      Outstanding history i params)
    (fun _ _ _ _ hl h => outstanding_record hl h) (h := []) (by simp [empty]) h
  exact hrun i params hout

/-- **An item is taken for the request that is outstanding then**: the latest of its client. -/
theorem taken_at {earlier later : List (RequestEvent ι ρ α)} {i : ι} {item : α}
    (h : (contract ι ρ α).exec .empty (earlier ++ .take i item :: later) = some l) :
    ∃ params, Outstanding earlier i params ∧
      l.taken[(earlier.flatMap RequestEvent.taken).length]? =
        some ⟨i, (earlier.flatMap (RequestEvent.requested i)).length, params, item⟩ := by
  obtain ⟨m, hm, hrest⟩ := Machine.exec_append_iff.mp h
  obtain ⟨n, hn, hlater⟩ := Machine.exec_cons_iff.mp hrest
  obtain ⟨hhand, params, hout, rfl⟩ := record_take_iff.mp hn
  refine ⟨params, outstanding_of_exec hm hout, ?_⟩
  have hissued : m.issued i = earlier.flatMap (RequestEvent.requested i) := issued_eq hm i
  have htaken : m.answered.length = (earlier.flatMap RequestEvent.taken).length := by
    have hmap := congrArg List.length (taken_eq hm)
    simpa [taken, hhand, empty] using hmap
  obtain ⟨rest, hrest⟩ := taken_prefix hlater
  rw [← hrest, ← htaken, ← hissued]
  simp [taken]

end Runs

end RequestLog

end RtspPush.Lib
