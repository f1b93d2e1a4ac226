import RtspPush.Service.Session

/-!
# Any number of callers

What holds in every reachable state whoever calls, with any number of threads inside `start` and
`stop` at once. `Owned`: the mutex belongs to the caller that is inside a mutex section, the
handle to the unfinished RTSP thread, and at most one caller is inside a `join()`. `Watched`: the
watch variable stays set while the `stop` that has stored it is under way, and until the next
`start` clears it.
-/

namespace RtspPush.Service

open Lib

variable {ι : Type}

/-! ## One caller moves -/

namespace State

variable [DecidableEq ι] {s : State ι} {i j : ι} {c : Caller}

/-- What does not see the move of `i` sees no other caller move either. -/
theorem see_setCaller {β : Type} {p : Caller → β} (hc : p c = p (s.callers i)) (j : ι) :
    p ((s.setCaller i c).callers j) = p (s.callers j) := by
  by_cases hj : j = i
  · simp [hj, hc]
  · simp [hj]

/-- Who is where `i` has not moved to was there before. -/
theorem callers_of_setCaller {c' : Caller} (h : (s.setCaller i c).callers j = c')
    (hne : c ≠ c') : s.callers j = c' := by
  by_cases hj : j = i
  · exact absurd (by simpa [hj] using h) hne
  · simpa [hj] using h

end State

/-! ## The mutex and the handle -/

/-- The RTSP thread whose `join()` the caller is in. -/
def Caller.joins : Caller → Option Nat
  | .stopping (.joining thread) _ => some thread
  | _ => none

section

/-! The mutex and the `join()` have at most one owner: the caller that `p` holds of. -/

variable [DecidableEq ι] {callers : ι → Caller} {p : Caller → Bool} {owner : Option ι} {i : ι}
  {c : Caller}

theorem owner_same (h : ∀ j, owner = some j ↔ p (callers j) = true) (hc : p c = p (callers i))
    (j : ι) : owner = some j ↔ p (if j = i then c else callers j) = true := by
  by_cases hj : j = i
  · subst hj
    rw [if_pos rfl, hc]
    exact h j
  · rw [if_neg hj]
    exact h j

theorem owner_taken (h : ∀ j, owner = some j ↔ p (callers j) = true) (hfree : owner = none)
    (hc : p c = true) (j : ι) : some i = some j ↔ p (if j = i then c else callers j) = true := by
  by_cases hj : j = i
  · subst hj
    simp [hc]
  · have hnot : p (callers j) ≠ true := fun hp => by simpa [hfree] using (h j).mpr hp
    simp [hj, Ne.symm hj, hnot]

theorem owner_released (h : ∀ j, owner = some j ↔ p (callers j) = true)
    (hi : p (callers i) = true) (hc : p c = false) (j : ι) :
    none = some j ↔ p (if j = i then c else callers j) = true := by
  by_cases hj : j = i
  · subst hj
    simp [hc]
  · have hnot : p (callers j) ≠ true := fun hp =>
      hj (Option.some.inj (((h j).mpr hp).symm.trans ((h i).mpr hi)))
    simp [hj, hnot]

end

/-- Who owns the mutex and the handle. -/
structure Owned (s : State ι) : Prop where
  mutex : ∀ i, s.mutex = some i ↔ (s.callers i).holdsMutex = true
  handle : s.rtsp ≠ .ended → s.rtspThread_ = some s.session
  latest : ∀ thread, s.rtspThread_ = some thread → thread = s.session
  joiner : ∀ i, s.joiner = some i ↔ (s.callers i).joins.isSome = true
  joins : ∀ i thread, (s.callers i).joins = some thread → s.rtspThread_ = some thread

namespace Owned

variable {s t : State ι}

theorem new : Owned (.new : State ι) where
  mutex i := by simp [State.new, Caller.holdsMutex]
  handle h := absurd rfl h
  latest _ h := by cases h
  joiner i := by simp [State.new, Caller.joins]
  joins _ _ h := by cases h

/-- With the mutex free nobody is inside a mutex section. -/
theorem holdsMutex_eq_false (hs : Owned s) (hfree : s.mutex = none) (i : ι) :
    (s.callers i).holdsMutex = false := by
  by_contra h
  rw [(hs.mutex i).mpr (by simpa using h)] at hfree
  cases hfree

/-- The mutex excludes: two callers inside a mutex section are one. -/
theorem eq_of_holdsMutex (hs : Owned s) {i j : ι} (hi : (s.callers i).holdsMutex = true)
    (hj : (s.callers j).holdsMutex = true) : i = j :=
  Option.some.inj (((hs.mutex i).mpr hi).symm.trans ((hs.mutex j).mpr hj))

/-- Without a thread in the handle, none is unfinished. -/
theorem ended_of_handle (hs : Owned s) (h : s.rtspThread_ = none) : s.rtsp = .ended := by
  by_contra hlive
  rw [hs.handle hlive] at h
  cases h

/-- A `join()` that returns was of the latest thread, and that has ended. -/
theorem ended_of_joined (hs : Owned s) {i : ι} {d : Bool} {thread : Nat}
    (hcall : s.callers i = .stopping (.joining thread) d)
    (hended : thread = s.session → s.rtsp = .ended) : s.rtsp = .ended :=
  hended (hs.latest thread (hs.joins i thread (by rw [hcall]; rfl)))

theorem rtsp (hs : Owned s) (h : RtspStep s t) : Owned t := by
  have hframe := h.frame
  constructor
  · simpa only [hframe.callers, hframe.mutex] using hs.mutex
  · intro _
    rw [hframe.rtspThread, hframe.session]
    exact hs.handle hframe.live
  · simpa only [hframe.rtspThread, hframe.session] using hs.latest
  · simpa only [hframe.callers, hframe.joiner] using hs.joiner
  · simpa only [hframe.callers, hframe.rtspThread] using hs.joins

/-- A caller moves and stays in no `join()` or in the same one. -/
theorem goOn [DecidableEq ι] (hs : Owned s) {i : ι} {c : Caller}
    (hcallers : t.callers = (s.setCaller i c).callers) (hthread : t.rtspThread_ = s.rtspThread_)
    (hjoiner : t.joiner = s.joiner) (hsession : t.session = s.session) (hrtsp : t.rtsp = s.rtsp)
    (hjoins : c.joins = (s.callers i).joins)
    (hmutex : ∀ j, t.mutex = some j ↔ ((s.setCaller i c).callers j).holdsMutex = true) :
    Owned t := by
  have hkept := State.see_setCaller (p := Caller.joins) hjoins
  constructor
  · rwa [hcallers]
  · rw [hrtsp, hthread, hsession]
    exact hs.handle
  · rw [hthread, hsession]
    exact hs.latest
  · intro j
    rw [hcallers, hjoiner, hkept j]
    exact hs.joiner j
  · intro j thread
    rw [hcallers, hthread, hkept j]
    exact hs.joins j thread

theorem launch [DecidableEq ι] (hs : Owned s) {i : ι} {args : StartArgs}
    (hcall : s.callers i = .starting .launch args) (hthread : s.rtspThread_ = none) :
    Owned { s.setCaller i .outside with
      rtspThread_ := some (s.session + 1)
      session := s.session + 1
      rtsp := .createScheduler
      mutex := none } where
  mutex := owner_released hs.mutex (by rw [hcall]; rfl) rfl
  handle _ := rfl
  latest _ h := (Option.some.inj h).symm
  joiner := owner_same (p := fun c => c.joins.isSome) hs.joiner (by rw [hcall]; rfl)
  joins j thread hj := by
    -- nobody is inside a `join()`, since the handle is empty
    by_cases hji : j = i
    · simp [hji, Caller.joins] at hj
    · have hbusy := hs.joins j thread (by simpa [hji] using hj)
      rw [hthread] at hbusy
      cases hbusy

theorem join [DecidableEq ι] (hs : Owned s) {i : ι} {inDestructor : Bool} {thread : Nat}
    (hcall : s.callers i = .stopping .join inDestructor) (hthread : s.rtspThread_ = some thread)
    (hjoiner : s.joiner = none) :
    Owned { s.setCaller i (.stopping (.joining thread) inDestructor) with joiner := some i } where
  mutex := owner_same hs.mutex (by rw [hcall]; rfl)
  handle := hs.handle
  latest := hs.latest
  joiner := owner_taken (p := fun c => c.joins.isSome) hs.joiner hjoiner rfl
  joins j thread' hj := by
    by_cases hji : j = i
    · obtain rfl : thread = thread' := by simpa [hji, Caller.joins] using hj
      exact hthread
    · exact hs.joins j thread' (by simpa [hji] using hj)

theorem joined [DecidableEq ι] (hs : Owned s) {i : ι} {inDestructor : Bool} {thread : Nat}
    (hcall : s.callers i = .stopping (.joining thread) inDestructor)
    (hended : thread = s.session → s.rtsp = .ended) :
    Owned { s.setCaller i (.stopping .clearRunning inDestructor) with
      rtspThread_ := none
      joiner := none } where
  mutex := owner_same hs.mutex (by rw [hcall]; rfl)
  handle hlive := absurd (hs.ended_of_joined hcall hended) hlive
  latest _ h := by cases h
  joiner := owner_released (p := fun c => c.joins.isSome) hs.joiner (by rw [hcall]; rfl) rfl
  joins j thread' hj := by
    by_cases hji : j = i
    · simp [hji, Caller.joins] at hj
    · -- the handle has one joiner
      have hother := (hs.joiner j).mpr (by
        simp only [State.setCaller, if_neg hji] at hj
        rw [hj]
        rfl)
      have hself := (hs.joiner i).mpr (by rw [hcall]; rfl)
      exact absurd (Option.some.inj (hother.symm.trans hself)) hji

/-- **Every step keeps the owners.** -/
theorem transition [DecidableEq ι] (hs : Owned s) {a : Action ι} (h : Transition s a t) :
    Owned t := by
  cases h with
  | startRunning => exact hs
  | start i _ hcall hfree | stop i _ hcall hfree =>
    exact hs.goOn rfl rfl rfl rfl rfl (by rw [hcall]; rfl) (owner_taken hs.mutex hfree rfl)
  | startNext i point args hcall hpoint =>
    cases point with
    | launch => exact absurd rfl hpoint
    | _ =>
      exact hs.goOn rfl rfl rfl rfl rfl (by rw [hcall]; rfl)
        (owner_same hs.mutex (by rw [hcall]; rfl))
  | launch i args hcall hthread => exact hs.launch hcall hthread
  | copyTrigger i inDestructor scheduler hcall =>
    exact hs.goOn rfl rfl rfl rfl rfl (by rw [hcall]; rfl)
      (owner_released hs.mutex (by rw [hcall]; rfl) rfl)
  | join i inDestructor thread hcall hthread hjoiner => exact hs.join hcall hthread hjoiner
  | joined i inDestructor thread hcall hended => exact hs.joined hcall hended
  | stopNotRunning i inDestructor hcall | clearRunning i inDestructor hcall =>
    exact hs.goOn rfl rfl rfl rfl rfl (by rw [hcall]; cases inDestructor <;> rfl)
      (owner_same hs.mutex (by rw [hcall]; cases inDestructor <;> rfl))
  | launchCrash => exact { hs with }
  | joinTwice => exact { hs with }
  | joinCrash => exact { hs with }
  | destroyCrash => exact { hs with }
  | rtsp reply t h => exact hs.rtsp h
  | push => exact { hs with }
  | setWatch i _ hcall | copyScheduler i _ hcall | trigger i _ _ _ hcall | joinable i _ hcall
    | notJoinable i _ hcall | destroyMembers i hcall =>
    exact hs.goOn rfl rfl rfl rfl rfl (by rw [hcall]; rfl)
      (owner_same hs.mutex (by rw [hcall]; rfl))

end Owned

/-! ## The watch variable -/

/-- The caller is in a `start` that has cleared the watch variable. -/
def Caller.watchCleared : Caller → Bool
  | .starting .clearStartOk _ => true
  | .starting .setRunning _ => true
  | .starting .launch _ => true
  | _ => false

/-- The caller is in a `stop` between its store to the watch variable and its return. -/
def Caller.ending : Caller → Bool
  | .stopping .setWatch _ => false
  | .stopping _ _ => true
  | _ => false

/-- The RTSP thread is in `cleanupLive555()` behind its event loop. -/
def RtspPoint.loopLeft : RtspPoint → Bool
  | .cleanup _ false => true
  | _ => false

/-- The RTSP thread is in `cleanupLive555()` of a failed set-up or behind it. -/
def RtspPoint.failed : RtspPoint → Bool
  | .cleanup _ true => true
  | .clearRunning => true
  | _ => false

/-- The RTSP thread has been launched and has not finished `cleanupLive555()`. -/
def RtspPoint.unfinished : RtspPoint → Bool
  | .clearRunning => false
  | .ended => false
  | _ => true

theorem Caller.holdsMutex_of_watchCleared {c : Caller} (h : c.watchCleared = true) :
    c.holdsMutex = true := by
  unfold Caller.watchCleared at h
  split at h
  all_goals first | rfl | cases h

/-- The thread left its event loop because of the watch variable. -/
theorem RtspStep.left {s t : State ι} (h : RtspStep s t)
    (ht : t.rtsp.loopLeft = true ∨ t.rtsp = .ended ∧ t.running_ = true) :
    s.rtsp.loopLeft = true ∨ s.eventLoopWatchVariable_ ≠ 0 := by
  cases h with
  | leaveLoop h hwatch => exact Or.inr hwatch
  | cleanup point failed h =>
    left
    cases failed with
    | false => rw [h]; rfl
    | true => cases point <;> simp [State.cleanupLive555, RtspPoint.loopLeft] at ht
  | _ => simp [RtspPoint.loopLeft] at ht

/-- Who stored and who cleared the watch variable. -/
structure Watched (s : State ι) : Prop where
  cleared : ∀ i, (s.callers i).watchCleared = true → s.eventLoopWatchVariable_ = 0
  ending : s.running_ = true → s.eventLoopWatchVariable_ ≠ 0 → ∃ i, (s.callers i).ending = true
  left : s.rtsp.loopLeft = true ∨ s.rtsp = .ended ∧ s.running_ = true →
    s.eventLoopWatchVariable_ ≠ 0 ∨ ∃ i, (s.callers i).watchCleared = true

namespace Watched

variable {s t : State ι}

theorem new : Watched (.new : State ι) where
  cleared _ h := by cases h
  ending h := by cases h
  left h := by simp [State.new, RtspPoint.loopLeft] at h

theorem rtsp (hs : Watched s) (h : RtspStep s t) : Watched t := by
  have hframe := h.frame
  constructor
  · simpa only [hframe.callers, hframe.watch] using hs.cleared
  · rw [hframe.callers, hframe.watch]
    intro hrunning
    rcases hframe.running with hsame | ⟨-, hclear, -⟩
    · exact hs.ending (hsame ▸ hrunning)
    · rw [hclear] at hrunning
      cases hrunning
  · rw [hframe.callers, hframe.watch]
    intro ht
    rcases h.left ht with hleft | hwatch
    · exact hs.left (Or.inl hleft)
    · exact Or.inl hwatch

/-- A caller inside another mutex section excludes a `start` that has cleared the variable. -/
theorem watchCleared_eq_false (ho : Owned s) {i : ι} (hi : (s.callers i).holdsMutex = true)
    (hclear : (s.callers i).watchCleared = false) (j : ι) : (s.callers j).watchCleared = false := by
  by_contra hj
  have hj : (s.callers j).watchCleared = true := by simpa using hj
  rw [ho.eq_of_holdsMutex hi (Caller.holdsMutex_of_watchCleared hj), hj] at hclear
  cases hclear

/-- A caller moves inside or outside a `start` that has cleared the variable, and does not come to
the end of a `stop`. -/
theorem goOn [DecidableEq ι] (hs : Watched s) {i : ι} {c : Caller}
    (hcallers : t.callers = (s.setCaller i c).callers)
    (hwatch : t.eventLoopWatchVariable_ = s.eventLoopWatchVariable_)
    (hrunning : t.running_ = s.running_) (hrtsp : t.rtsp = s.rtsp)
    (hcleared : c.watchCleared = (s.callers i).watchCleared)
    (hending : (s.callers i).ending = true → c.ending = true) : Watched t := by
  have hkept := State.see_setCaller (p := Caller.watchCleared) hcleared
  constructor
  · intro j
    rw [hcallers, hwatch, hkept j]
    exact hs.cleared j
  · rw [hcallers, hwatch, hrunning]
    intro hrun hset
    obtain ⟨j, hj⟩ := hs.ending hrun hset
    refine ⟨j, ?_⟩
    by_cases hji : j = i
    · subst hji
      simpa using hending hj
    · simpa [hji] using hj
  · rw [hcallers, hwatch, hrunning, hrtsp]
    exact fun h => (hs.left h).imp_right fun ⟨j, hj⟩ => ⟨j, (hkept j).trans hj⟩

/-- The variable is clear, and the caller that has cleared it is still inside its `start` or has
launched the RTSP thread. -/
theorem ofCleared (hwatch : s.eventLoopWatchVariable_ = 0)
    (h : s.rtsp = .createScheduler ∨ ∃ i, (s.callers i).watchCleared = true) : Watched s := by
  refine ⟨fun _ _ => hwatch, fun _ hset => absurd hwatch hset, fun hleft => Or.inr ?_⟩
  rcases h with hpoint | hcaller
  · simp [hpoint, RtspPoint.loopLeft] at hleft
  · exact hcaller

/-- **Every step keeps the watch variable accounted for.** -/
theorem transition [DecidableEq ι] (ho : Owned s) (hs : Watched s) {a : Action ι}
    (h : Transition s a t) : Watched t := by
  cases h with
  | startRunning => exact hs
  | startNext i point args hcall hpoint =>
    cases point with
    | clearWatch => exact ofCleared rfl (Or.inr ⟨i, by simp [State.startNext]; rfl⟩)
    | setRunning =>
      exact ofCleared (hs.cleared i (by rw [hcall]; rfl))
        (Or.inr ⟨i, by simp [State.startNext]; rfl⟩)
    | launch => exact absurd rfl hpoint
    | _ => exact hs.goOn rfl rfl rfl rfl (by rw [hcall]; rfl) (by rw [hcall]; intro h; cases h)
  | launch i args hcall hthread =>
    exact ofCleared (hs.cleared i (by rw [hcall]; rfl)) (Or.inl rfl)
  | setWatch i inDestructor hcall =>
    have hnone := watchCleared_eq_false ho (i := i) (by rw [hcall]; rfl) (by rw [hcall]; rfl)
    refine ⟨fun j hj => ?_, fun _ _ => ⟨i, by simp; rfl⟩, fun _ => Or.inl (by simp)⟩
    by_cases hji : j = i
    · simp [hji, Caller.watchCleared] at hj
    · simp [hji, hnone j] at hj
  | stopNotRunning i inDestructor hcall hfree hrunning =>
    exact hs.goOn rfl rfl rfl rfl (by rw [hcall]; cases inDestructor <;> rfl)
      (by rw [hcall]; intro h; cases h)
  | clearRunning i inDestructor hcall hfree =>
    have hkept := State.see_setCaller (p := Caller.watchCleared)
      (c := State.afterStop inDestructor)
      (by rw [hcall]; cases inDestructor <;> rfl : _ = (s.callers i).watchCleared)
    refine ⟨fun j hj => hs.cleared j ((hkept j).symm.trans hj),
      fun h => absurd h Bool.false_ne_true, fun h => ?_⟩
    exact (hs.left (h.imp_right fun h => absurd h.2 Bool.false_ne_true)).imp_right
      (Exists.imp fun j hj => (hkept j).trans hj)
  | launchCrash => exact { hs with }
  | joinTwice => exact { hs with }
  | joinCrash => exact { hs with }
  | destroyCrash => exact { hs with }
  | rtsp reply t h => exact hs.rtsp h
  | push => exact { hs with }
  | copyScheduler i _ hcall | copyTrigger i _ _ hcall | trigger i _ _ _ hcall
    | joinable i _ hcall | notJoinable i _ hcall | join i _ _ hcall | joined i _ _ hcall =>
    exact hs.goOn rfl rfl rfl rfl (by rw [hcall]; rfl) fun _ => rfl
  | start i _ hcall | stop i _ hcall | destroyMembers i hcall =>
    exact hs.goOn rfl rfl rfl rfl (by rw [hcall]; rfl) (by rw [hcall]; intro h; cases h)

/-- With the mutex free and no `stop` under way whose store still stands, a running service has an
RTSP thread that is not finished, in its set-up or its event loop, unless that set-up has failed. -/
theorem serving (ho : Owned s) (hs : Watched s) (hfree : s.mutex = none)
    (hrunning : s.running_ = true)
    (hnone : ∀ i, (s.callers i).ending = true → s.eventLoopWatchVariable_ = 0) :
    s.eventLoopWatchVariable_ = 0 ∧ s.rtsp ≠ .ended := by
  have hwatch : s.eventLoopWatchVariable_ = 0 := by
    by_contra hset
    obtain ⟨i, hi⟩ := hs.ending hrunning hset
    exact hset (hnone i hi)
  refine ⟨hwatch, fun hended => ?_⟩
  rcases hs.left (Or.inr ⟨hended, hrunning⟩) with hset | ⟨i, hi⟩
  · exact hset hwatch
  · have hheld := ho.holdsMutex_eq_false hfree i
    rw [Caller.holdsMutex_of_watchCleared hi] at hheld
    cases hheld

end Watched

/-! ## Every reachable state -/

/-- The owners and the watch variable together. -/
def Shared (s : State ι) : Prop := Owned s ∧ Watched s

namespace Shared

variable {s t : State ι}

theorem new : Shared (.new : State ι) := ⟨Owned.new, Watched.new⟩

variable [DecidableEq ι]

theorem transition (hs : Shared s) {a : Action ι} (h : Transition s a t) : Shared t :=
  ⟨hs.1.transition h, hs.2.transition hs.1 h⟩

theorem step (hs : Shared s) {a : Action ι} (h : (machine ι).step s a = some t) : Shared t :=
  hs.transition (Transition.of_step h).2

theorem reachable (h : (machine ι).Reachable s) : Shared s :=
  Machine.invariant (M := machine ι) new (fun _ _ _ hs ht => hs.step ht) h

end Shared

end RtspPush.Service
