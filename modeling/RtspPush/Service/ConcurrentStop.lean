import RtspPush.Service.Callers

/-!
# Stops at once

`stop` drops the mutex between its check of `running_` and the join, and tests `joinable()` and
calls `join()` in separate steps. Callers that overlap there join a thread that another one is
joining, or a handle that another one has emptied: `stops_as_one` says that this is the
only way. As to when the calls return, no overlap matters: with no `start` in between, a `stop`
returns when the RTSP thread has ended, or because another call has reset `running_` already.
-/

namespace RtspPush.Service

open Lib

variable {ι : Type}

/-! ## The calls of `join()` -/

/-- The caller is behind its `joinable()` test and not out of its `join()`. -/
def Caller.pastJoinable : Caller → Bool
  | .stopping .join _ => true
  | .stopping (.joining _) _ => true
  | _ => false

theorem Caller.pastJoinable_of_joins {c : Caller} (h : c.joins.isSome = true) :
    c.pastJoinable = true := by
  unfold Caller.joins at h
  split at h
  · rfl
  · cases h

/-- The handle on which the step calls `join()`. -/
def joinCall (s : State ι) : Action ι → List (Option Nat)
  | .continueCall i =>
    match s.callers i with
    | .stopping .join _ => [s.rtspThread_]
    | _ => []
  | _ => []

/-- The `running_` that the step resets at the end of a `stop`, by the caller of that. -/
def resetCall (s : State ι) : Action ι → List ι
  | .continueCall i =>
    match s.callers i with
    | .stopping .clearRunning _ => [i]
    | _ => []
  | _ => []

/-- The next step of `i` finds the handle joinable. -/
def PassesJoinable (s : State ι) (i : ι) : Prop :=
  s.rtspThread_.isSome = true ∧ ∃ d, s.callers i = .stopping .joinable d

/-- A `stop` passes its `joinable()` test while no other one is between its own and the end of its
`join()`. -/
def Alone (s : State ι) : Action ι → Prop
  | .continueCall i => PassesJoinable s i → ∀ j, j ≠ i → (s.callers j).pastJoinable = false
  | _ => True

/-- Nobody is inside `start`. -/
def NoStart (s : State ι) : Prop := ∀ i point args, s.callers i ≠ .starting point args

/-- The action is no call of `start`. -/
def Action.NotStart : Action ι → Prop
  | .start _ _ => False
  | _ => True

/-- The step with which a `stop` of `i` returns: its only one, or the last one. -/
def StopReturns (s t : State ι) (a : Action ι) (i : ι) : Prop :=
  (t.callers i = .outside ∨ t.callers i = .destroying) ∧
    ((∃ d, a = .stop i d) ∨ a = .continueCall i ∧ ∃ point d, s.callers i = .stopping point d)

variable [DecidableEq ι]

/-- In the whole run, every `join()` is called on a joinable handle, and on no thread twice. -/
def JoinsOnce (as : List (Action ι)) : Prop :=
  (∀ call ∈ (machine ι).observed joinCall .new as, call.isSome = true) ∧
    ((machine ι).observed joinCall .new as).Nodup

/-- What is known of the calls so far when each `stop` was alone: a thread that has been joined is
an earlier one, or out of the handle, or being joined. -/
structure Joined (calls : List (Option Nat)) (s : State ι) : Prop where
  isSome : ∀ call ∈ calls, call.isSome = true
  nodup : calls.Nodup
  earlier : ∀ thread, some thread ∈ calls → thread ≤ s.session
  handle : ∀ thread, some thread ∈ calls → s.rtspThread_ = some thread → s.joiner.isSome = true
  alone : ∀ i j, (s.callers i).pastJoinable = true → (s.callers j).pastJoinable = true → i = j
  join : ∀ i, (s.callers i).pastJoinable = true → s.rtspThread_.isSome = true

/-- A caller moves, and not behind its `joinable()` test. -/
theorem pastJoinable_of_setCaller {s : State ι} {i j : ι} {c : Caller}
    (hc : c.pastJoinable = false) (h : ((s.setCaller i c).callers j).pastJoinable = true) :
    j ≠ i ∧ (s.callers j).pastJoinable = true := by
  by_cases hji : j = i
  · simp [hji, hc] at h
  · exact ⟨hji, by simpa [hji] using h⟩

namespace Joined

variable {calls : List (Option Nat)} {s t : State ι}

omit [DecidableEq ι] in
theorem new : Joined [] (.new : State ι) where
  isSome _ h := by cases h
  nodup := List.nodup_nil
  earlier _ h := by cases h
  handle _ h := by cases h
  alone _ _ h := by cases h
  join _ h := by cases h

omit [DecidableEq ι] in
/-- A caller at its `join()` finds nobody in one. -/
theorem joiner_eq_none (hs : Owned s) (hj : Joined calls s) {i : ι} {d : Bool}
    (hcall : s.callers i = .stopping .join d) : s.joiner = none := by
  cases hjoiner : s.joiner with
  | none => rfl
  | some j =>
    have hjoins := (hs.joiner j).mp hjoiner
    obtain rfl := hj.alone i j (by rw [hcall]; rfl) (Caller.pastJoinable_of_joins hjoins)
    rw [hcall] at hjoins
    cases hjoins

omit [DecidableEq ι] in
/-- A step that calls no `join()`. -/
theorem of_no_call (hj : Joined calls s) (hsession : s.session ≤ t.session)
    (hhandle : ∀ thread, thread ≤ s.session → t.rtspThread_ = some thread →
      s.rtspThread_ = some thread ∧ (s.joiner.isSome = true → t.joiner.isSome = true))
    (halone : ∀ i j, (t.callers i).pastJoinable = true → (t.callers j).pastJoinable = true → i = j)
    (hjoin : ∀ i, (t.callers i).pastJoinable = true → t.rtspThread_.isSome = true) :
    Joined calls t where
  isSome := hj.isSome
  nodup := hj.nodup
  earlier thread h := Nat.le_trans (hj.earlier thread h) hsession
  handle thread h ht := by
    obtain ⟨hs, hkept⟩ := hhandle thread (hj.earlier thread h) ht
    exact hkept (hj.handle thread h hs)
  alone := halone
  join := hjoin

/-- The call of `join()` by the only caller that can make one. -/
theorem call (hs : Owned s) (hj : Joined calls s) {i : ι} {d : Bool} {thread : Nat}
    (hcall : s.callers i = .stopping .join d) (hthread : s.rtspThread_ = some thread) :
    Joined (calls ++ [some thread])
      { s.setCaller i (.stopping (.joining thread) d) with joiner := some i } := by
  have hnew : some thread ∉ calls := by
    intro hmem
    have hbusy := hj.handle thread hmem hthread
    simp [hj.joiner_eq_none hs hcall] at hbusy
  have hmem (thread' : Nat) (h : some thread' ∈ calls ++ [some thread]) :
      some thread' ∈ calls ∨ thread' = thread := by simpa using h
  refine
    { isSome := ?_
      nodup := ?_
      earlier := ?_
      handle := fun _ _ _ => rfl
      alone := ?_
      join := fun _ _ => by simp [hthread] }
  · intro call h
    rcases List.mem_append.mp h with h | h
    · exact hj.isSome call h
    · obtain rfl := List.mem_singleton.mp h
      rfl
  · refine List.nodup_append.mpr ⟨hj.nodup, by simp, ?_⟩
    rintro call h _ hlast rfl
    exact hnew (List.mem_singleton.mp hlast ▸ h)
  · intro thread' h
    rcases hmem thread' h with h | rfl
    · exact hj.earlier thread' h
    · exact Nat.le_of_eq (hs.latest thread' hthread)
  · have hkept := State.see_setCaller (p := Caller.pastJoinable)
      (c := .stopping (.joining thread) d) (by rw [hcall]; rfl : _ = (s.callers i).pastJoinable)
    intro j k hpastj hpastk
    exact hj.alone j k ((hkept j).symm.trans hpastj) ((hkept k).symm.trans hpastk)

/-- A caller moves, and not behind its `joinable()` test. -/
theorem goOn (hj : Joined calls s) {i : ι} {c : Caller}
    (hcallers : t.callers = (s.setCaller i c).callers) (hthread : t.rtspThread_ = s.rtspThread_)
    (hjoiner : t.joiner = s.joiner) (hsession : t.session = s.session)
    (hc : c.pastJoinable = false) : Joined calls t := by
  have hold (j : ι) (h : (t.callers j).pastJoinable = true) :
      (s.callers j).pastJoinable = true := by
    rw [hcallers] at h
    exact (pastJoinable_of_setCaller hc h).2
  refine hj.of_no_call (Nat.le_of_eq hsession.symm) ?_
    (fun j k hpastj hpastk => hj.alone j k (hold j hpastj) (hold k hpastk)) fun j hpast => ?_
  · rw [hthread, hjoiner]
    exact fun _ _ h => ⟨h, id⟩
  · rw [hthread]
    exact hj.join j (hold j hpast)

theorem transition (hs : Owned s) (hj : Joined calls s) {a : Action ι} (hP : Alone s a)
    (h : Transition s a t) : Joined (calls ++ joinCall s a) t := by
  cases h with
  | startRunning => simpa [joinCall] using hj
  | startNext i point args hcall hpoint =>
    simp only [joinCall, hcall, List.append_nil]
    cases point with
    | launch => exact absurd rfl hpoint
    | _ => exact hj.goOn rfl rfl rfl rfl rfl
  | launch i args hcall hthread =>
    simp only [joinCall, hcall, List.append_nil]
    have hout : Joined calls (s.setCaller i .outside) := hj.goOn rfl rfl rfl rfl rfl
    refine hj.of_no_call (Nat.le_succ _) (fun thread hle hnew => ?_) hout.alone fun _ _ => rfl
    obtain rfl := Option.some.inj hnew
    exact absurd hle (Nat.not_succ_le_self _)
  | stopNotRunning i inDestructor =>
    simp only [joinCall, List.append_nil]
    exact hj.goOn rfl rfl rfl rfl (by cases inDestructor <;> rfl)
  | joinable i inDestructor hcall hthread =>
    have hothers := hP ⟨hthread, inDestructor, hcall⟩
    have hself (j : ι) (hpast : ((s.setCaller i (.stopping .join inDestructor)).callers
        j).pastJoinable = true) : j = i := by
      by_contra hji
      simp [hji, hothers j hji] at hpast
    simp only [joinCall, hcall, List.append_nil]
    exact hj.of_no_call (Nat.le_refl _) (fun _ _ h => ⟨h, id⟩)
      (fun j k hpastj hpastk => (hself j hpastj).trans (hself k hpastk).symm) fun _ _ => hthread
  | joined i inDestructor thread hcall hended =>
    simp only [joinCall, hcall, List.append_nil]
    have hout : Joined calls (s.setCaller i (.stopping .clearRunning inDestructor)) :=
      hj.goOn rfl rfl rfl rfl rfl
    refine hj.of_no_call (Nat.le_refl _) (fun _ _ h => by cases h) hout.alone fun j hpast => ?_
    obtain ⟨hji, hold⟩ := pastJoinable_of_setCaller rfl hpast
    exact absurd (hj.alone j i hold (by rw [hcall]; rfl)) hji
  | join i inDestructor thread hcall hthread =>
    simp only [joinCall, hcall, hthread]
    exact hj.call hs hcall hthread
  | joinTwice i inDestructor thread hcall hthread hbusy =>
    simp [hj.joiner_eq_none hs hcall] at hbusy
  | joinCrash i inDestructor hcall hthread =>
    have hsome := hj.join i (by rw [hcall]; rfl)
    simp [hthread] at hsome
  | clearRunning i inDestructor hcall =>
    simp only [joinCall, hcall, List.append_nil]
    exact hj.goOn rfl rfl rfl rfl (by cases inDestructor <;> rfl)
  | rtsp reply t h =>
    have hframe := h.frame
    refine (List.append_nil calls).symm ▸ hj.of_no_call
      (Nat.le_of_eq hframe.session.symm) ?_ ?_ ?_
    · rw [hframe.rtspThread, hframe.joiner]
      exact fun _ _ h => ⟨h, id⟩
    · rw [hframe.callers]
      exact hj.alone
    · rw [hframe.callers, hframe.rtspThread]
      exact hj.join
  | push =>
    simp only [joinCall, List.append_nil]
    exact { hj with }
  | launchCrash i _ hcall | destroyCrash i hcall =>
    simp only [joinCall, hcall, List.append_nil]
    exact { hj with }
  | _ =>
    simp only [joinCall, *, List.append_nil]
    exact hj.goOn rfl rfl rfl rfl rfl

end Joined

/-! ## Overlapping calls -/

/-- A caller is at its `join()`, and another one is behind its `joinable()` test too or has emptied
the handle; nobody can fill it again. -/
structure Overlapping (s : State ι) : Prop where
  noStart : NoStart s
  caller : ∃ i d, s.callers i = .stopping .join d ∧
    (s.rtspThread_ = none ∨ ∃ j, j ≠ i ∧ (s.callers j).pastJoinable = true)

/-- Without a `start` none comes under way. -/
theorem NoStart.transition {s t : State ι} (hs : NoStart s) {a : Action ι} (ha : a.NotStart)
    (h : Transition s a t) : NoStart t := by
  intro j point args hj
  have hbefore := hs j point args
  cases h with
  | startRunning => exact hbefore hj
  | start => exact ha
  | startNext i point args hcall => exact hs i point args hcall
  | stopNotRunning i inDestructor | clearRunning i inDestructor =>
    exact hbefore (State.callers_of_setCaller hj (by cases inDestructor <;> nofun))
  | rtsp reply t h => exact hbefore (h.frame.callers ▸ hj)
  | launchCrash => exact hbefore hj
  | joinTwice => exact hbefore hj
  | joinCrash => exact hbefore hj
  | destroyCrash => exact hbefore hj
  | push => exact hbefore hj
  | _ => exact hbefore (State.callers_of_setCaller hj nofun)

namespace Overlapping

variable {s t : State ι}

omit [DecidableEq ι] in
/-- With nobody inside `join()`, who is behind the test is at the call. -/
theorem at_join (hs : Owned s) (hfree : s.joiner = none) {i : ι}
    (h : (s.callers i).pastJoinable = true) : ∃ d, s.callers i = .stopping .join d := by
  unfold Caller.pastJoinable at h
  split at h
  · next d hcall => exact ⟨d, hcall⟩
  · next thread d hcall =>
    rw [(hs.joiner i).mpr (by rw [hcall]; rfl)] at hfree
    cases hfree
  · cases h

/-- A caller moves that is not at its `join()`, and stays behind its test if it was. -/
theorem goOn (ho : Overlapping s) (hnone : NoStart t) {j : ι} {c : Caller}
    (hcallers : t.callers = (s.setCaller j c).callers) (hthread : t.rtspThread_ = s.rtspThread_)
    (hcall : ∀ d, s.callers j ≠ .stopping .join d)
    (hpast : (s.callers j).pastJoinable = true → c.pastJoinable = true) : Overlapping t := by
  obtain ⟨i, d, hi, hother⟩ := ho.caller
  have hij : i ≠ j := by
    rintro rfl
    exact hcall d hi
  refine ⟨hnone, i, d, by simpa [hcallers, hij] using hi, ?_⟩
  rw [hthread, hcallers]
  refine hother.imp_right fun ⟨k, hk, hkpast⟩ => ⟨k, hk, ?_⟩
  by_cases hkj : k = j
  · subst hkj
    simpa using hpast hkpast
  · simpa [hkj] using hkpast

theorem transition (hs : Owned s) (ho : Overlapping s) {a : Action ι} (ha : a.NotStart)
    (h : Transition s a t) : Overlapping t := by
  have hnone := ho.noStart.transition ha h
  obtain ⟨i, d, hi, hother⟩ := ho.caller
  cases h with
  | startRunning => exact ho
  | start => exact ha.elim
  | startNext j point args hcall => exact absurd hcall (ho.noStart j point args)
  | launch j args hcall => exact absurd hcall (ho.noStart j _ args)
  | join j d' thread hcall hthread hfree =>
    by_cases hij : j = i
    · -- the caller goes in, and the other one is left at the call
      subst hij
      obtain ⟨k, hk, hpast⟩ := hother.resolve_left (by simp [hthread])
      obtain ⟨d'', hkcall⟩ := at_join hs hfree hpast
      exact ⟨hnone, k, d'', by simpa [hk] using hkcall,
        Or.inr ⟨j, hk.symm, by simp [Caller.pastJoinable]⟩⟩
    · exact ⟨hnone, i, d, by simpa [Ne.symm hij] using hi,
        Or.inr ⟨j, hij, by simp [Caller.pastJoinable]⟩⟩
  | joined j d' thread hcall hended =>
    have hij : i ≠ j := by
      rintro rfl
      rw [hi] at hcall
      cases hcall
    exact ⟨hnone, i, d, by simpa [hij] using hi, Or.inl rfl⟩
  | rtsp reply t h =>
    refine ⟨hnone, ?_⟩
    rw [h.frame.callers, h.frame.rtspThread]
    exact ho.caller
  | launchCrash => exact { ho with }
  | joinTwice => exact { ho with }
  | joinCrash => exact { ho with }
  | destroyCrash => exact { ho with }
  | push => exact { ho with }
  | joinable j d' hcall hthread =>
    exact ho.goOn hnone rfl rfl (by rw [hcall]; nofun) fun _ => rfl
  | stop j _ hcall | stopNotRunning j _ hcall | setWatch j _ hcall | copyScheduler j _ hcall
    | copyTrigger j _ _ hcall | trigger j _ _ _ hcall | notJoinable j _ hcall
    | clearRunning j _ hcall | destroyMembers j hcall =>
    exact ho.goOn hnone rfl rfl (by rw [hcall]; nofun) (by rw [hcall]; nofun)

/-- A `stop` that was not alone behind its test. -/
theorem of_not_alone (hnone : NoStart s) {a : Action ι} (hP : ¬ Alone s a)
    (h : Transition s a t) : Overlapping t := by
  cases a with
  | continueCall i =>
    obtain ⟨⟨hthread, d, hcall⟩, hother⟩ := Classical.not_imp.mp hP
    push Not at hother
    obtain ⟨j, hj, hpast⟩ := hother
    refine ⟨hnone.transition (a := .continueCall i) trivial h, ?_⟩
    cases h with
    | joinable _ d' =>
      refine ⟨i, d', by simp, Or.inr ⟨j, hj, ?_⟩⟩
      simpa [hj] using hpast
    | _ => simp_all
  | start | stop | rtsp | push => exact absurd trivial hP

/-- Somebody stays in his call: a run without `start` never comes to its end from here. -/
theorem exec (hs : Owned s) (ho : Overlapping s) {as : List (Action ι)}
    (has : ∀ a ∈ as, a.NotStart) (h : (machine ι).exec s as = some t) : Overlapping t := by
  have hstep : ∀ s a t, Owned s ∧ Overlapping s → a.NotStart → (machine ι).step s a = some t →
      Owned t ∧ Overlapping t := by
    rintro s a t ⟨hs, ho⟩ ha ht
    have h := (Transition.of_step ht).2
    exact ⟨hs.transition h, ho.transition hs ha h⟩
  exact (Machine.invariant_along hstep ⟨hs, ho⟩ ((Machine.along_iff_forall h).mpr has) h).2

end Overlapping

/-! ## The return of a `stop` -/

/-- The RTSP thread has ended, or a call of another one than `i` has reset `running_`. -/
def EndedOrReset (i : ι) (resets : List ι) (s : State ι) : Prop :=
  s.rtsp = .ended ∨ ∃ k ∈ resets, k ≠ i

omit [DecidableEq ι] in
theorem EndedOrReset.append {i : ι} {resets : List ι} {s t : State ι}
    (h : EndedOrReset i resets s) (ht : s.rtsp = .ended → t.rtsp = .ended) (more : List ι) :
    EndedOrReset i (resets ++ more) t :=
  h.imp ht fun ⟨k, hk, hki⟩ => ⟨k, List.mem_append_left more hk, hki⟩

/-- What holds along a run without `start` from a state with `running_` set, for a caller `i` that
was outside there: if `running_` is reset, it is known by whom, and `i` itself does so only when
the RTSP thread has ended. -/
structure Stopping (i : ι) (resets : List ι) (s : State ι) : Prop where
  noStart : NoStart s
  running : s.running_ = true ∨ EndedOrReset i resets s
  clearRunning : ∀ d, s.callers i = .stopping .clearRunning d → s.rtsp = .ended

namespace Stopping

variable {i : ι} {resets : List ι} {s t : State ι}

theorem transition (hs : Owned s) (hr : Stopping i resets s) {a : Action ι} (ha : a.NotStart)
    (h : Transition s a t) : Stopping i (resets ++ resetCall s a) t := by
  refine ⟨hr.noStart.transition ha h, ?_, ?_⟩
  · have hnone := hr.noStart
    cases h with
    | start => exact ha.elim
    | startNext j point args hcall => exact absurd hcall (hnone j point args)
    | launch j args hcall => exact absurd hcall (hnone j _ args)
    | clearRunning j d hcall hfree =>
      right
      by_cases hji : j = i
      · subst hji
        exact Or.inl (hr.clearRunning d hcall)
      · exact Or.inr ⟨j, by simp [resetCall, hcall], hji⟩
    | rtsp reply t h =>
      have hframe := h.frame
      rcases hframe.running with hsame | ⟨-, -, hended⟩
      · rw [hsame]
        exact hr.running.imp_right (·.append (fun hended => absurd hended hframe.live) _)
      · exact Or.inr (Or.inl hended)
    | _ => exact hr.running.imp_right (·.append id _)
  · have hclear := hr.clearRunning
    intro d hi
    cases h with
    | startRunning => exact hclear d hi
    | start => exact ha.elim
    | startNext j point args hcall => exact absurd hcall (hr.noStart j point args)
    | launch j args hcall => exact absurd hcall (hr.noStart j _ args)
    | notJoinable j d' hcall hthread => exact hs.ended_of_handle hthread
    | joined j d' thread hcall hended => exact hs.ended_of_joined hcall hended
    | stopNotRunning j d' | clearRunning j d' =>
      exact hclear d (State.callers_of_setCaller hi (by cases d' <;> nofun))
    | rtsp reply t h =>
      rw [h.frame.callers] at hi
      exact absurd (hclear d hi) h.frame.live
    | launchCrash => exact hclear d hi
    | joinTwice => exact hclear d hi
    | joinCrash => exact hclear d hi
    | destroyCrash => exact hclear d hi
    | push => exact hclear d hi
    | _ => exact hclear d (State.callers_of_setCaller hi nofun)

/-- What `stop` finds when it returns. -/
theorem endedOrReset (hr : Stopping i resets s) {a : Action ι}
    (h : Transition s a t) (hreturn : StopReturns s t a i) : EndedOrReset i resets s := by
  obtain ⟨hout, ⟨d, rfl⟩ | ⟨rfl, point, d, hcall⟩⟩ := hreturn
  · cases h with
    | stopNotRunning _ _ hcall hfree hrunning =>
      exact hr.running.resolve_left (by simp [hrunning])
    | stop => simp at hout
  · cases h with
    | clearRunning _ d' hcall => exact Or.inl (hr.clearRunning d' hcall)
    | _ => simp_all

end Stopping

/-! ## Whole runs -/

theorem joinsOnce_of_alone {as : List (Action ι)} (hP : (machine ι).Along Alone .new as) :
    JoinsOnce as := by
  have hstep : ∀ h s a t, Shared s ∧ Joined h s → Alone s a → (machine ι).step s a = some t →
      Shared t ∧ Joined (h ++ joinCall s a) t := by
    rintro h s a t ⟨hs, hj⟩ ha ht
    exact ⟨hs.step ht, hj.transition hs.1 ha (Transition.of_step ht).2⟩
  obtain ⟨t, ⟨-, hj⟩, -⟩ :=
    Machine.invariant_observed (M := machine ι) hstep ⟨Shared.new, Joined.new⟩ hP
  exact ⟨hj.isSome, hj.nodup⟩

section

variable {s t : State ι} {as : List (Action ι)}

theorem alone_of_over (hs : (machine ι).Reachable s) (hnone : NoStart s)
    (has : ∀ a ∈ as, a.NotStart) (hrun : (machine ι).exec s as = some t)
    (hover : ∀ i, t.callers i = .outside ∨ t.callers i = .gone) :
    (machine ι).Along Alone s as := by
  by_contra hnot
  obtain ⟨bs, a, cs, u, v, rfl, hu, -, ha, hv, hend⟩ := Machine.exists_step_of_not_along hnot hrun
  have hnot : NoStart u :=
    Machine.invariant_along (P := fun _ a => a.NotStart)
      (fun _ _ _ hI ha ht => hI.transition ha (Transition.of_step ht).2) hnone
      ((Machine.along_iff_forall hu).mpr fun a ha => has a (List.mem_append_left _ ha)) hu
  have hov := Overlapping.of_not_alone hnot ha (Transition.of_step hv).2
  have howned := (Shared.reachable ((hs.exec hu).step hv)).1
  obtain ⟨i, d, hi, -⟩ := (hov.exec howned
    (fun a ha => has a (List.mem_append_right _ (List.mem_cons_of_mem _ ha))) hend).caller
  rcases hover i with h | h
  · simp [hi] at h
  · simp [hi] at h

theorem returns_endedOrReset (hs : (machine ι).Reachable s) (hnone : NoStart s)
    (has : ∀ a ∈ as, a.NotStart) (hrun : (machine ι).exec s as = some t)
    (hrunning : s.running_ = true) {i : ι} (hout : s.callers i = .outside) {a : Action ι}
    {u : State ι} (hu : (machine ι).step t a = some u) (hreturn : StopReturns t u a i) :
    EndedOrReset i ((machine ι).observed resetCall s as) t := by
  have hstep : ∀ h s a t, Shared s ∧ Stopping i h s → a.NotStart →
      (machine ι).step s a = some t → Shared t ∧ Stopping i (h ++ resetCall s a) t := by
    rintro h s a t ⟨hs, hr⟩ ha ht
    exact ⟨hs.step ht, hr.transition hs.1 ha (Transition.of_step ht).2⟩
  have hfirst : Stopping i [] s := ⟨hnone, Or.inl hrunning, fun d h => by simp [hout] at h⟩
  have hend := Machine.invariant_observed_exec (P := fun _ a => a.NotStart) hstep
    ⟨Shared.reachable hs, hfirst⟩ ((Machine.along_iff_forall hrun).mpr has) hrun
  exact hend.2.endedOrReset (Transition.of_step hu).2 hreturn

end

/-- **Stops at once.** In every run of any number of callers in which each `stop` is alone between
its `joinable()` test and the end of its `join()`, no thread is joined twice and no handle that is
not joinable; and from a state in which nobody is inside `start` or calls it again, a run in which
every call comes to its end has no other way. On any such run from a running service, a `stop`
returns when the RTSP thread has ended or another call has reset `running_`. -/
theorem stops_as_one :
    (∀ as : List (Action ι), (machine ι).Along Alone .new as → JoinsOnce as) ∧
      ∀ s : State ι, (machine ι).Reachable s → NoStart s →
        ∀ as t, (∀ a ∈ as, a.NotStart) → (machine ι).exec s as = some t →
          ((∀ i, t.callers i = .outside ∨ t.callers i = .gone) → (machine ι).Along Alone s as) ∧
          (s.running_ = true → ∀ i, s.callers i = .outside → ∀ a u, (machine ι).step t a = some u →
            StopReturns t u a i → EndedOrReset i ((machine ι).observed resetCall s as) t) := by
  refine ⟨fun as hP => joinsOnce_of_alone hP, fun s hs hnone as t has hrun => ⟨?_, ?_⟩⟩
  · exact alone_of_over hs hnone has hrun
  · intro hrunning i hout a u hu hreturn
    exact returns_endedOrReset hs hnone has hrun hrunning hout hu hreturn

/-- Two threads pass the `joinable()` test of `stop` before either calls `join()`. -/
def overlappingStops : List (Action Bool) :=
  let enter (i : Bool) : List (Action Bool) :=
    .stop i false :: List.replicate 4 (.continueCall i)
  Action.start true ⟨8554, "live", "", ""⟩ :: List.replicate 5 (Action.continueCall true) ++
    List.replicate 8 (Action.rtsp ⟨true, 1, some "rtsp://127.0.0.1:8554/live", 0⟩) ++
    enter true ++ enter false ++
    [Action.continueCall true, .continueCall false, .continueCall true, .continueCall false]

/-- Both join the same thread. -/
theorem overlapping_stops_join_twice : ¬ JoinsOnce overlappingStops := by
  rintro ⟨-, hnodup⟩
  have hcalls : (machine Bool).observed joinCall .new overlappingStops = [some 1, some 1] := rfl
  simp [hcalls] at hnodup

end RtspPush.Service
