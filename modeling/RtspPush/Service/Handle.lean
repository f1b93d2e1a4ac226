import RtspPush.Service.Session

/-!
# When the thread handle is overwritten or destroyed while joinable

`rtspThread_` stays joinable until `stop` joins it, and `stop` joins only when it finds `running_`
set. The RTSP thread clears `running_` itself at the end of a failed set-up. If a `stop` is
already past its check by then, it joins; otherwise nobody will, and the next `start` or the
destructor ends the program. `handle_intact_iff` says that this is the only way to get there:
`Guarded` is the condition on the store, `Intact` what it preserves, `Doomed` what its breach
leads to.
-/

namespace RtspPush.Service

open Lib

/-- The store `running_ = false` of a failed set-up finds a `stop` past its check of `running_`
that has not joined yet. -/
def Guarded (s : State Unit) : Action Unit → Prop
  | .rtsp _ => s.rtsp = .clearRunning → (s.callers ()).toJoin = true
  | _ => True

/-- No joinable handle has been assigned or destroyed, and nobody has joined one that is not. -/
def NoCrash (s : State Unit) : Prop := s.crashed = none

/-- A joinable handle is one that `start` will not assign and `stop` will join: the caller is
outside and `running_` is set, or the caller is in a `stop` before the join. -/
structure Intact (s : State Unit) : Prop where
  noCrash : NoCrash s
  joinable : s.rtspThread_.isSome = true →
    (s.callers () = .outside ∧ s.running_ = true) ∨ (s.callers ()).toJoin = true

namespace Intact

variable {s t : State Unit}

theorem new : Intact .new := ⟨rfl, fun h => by cases h⟩

/-- A caller that is neither outside nor about to join finds no thread in the handle. -/
theorem rtspThread_eq_none (hi : Intact s) (houtside : s.callers () ≠ .outside)
    (hjoin : (s.callers ()).toJoin = false) : s.rtspThread_ = none := by
  by_contra hthread
  rcases hi.joinable (Option.isSome_iff_ne_none.mpr hthread) with ⟨hcall, -⟩ | h
  · exact houtside hcall
  · rw [hjoin] at h
    cases h

theorem transition (hs : Held s) (hi : Intact s) {a : Action Unit} (hP : Guarded s a)
    (h : Transition s a t) : Intact t := by
  cases h with
  | startRunning => exact hi
  | start i args hcall hfree hrunning =>
    refine ⟨hi.noCrash, fun hthread => ?_⟩
    have := hi.joinable hthread
    simp [hcall, hrunning, Caller.toJoin] at this
  | startNext i point args hcall hpoint =>
    have hnone := hi.rtspThread_eq_none (by simp [hcall]) (by simp [hcall, Caller.toJoin])
    cases point with
    | launch => exact absurd rfl hpoint
    | _ => exact ⟨hi.noCrash, fun hthread => by simp [State.startNext, hnone] at hthread⟩
  | launch i args hcall hthread =>
    exact ⟨hi.noCrash, fun _ => Or.inl ⟨by simp, hs.launch args hcall⟩⟩
  | launchCrash i args hcall hthread =>
    have hnone := hi.rtspThread_eq_none (by simp [hcall]) (by simp [hcall, Caller.toJoin])
    simp [hnone] at hthread
  | stopNotRunning i inDestructor hcall hfree hrunning =>
    refine ⟨hi.noCrash, fun hthread => ?_⟩
    have := hi.joinable hthread
    simp [hcall, hrunning, Caller.toJoin] at this
  | joinCrash i inDestructor hcall hthread =>
    exact absurd hthread (hs.rtspThread_ne_none (by rw [hcall]; rfl))
  | joinTwice i inDestructor thread hcall hthread hjoiner =>
    simp [hs.joiner (by simp [hcall])] at hjoiner
  | notJoinable i inDestructor hcall hthread =>
    exact ⟨hi.noCrash, fun hsome => by simp [hthread] at hsome⟩
  | joined => exact ⟨hi.noCrash, fun hthread => by cases hthread⟩
  | clearRunning i inDestructor hcall hfree =>
    have hnone := hi.rtspThread_eq_none (by simp [hcall]) (by simp [hcall, Caller.toJoin])
    exact ⟨hi.noCrash, fun hthread => by simp [hnone] at hthread⟩
  | destroyMembers i hcall hthread =>
    exact ⟨hi.noCrash, fun hsome => by simp [hthread] at hsome⟩
  | destroyCrash i hcall hthread =>
    have hnone := hi.rtspThread_eq_none (by simp [hcall]) (by simp [hcall, Caller.toJoin])
    simp [hnone] at hthread
  | rtsp reply t h =>
    have hframe := h.frame
    refine ⟨hframe.crashed.trans hi.noCrash, fun hthread => ?_⟩
    rw [hframe.rtspThread] at hthread
    rw [hframe.callers]
    rcases hframe.running with hsame | ⟨hstore, -, -⟩
    · rw [hsame]
      exact hi.joinable hthread
    · exact Or.inr (hP hstore)
  | push => exact ⟨hi.noCrash, hi.joinable⟩
  | _ => exact ⟨hi.noCrash, fun _ => Or.inr (by simp [Caller.toJoin])⟩

end Intact

/-- Nobody will join the thread in the handle any more: `running_` is cleared and the caller is
outside, or in a `start`, or in the destructor behind its `stop`. -/
structure Doomed (s : State Unit) : Prop where
  joinable : s.rtspThread_.isSome = true
  ended : s.rtsp = .ended
  caller : (s.callers () = .outside ∧ s.running_ = false) ∨
    (∃ point args, s.callers () = .starting point args) ∨ s.callers () = .destroying

namespace Doomed

variable {s t : State Unit}

/-- From there every step leads to a crash or stays there. -/
theorem transition (hd : Doomed s) {a : Action Unit} (h : Transition s a t) :
    Doomed t ∨ ¬ NoCrash t := by
  have hjoinable := hd.joinable
  have hended := hd.ended
  have hcaller := hd.caller
  cases h with
  | startRunning => exact Or.inl hd
  | start i args => exact Or.inl ⟨hjoinable, hended, Or.inr (Or.inl ⟨.config, args, by simp⟩)⟩
  | startNext i point args hcall hpoint =>
    cases point with
    | launch => exact absurd rfl hpoint
    | _ =>
      exact Or.inl ⟨hjoinable, hended, Or.inr (Or.inl ⟨_, args, by simp [State.startNext]; rfl⟩)⟩
  | launch i args hcall hthread => simp [hthread] at hjoinable
  | stopNotRunning i inDestructor hcall hfree hrunning =>
    left
    refine ⟨hjoinable, hended, ?_⟩
    cases inDestructor <;> simp [State.afterStop, hrunning]
  | stop i inDestructor hcall hfree hrunning => simp [hcall, hrunning] at hcaller
  | destroyMembers i hcall hthread => simp [hthread] at hjoinable
  | rtsp reply t h => exact absurd hended h.frame.live
  | push => exact Or.inl ⟨hjoinable, hended, hcaller⟩
  | launchCrash => exact Or.inr (by simp [NoCrash])
  | joinTwice => exact Or.inr (by simp [NoCrash])
  | joinCrash => exact Or.inr (by simp [NoCrash])
  | destroyCrash => exact Or.inr (by simp [NoCrash])
  | _ => simp_all

/-- A failed set-up that clears `running_` with no `stop` under way. -/
theorem of_not_guarded (hs : Held s) (hi : Intact s) {a : Action Unit} (hP : ¬ Guarded s a)
    (h : Transition s a t) : Doomed t := by
  cases h with
  | rtsp reply t h =>
    obtain ⟨hstore, hjoin⟩ : s.rtsp = .clearRunning ∧ (s.callers ()).toJoin ≠ true := by
      simpa [Guarded] using hP
    have hframe := h.frame
    obtain ⟨hrunning, hthread⟩ := hs.live hframe.live
    obtain ⟨houtside, -⟩ := (hi.joinable (by simp [hthread])).resolve_right hjoin
    cases h with
    | clearRunning =>
      exact ⟨by simp [hthread], rfl, Or.inl ⟨houtside, rfl⟩⟩
    | _ => simp_all
  | _ => exact absurd trivial hP

/-- A doomed run that is over has crashed. -/
theorem run (hd : Doomed s) {as : List (Action Unit)} (h : (machine Unit).exec s as = some t) :
    Doomed t ∨ ¬ NoCrash t := by
  refine Machine.invariant_exec (M := machine Unit) (I := fun s => Doomed s ∨ ¬ NoCrash s)
    (fun s a t hs ht => ?_) (Or.inl hd) h
  obtain ⟨hcrashed, htransition⟩ := Transition.of_step ht
  exact transition (hs.resolve_right fun h => h hcrashed) htransition

end Doomed

/-- **The handle is safe exactly when every failed set-up is caught by a `stop`.** A run all of
whose steps are `Guarded` never assigns or destroys a joinable handle; and a run that is over,
with the destructor ended or the program terminated, and in which this never happened is
`Guarded` throughout. -/
theorem handle_intact_iff (as : List (Action Unit)) :
    ((machine Unit).Along Guarded .new as → (machine Unit).Throughout NoCrash .new as) ∧
      ∀ s, (machine Unit).exec .new as = some s → s.callers () = .gone ∨ ¬ NoCrash s →
        (machine Unit).Throughout NoCrash .new as → (machine Unit).Along Guarded .new as := by
  have hstep : ∀ s a t, Held s ∧ Intact s → Guarded s a → (machine Unit).step s a = some t →
      Held t ∧ Intact t :=
    Held.step_and fun _ _ _ hs hi hP _ h => hi.transition hs hP h
  constructor
  · intro hP bs hbs t ht
    exact (Machine.throughout_of_along hstep ⟨Held.new, Intact.new⟩ hP bs hbs t ht).2.noCrash
  · intro s hrun hover hsafe
    by_contra hnot
    obtain ⟨bs, a, cs, t, u, rfl, ht, hbs, ha, hu, hrest⟩ :=
      Machine.exists_step_of_not_along hnot hrun
    obtain ⟨hs, hi⟩ := Machine.invariant_along hstep ⟨Held.new, Intact.new⟩ hbs ht
    have hdoomed := Doomed.of_not_guarded hs hi ha (Transition.of_step hu).2
    have hend : NoCrash s := hsafe _ (List.prefix_refl _) s hrun
    have hgone : s.callers () = .gone := hover.resolve_right (not_not.mpr hend)
    have hcaller := ((hdoomed.run hrest).resolve_right (not_not.mpr hend)).caller
    simp [hgone] at hcaller

/-- A `start` whose RTSP thread cannot create its scheduler, with no `stop` meanwhile. -/
def failedStart : List (Action Unit) :=
  let args : StartArgs := ⟨8554, "live", "", ""⟩
  Action.start () args :: List.replicate 5 (Action.continueCall ()) ++
    List.replicate 9 (Action.rtsp ⟨false, 0, none, 0⟩)

/-- After a failed `start` the next `start` assigns a joinable handle, and with `stop` and the
destructor instead, a joinable handle is destroyed. -/
theorem failed_start_terminates :
    ((machine Unit).exec .new (failedStart ++ failedStart.take 6)).map State.crashed =
        some (some .assignedJoinable) ∧
      ((machine Unit).exec .new
        (failedStart ++ [.stop () false, .stop () true, .continueCall ()])).map State.crashed =
        some (some .destroyedJoinable) :=
  ⟨rfl, rfl⟩

end RtspPush.Service
