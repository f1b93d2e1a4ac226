import RtspPush.Delivery.Lossless
import RtspPush.Delivery.Request
import RtspPush.Queue.ParameterSets
import RtspPush.Queue.Timestamps

/-!
# What becomes of every NALU

Seen from the queue, a run of the system is a list of calls (`queueHistory`), whichever threads and
sources make them, and what the sources have taken is what its pops return. So every run of the
system has the history of `Lib.DropOldest`: `nalus_accounted` says for each NALU ever pushed whether
it has been handed over, and once, or where it went otherwise; `session_starts_fresh` that the
`clear` at the end of a session cuts the stream in two; and `handed_times_ordered` that the sinks
see the times of the pushes in order.
-/

namespace RtspPush.Delivery

open Lib

variable {ε : Type}

/-! ## The calls on the queue -/

namespace State

/-- The calls on the queue that a step makes. -/
def queueOps (s : State ε) : Event ε → List QueueOp
  | .act (.push _ data timestampUs) => [.pushAnnexBFrame data timestampUs]
  | .act .popNalu =>
    match s.call with
    | .delivering src => if (s.sources src).fIsCurrentlyAwaitingData then [.popNalu] else []
    | _ => []
  | .act .registerReader =>
    match s.call with
    | .constructing src =>
      [.registerReader (some (s.sources src).scheduler) (s.sources src).frameArrivedTrigger src]
    | _ => []
  | .act .unregisterReader =>
    match s.call with
    | .unregistering src => [.unregisterReader (s.sources src).frameArrivedTrigger]
    | _ => []
  | .act .clearQueue => [.clear]
  | _ => []

/-- What a step means to the queue: it makes these calls, and what they return is taken. -/
theorem queue_step [DecidableEq ε] {s t : State ε} {e : Event ε} (h : s.openStep e = some t) :
    t.frameQueue = s.frameQueue.run (s.queueOps e) ∧
      s.frameQueue.returnedBy (s.queueOps e) =
        ((s.requestEvents e).flatMap RequestEvent.taken).map Prod.snd := by
  cases e with
  | frameArrivedCallback src =>
    obtain ⟨-, rfl⟩ := frameArrivedCallback_iff.mp h
    exact ⟨rfl, rfl⟩
  | act a =>
    have hpop : a = .popNalu → s.popNalu = some t := fun ha => by subst ha; exact h
    cases Transition.of_step h with
    | pushNothing e data timestampUs hdata =>
      have hsame : (s.frameQueue.pushAnnexBFrame data timestampUs).1 = s.frameQueue := by
        rw [H264FrameQueue.pushAnnexBFrame_fst, H264FrameQueue.producedNalus_eq_nil_iff.mpr hdata]
        rfl
      exact ⟨hsame.symm, rfl⟩
    | push => exact ⟨rfl, rfl⟩
    | registerReader src hcall =>
      simp only [queueOps, hcall]
      exact ⟨rfl, by simp [requestEvents]; rfl⟩
    | unregisterReader src hcall =>
      simp only [queueOps, hcall]
      exact ⟨rfl, by simp [requestEvents]; rfl⟩
    | deliverNotAwaiting src hcall hawaiting =>
      simp [queueOps, hcall, hawaiting, requestEvents, hpop rfl, handing, H264FrameQueue.run,
        H264FrameQueue.returnedBy]
    | deliverEmpty src hcall hawaiting hfree hempty =>
      simp [queueOps, hcall, hawaiting, requestEvents, hpop rfl, handing, H264FrameQueue.run,
        H264FrameQueue.returnedBy, H264FrameQueue.apply, H264FrameQueue.returned,
        H264FrameQueue.popNalu, hempty]
    | popNalu src nalu rest hcall hawaiting hfree hqueue =>
      simp [queueOps, hcall, hawaiting, requestEvents, hpop rfl, handing, H264FrameQueue.run,
        H264FrameQueue.returnedBy, H264FrameQueue.apply, H264FrameQueue.returned,
        H264FrameQueue.popNalu, hqueue, RequestEvent.taken]
    | afterGetting _ _ hcall | deleteNoTrigger _ hcall | deleteEventTrigger _ hcall =>
      exact ⟨rfl, by
        simp [requestEvents, hcall, Call.source?, RequestEvent.taken, queueOps,
          H264FrameQueue.returnedBy]⟩
    | clearQueue => exact ⟨rfl, rfl⟩
    | _ => exact ⟨rfl, rfl⟩

end State

/-- The NALUs that a step pushes. -/
def Event.produced : Event ε → List Nalu
  | .act a => a.produced
  | .frameArrivedCallback _ => []

theorem State.flatMap_producedBy (s : State ε) (e : Event ε) :
    (s.queueOps e).flatMap H264FrameQueue.producedBy = e.produced := by
  cases e with
  | frameArrivedCallback src => rfl
  | act a =>
    cases a with
    | push e data timestampUs => exact List.append_nil _
    | popNalu =>
      simp only [State.queueOps]
      split
      · split <;> rfl
      · rfl
    | registerReader | unregisterReader =>
      simp only [State.queueOps]
      split <;> rfl
    | _ => rfl

/-! ## A run, seen from the queue -/

/-- The calls on the queue that a run makes, in the order of its mutex. -/
def queueHistory [DecidableEq ε] (as : List (Event ε)) : List QueueOp :=
  (openMachine ε).observed State.queueOps .new as

theorem returnedBy_append (q : H264FrameQueue) (first later : List QueueOp) :
    q.returnedBy (first ++ later) = q.returnedBy first ++ (q.run first).returnedBy later := by
  induction first generalizing q with
  | nil => rfl
  | cons op first ih =>
    rw [List.cons_append, H264FrameQueue.returnedBy, ih, H264FrameQueue.returnedBy,
      List.append_assoc]
    rfl

/-- **The queue lives through the calls of the run**; what these return is taken by the sources, and
what they produce is what the run pushes. -/
theorem queue_of_exec [DecidableEq ε] {as : List (Event ε)} {s t : State ε}
    (h : (openMachine ε).exec s as = some t) :
    t.frameQueue = s.frameQueue.run ((openMachine ε).observed State.queueOps s as) ∧
      s.frameQueue.returnedBy ((openMachine ε).observed State.queueOps s as) =
        (((openMachine ε).observed State.requestEvents s as).flatMap RequestEvent.taken).map
          Prod.snd ∧
      ((openMachine ε).observed State.queueOps s as).flatMap H264FrameQueue.producedBy =
        as.flatMap Event.produced := by
  induction as generalizing s with
  | nil =>
    cases h
    exact ⟨rfl, rfl, rfl⟩
  | cons e as ih =>
    obtain ⟨u, hu, hrun⟩ := Machine.exec_cons_iff.mp h
    obtain ⟨hqueue, htaken⟩ := State.queue_step hu
    obtain ⟨hqueues, htakens, hproduced⟩ := ih hrun
    rw [Machine.observed_cons hu, Machine.observed_cons hu]
    refine ⟨?_, ?_, ?_⟩
    · rw [H264FrameQueue.run_append, ← hqueue]
      exact hqueues
    · rw [returnedBy_append, htaken, ← hqueue, htakens, List.flatMap_append, List.map_append]
    · rw [List.flatMap_append, hproduced, State.flatMap_producedBy, List.flatMap_cons]

theorem State.inHand_eq (s : State ε) : s.inHand = s.handing.toList.map Prod.snd := by
  unfold State.inHand State.handing
  cases s.call <;> rfl

/-- **What has been handed over are the replies to what the pops of the queue returned**, up to the
one in hand. -/
theorem handed_of_exec [DecidableEq ε] {as : List (Event ε)} {s : State ε}
    (hrun : (openMachine ε).exec .new as = some s) :
    ∃ answered : List (Answer SourceId Request Nalu), s.handed = answered.map reply ∧
      answered.map Answer.item ++ s.inHand = H264FrameQueue.new.returnedBy (queueHistory as) := by
  obtain ⟨l, hl, haccounted⟩ := requests_accounted hrun
  obtain ⟨-, htaken, -⟩ := queue_of_exec hrun
  have hitems : l.taken.map Answer.item = H264FrameQueue.new.returnedBy (queueHistory as) := by
    have hdelivered := congrArg (List.map Prod.snd) (RequestLog.taken_eq hl)
    rw [List.map_map] at hdelivered
    exact hdelivered.trans htaken.symm
  refine ⟨l.answered, haccounted.handed, ?_⟩
  rw [← hitems, RequestLog.taken, List.map_append, s.inHand_eq, ← haccounted.in_hand]
  cases l.inHand <;> rfl

/-! ## Where every NALU goes -/

/-- **Every NALU is accounted for.** In every run of any encoder threads, sources and sessions,
number the pushed NALUs in the order of the pushes. What the sources have handed over, with the one
in hand, are replies to NALUs of increasing numbers, so none goes out twice or out of order; and a
NALU that is neither handed over nor in hand is queued, was removed by the `clear` at the end of a
session, or was dropped after the next 300 had been pushed and before any of these was taken. -/
theorem nalus_accounted [DecidableEq ε] {as : List (Event ε)} {s : State ε}
    (hrun : (openMachine ε).exec .new as = some s) :
    let h := H264FrameQueue.history (queueHistory as)
    (h.items = as.flatMap Event.produced ∧ h.queue.map Prod.snd = s.frameQueue.queue) ∧
      (∃ answered : List (Answer SourceId Request Nalu), s.handed = answered.map reply ∧
        answered.map Answer.item ++ s.inHand = (DropOldest.pops h.log).map Prod.snd) ∧
      (DropOldest.pops h.log).Pairwise (fun p p' => p.1 < p'.1) ∧
      (∀ p ∈ DropOldest.pops h.log, h.items[p.1]? = some p.2) ∧
      ∀ n, n < h.items.length →
        n ∈ h.queue.map Prod.fst ∨ n ∈ (DropOldest.pops h.log).map Prod.fst ∨
          .cleared n ∈ h.log ∨ DropOldest.Overflowed 300 h.log n := by
  intro h
  obtain ⟨hqueue, -, hproduced⟩ := queue_of_exec hrun
  obtain ⟨href, hitems, hpops⟩ := H264FrameQueue.run_history (queueHistory as)
  obtain ⟨answered, hhanded, htaken⟩ := handed_of_exec hrun
  have hs : DropOldest.Sound 300 h := DropOldest.run_sound (by decide) _
  refine ⟨⟨hitems.trans hproduced, ?_⟩, ⟨answered, hhanded, htaken.trans hpops.symm⟩,
    hs.increasing, fun p hp => hs.popped_items p.1 p.2 (DropOldest.mem_pops.mp hp),
    fun n hn => ?_⟩
  · rw [hqueue]
    exact href.queue.symm
  · rcases hs.queued_or_gone hn with hqueued | ⟨nalu, hpopped⟩ | hcleared | hover
    · exact Or.inl hqueued
    · exact Or.inr (Or.inl
        (List.mem_map.mpr ⟨(n, nalu), DropOldest.mem_pops.mpr hpopped, rfl⟩))
    · exact Or.inr (Or.inr (Or.inl hcleared))
    · exact Or.inr (Or.inr (Or.inr hover))

theorem nalus_accounted_nestedRun :
    ∃ s, (openMachine Unit).exec .new nestedRun = some s ∧
      ∃ answered : List (Answer SourceId Request Nalu), s.handed = answered.map reply ∧
        answered.map Answer.item ++ s.inHand =
          (DropOldest.pops (H264FrameQueue.history (queueHistory nestedRun)).log).map Prod.snd := by
  obtain ⟨s, hrun⟩ : ∃ s, (openMachine Unit).exec .new nestedRun = some s := ⟨_, rfl⟩
  exact ⟨s, hrun, (nalus_accounted hrun).2.1⟩

/-! ## Across sessions -/

/-- What a queue returns behind a `clear` was pushed behind it. -/
theorem returnedBy_clear (before after : List QueueOp) :
    ∃ later, H264FrameQueue.new.returnedBy (before ++ .clear :: after) =
        H264FrameQueue.new.returnedBy before ++ later ∧
      later.Sublist (after.flatMap H264FrameQueue.producedBy) := by
  obtain ⟨-, hitems, hpops⟩ := H264FrameQueue.run_history before
  obtain ⟨-, hitems', hpops'⟩ := H264FrameQueue.run_history (before ++ .clear :: after)
  obtain ⟨later, hlater, hsub⟩ := DropOldest.run_clear_pops H264FrameQueue.capacity_pos
    (before.flatMap H264FrameQueue.abstractOps)
    (after.flatMap H264FrameQueue.abstractOps)
  have hops : (before ++ .clear :: after).flatMap H264FrameQueue.abstractOps =
      before.flatMap H264FrameQueue.abstractOps ++
        .clear :: after.flatMap H264FrameQueue.abstractOps := by
    simp [H264FrameQueue.abstractOps]
  rw [H264FrameQueue.history, hops] at hitems' hpops'
  rw [H264FrameQueue.history] at hitems hpops
  refine ⟨later.map Prod.snd, ?_, ?_⟩
  · rw [← hpops', ← hpops, hlater, List.map_append]
  · rw [hitems', hitems, List.flatMap_append, List.drop_left, List.flatMap_cons] at hsub
    exact hsub

/-- What has been handed over stays so. -/
theorem prefix_of_handed [DecidableEq ε] {as : List (Event ε)} {s t : State ε}
    (h : (openMachine ε).exec s as = some t) : s.handed <+: t.handed := by
  refine Machine.invariant_exec (M := openMachine ε) (I := fun u => s.handed <+: u.handed)
    (fun u e v hu hv => hu.trans ?_) (List.prefix_refl s.handed) h
  cases e with
  | frameArrivedCallback src =>
    obtain ⟨-, rfl⟩ := State.frameArrivedCallback_iff.mp hv
    exact List.prefix_refl _
  | act a =>
    cases Transition.of_step hv with
    | afterGetting => exact List.prefix_append ..
    | _ => exact List.prefix_refl _

/-- At the `clear` no source is left, so nothing is in hand. -/
theorem inHand_of_clearing [DecidableEq ε] {s : State ε} (hw : s.Wired)
    (hphase : s.phase = .clearing) : s.inHand = [] := by
  unfold State.inHand
  split
  · next src nalu hcall =>
    have halive := hw.call_alive src (by rw [hcall]; rfl)
    rw [hw.no_source (by simp [hphase]) src] at halive
    cases halive
  · rfl

/-- **A session starts fresh.** Behind the `clear` at the end of a session, what the sources hand
over, with the one in hand, are replies to NALUs that were pushed behind it, each at most once and
in the order of these pushes, whatever was left over before. -/
theorem session_starts_fresh [DecidableEq ε] {bs cs : List (Event ε)} {s : State ε}
    (hrun : (openMachine ε).exec .new (bs ++ .act .clearQueue :: cs) = some s) :
    ∃ u, (openMachine ε).exec .new bs = some u ∧
      ∃ later : List (Answer SourceId Request Nalu), s.handed = u.handed ++ later.map reply ∧
        (later.map Answer.item ++ s.inHand).Sublist (cs.flatMap Event.produced) := by
  obtain ⟨u, hu, hrest⟩ := Machine.exec_append_iff.mp hrun
  obtain ⟨v, hv, hlater⟩ := Machine.exec_cons_iff.mp hrest
  obtain ⟨before, hbefore, hreturned⟩ := handed_of_exec hu
  obtain ⟨answered, hanswered, hall⟩ := handed_of_exec hrun
  obtain ⟨-, -, hproduced⟩ := queue_of_exec hlater
  have hops : queueHistory (bs ++ .act .clearQueue :: cs) =
      queueHistory bs ++ .clear :: (openMachine ε).observed State.queueOps v cs := by
    rw [queueHistory, Machine.observed_append hu, Machine.observed_cons hv]
    rfl
  obtain ⟨nalus, hsplit, hsub⟩ := returnedBy_clear (queueHistory bs)
    ((openMachine ε).observed State.queueOps v cs)
  have hphase : u.phase = .clearing := by
    cases Transition.of_step (show u.step .clearQueue = some v from hv) with
    | clearQueue hphase => exact hphase
  have hwired : u.Wired := Machine.invariant_exec (M := openMachine ε) (I := State.Wired)
    (fun _ _ _ hw h => hw.openStep h) State.Wired.new hu
  rw [inHand_of_clearing hwired hphase, List.append_nil] at hreturned
  rw [hops, hsplit, ← hreturned] at hall
  -- what had been handed over before is the front of what is handed over in the end
  have hfront : before.length ≤ answered.length := by
    have hlength := (prefix_of_handed hrest).length_le
    simpa [hbefore, hanswered] using hlength
  refine ⟨u, hu, answered.drop before.length, ?_, ?_⟩
  · obtain ⟨more, hmore⟩ := prefix_of_handed hrest
    have hdrop : more = s.handed.drop u.handed.length := by rw [← hmore, List.drop_left]
    rw [← hmore, hdrop, hanswered, hbefore, List.length_map, List.map_drop]
  · have hdrop := congrArg (List.drop before.length) hall
    rw [List.drop_append_of_le_length (by simpa using hfront),
      List.drop_append_of_le_length (by simp), ← List.map_drop, ← List.map_drop,
      List.drop_length, List.map_nil, List.nil_append] at hdrop
    rw [hdrop, ← hproduced]
    exact hsub

/-- A session in which nobody asks for the NALU that is pushed. -/
def unasked : List (Event Unit) :=
  [.act (.setupLive555 true true 1 true), .act (.push () (some [0, 0, 1, 0x65]) 7),
    .act (.unlock ()), .act .leaveEventLoop, .act .cleanupStopTrigger, .act .closeServer,
    .act .deleteScheduler]

/-- The next session, with a NALU and a request of its own. -/
def nextSession : List (Event Unit) :=
  [.act (.setupLive555 true true 1 true), .act (.push () (some [0, 0, 1, 0x41]) 9),
    .act (.unlock ()), .act (.construct 2), .act .registerReader,
    .act (.getNextFrame 0 100 50), .act .popNalu, .act .afterGetting]

theorem next_session_fresh :
    ∃ s, (openMachine Unit).exec .new (unasked ++ .act .clearQueue :: nextSession) = some s ∧
      s.handed = [⟨0, 1, 100, [0x41], 1, 0, ⟨0, 9⟩⟩] ∧
      ∃ u, (openMachine Unit).exec .new unasked = some u ∧
        ∃ later : List (Answer SourceId Request Nalu), s.handed = u.handed ++ later.map reply ∧
          (later.map Answer.item ++ s.inHand).Sublist (nextSession.flatMap Event.produced) := by
  obtain ⟨s, hrun, hhanded⟩ : ∃ s,
      (openMachine Unit).exec .new (unasked ++ .act .clearQueue :: nextSession) = some s ∧
        s.handed = [⟨0, 1, 100, [0x41], 1, 0, ⟨0, 9⟩⟩] := ⟨_, rfl, by decide⟩
  exact ⟨s, hrun, hhanded, session_starts_fresh hrun⟩

/-! ## The times at the sinks -/

/-- The times that the sources have handed over, and the one in hand. -/
def State.times (s : State ε) : List Timeval :=
  s.handed.map Handed.fPresentationTime ++ s.inHand.map Nalu.presentationTime

/-- The NALUs taken off a queue, each with the timestamp of its push, are a subsequence of those
pushed. -/
theorem exists_stamped (ops : List QueueOp) :
    ∃ taken : List (Nalu × UInt64), taken.map Prod.fst = H264FrameQueue.new.returnedBy ops ∧
      taken.Sublist (ops.flatMap H264FrameQueue.stamped) := by
  obtain ⟨-, hitems, hpops⟩ := H264FrameQueue.run_history ops
  have hsub := DropOldest.run_pops_sublist H264FrameQueue.capacity_pos
    (ops.flatMap H264FrameQueue.abstractOps)
  rw [← H264FrameQueue.history, hpops, hitems, ← H264FrameQueue.flatMap_stamped] at hsub
  obtain ⟨taken, htaken, heq⟩ := List.sublist_map_iff.mp hsub
  exact ⟨taken, heq.symm, htaken⟩

/-- **The sinks see the times of the pushes.** In every run, the NALUs that all sources hand over,
with the one in hand, are a subsequence of those pushed, each with the timestamp of its push; and
the presentation times handed over are these timestamps to the microsecond. So while the timestamps
of the pushes do not decrease, the times that the sinks see do not either. -/
theorem handed_times_ordered [DecidableEq ε] {as : List (Event ε)} {s : State ε}
    (hrun : (openMachine ε).exec .new as = some s) :
    (∃ (answered : List (Answer SourceId Request Nalu)) (taken : List (Nalu × UInt64)),
      s.handed = answered.map reply ∧
      answered.map Answer.item ++ s.inHand = taken.map Prod.fst ∧
      taken.Sublist ((queueHistory as).flatMap H264FrameQueue.stamped) ∧
      s.times = taken.map (fun p => H264FrameQueue.timestampToTimeval p.2) ∧
      ∀ p ∈ taken, (H264FrameQueue.timestampToTimeval p.2).tv_sec.toInt * 1000000 +
        (H264FrameQueue.timestampToTimeval p.2).tv_usec.toInt = p.2.toNat) ∧
      (((queueHistory as).filterMap H264FrameQueue.pushTime).Pairwise (· ≤ ·) →
        s.times.Pairwise Timeval.Le) := by
  obtain ⟨answered, hhanded, hanswered⟩ := handed_of_exec hrun
  obtain ⟨taken, htaken, hsub⟩ := exists_stamped (queueHistory as)
  have htimes : s.times = taken.map fun p => H264FrameQueue.timestampToTimeval p.2 := by
    have hreply : s.handed.map Handed.fPresentationTime =
        (answered.map Answer.item).map Nalu.presentationTime := by
      rw [hhanded, List.map_map, List.map_map]
      rfl
    rw [State.times, hreply, ← List.map_append, hanswered, ← htaken, List.map_map]
    refine List.map_congr_left fun p hp => ?_
    obtain ⟨op, -, hmem⟩ := List.mem_flatMap.mp (hsub.subset hp)
    exact (H264FrameQueue.stamped_time hmem).2
  refine ⟨⟨answered, taken, hhanded, hanswered.trans htaken.symm, hsub, htimes, fun p _ => ?_⟩,
    fun hsorted => ?_⟩
  · exact (H264FrameQueue.timestampToTimeval_toNat p.2).2.2
  · rw [htimes, List.pairwise_map]
    exact ((H264FrameQueue.stamped_pairwise hsorted).sublist hsub).imp
      H264FrameQueue.timestampToTimeval_le

/-- Two pushes, of which the first has been handed over and the second is in hand. -/
def twoPushes : List (Event Unit) :=
  [.act (.setupLive555 true true 1 true), .act (.push () (some [0, 0, 1, 0x67]) 7),
    .act (.unlock ()), .act (.push () (some [0, 0, 1, 0x65]) 1000040), .act (.unlock ()),
    .act (.construct 2), .act .registerReader, .act (.getNextFrame 0 100 50), .act .popNalu,
    .act .afterGetting, .act .clientReturn, .act (.getNextFrame 0 200 50), .act .popNalu]

theorem handed_times_twoPushes :
    ∃ s, (openMachine Unit).exec .new twoPushes = some s ∧
      s.handed.map Handed.fPresentationTime = [⟨0, 7⟩] ∧ s.inHand = [⟨[0x65], ⟨1, 40⟩⟩] ∧
      s.times.Pairwise Timeval.Le := by
  obtain ⟨s, hrun, hhanded, hinHand⟩ : ∃ s, (openMachine Unit).exec .new twoPushes = some s ∧
      s.handed.map Handed.fPresentationTime = [⟨0, 7⟩] ∧ s.inHand = [⟨[0x65], ⟨1, 40⟩⟩] :=
    ⟨_, rfl, by decide, by decide⟩
  exact ⟨s, hrun, hhanded, hinHand, (handed_times_ordered hrun).2 (by decide)⟩

end RtspPush.Delivery
