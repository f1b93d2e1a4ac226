import RtspPush.Delivery.Step

/-!
# End-to-end lossless delivery

What has been handed over, what is in the event-loop thread's hands and what is queued make up one
stream of NALUs (`flow`). Every step either leaves it as it is or, if it is a push, appends the
NALUs of the pushed buffer: delivery only moves NALUs from the queue to the hands and from there
to the client. This holds while the queue has room, the queue is not cleared, and every request is
big enough for every NALU (`Careful`); `flow_eq` is the run lemma, and `lossless` reads it for
pushes of Annex-B encoded frames.
-/

namespace RtspPush.Delivery

open Lib

variable {ε : Type}

/-- The buffer and the time that an action pushes. -/
def Action.pushed? : Action ε → Option (Option (List UInt8) × UInt64)
  | .push _ data timestampUs => some (data, timestampUs)
  | _ => none

/-- What an action adds to the stream of NALUs. -/
def Action.produced (a : Action ε) : List Nalu :=
  a.pushed?.elim [] fun p => H264FrameQueue.produced p.1 p.2

/-- A NALU as the client gets it. -/
def Handed.nalu (d : Handed) : Nalu := ⟨d.bytes, d.fPresentationTime⟩

namespace State

/-- The NALU that is popped and not yet handed over. -/
def inHand (s : State ε) : List Nalu :=
  match s.call with
  | .handing _ nalu => [nalu]
  | _ => []

/-- The NALUs of the system in the order they were pushed: handed over, in hand, queued. -/
def flow (s : State ε) : List Nalu := s.handed.map Handed.nalu ++ s.inHand ++ s.frameQueue.queue

/-- No NALU is pushed while the queue holds 300. -/
def Room (s : State ε) : Action ε → Prop
  | .push _ data _ => ∀ j < (H264FrameQueue.producedNalus data).length,
      s.frameQueue.queue.length + j < 300
  | _ => True

/-- Nothing in the run loses a NALU: `fits` holds of the NALUs that are pushed, and a request is
big enough for each of these. -/
def Careful (fits : List UInt8 → Prop) (s : State ε) : Action ε → Prop
  | .push e data timestampUs =>
    s.Room (.push e data timestampUs) ∧ ∀ nal ∈ H264FrameQueue.producedNalus data, fits nal
  | .getNextFrame _ _ fMaxSize => ∀ nal, fits nal → nal.length ≤ fMaxSize.toNat
  | .clearQueue => False
  | _ => True

/-- Queued NALUs fit, and the requests that are outstanding are big enough. -/
structure Fits (fits : List UInt8 → Prop) (s : State ε) : Prop where
  capacity : s.frameQueue.maxQueuedNalus = 300
  queued : ∀ nalu ∈ s.frameQueue.queue, fits nalu.data
  awaiting : ∀ src, (s.sources src).fIsCurrentlyAwaitingData = true →
    ∀ nal, fits nal → nal.length ≤ (s.sources src).fMaxSize.toNat
  handing : ∀ src nalu, s.call = .handing src nalu →
    nalu.data.length ≤ (s.sources src).fMaxSize.toNat

/-- A request that is big enough gets the whole NALU. -/
theorem handed_nalu {source : MyH264Source} {src : SourceId} {nalu : Nalu}
    (h : nalu.data.length ≤ source.fMaxSize.toNat) :
    ((source.fill nalu).handed src nalu).nalu = nalu := by
  have hsize : (source.fill nalu).fFrameSize = UInt32.ofNat nalu.data.length ∧
      (source.fill nalu).fPresentationTime = nalu.presentationTime := by
    simp only [MyH264Source.fill]
    rw [if_neg (by omega)]
    exact ⟨rfl, rfl⟩
  have hlen : (UInt32.ofNat nalu.data.length).toNat = nalu.data.length := by
    have := source.fMaxSize.toNat_lt
    simp only [UInt32.toNat_ofNat']
    omega
  simp only [Handed.nalu, MyH264Source.handed, hsize, hlen, List.take_length]

namespace Fits

variable {fits : List UInt8 → Prop} {s t : State ε}

theorem new : Fits fits (State.new : State ε) where
  capacity := rfl
  queued := by simp [State.new, H264FrameQueue.new]
  awaiting := by simp [State.new, MyH264Source.unallocated]
  handing := by simp [State.new]

/-- A source changes, and the event-loop thread has no NALU in hand. -/
theorem update (hs : s.Fits fits) (src : SourceId) (source : MyH264Source) (call : Call)
    (hawaiting : source.fIsCurrentlyAwaitingData = true →
      ∀ nal, fits nal → nal.length ≤ source.fMaxSize.toNat)
    (hcall : ∀ i nalu, call ≠ .handing i nalu) :
    Fits fits { s.setSource src source with call := call } := by
  refine { hs with awaiting := fun i hi => ?_, handing := fun i nalu h => absurd h (hcall i nalu) }
  by_cases hsrc : i = src
  · simp only [State.setSource, hsrc, if_true] at hi ⊢
    exact hawaiting hi
  · simp only [State.setSource, hsrc, if_false] at hi ⊢
    exact hs.awaiting i hi

theorem transition (hs : s.Fits fits) {a : Action ε} (hP : Careful fits s a)
    (h : Transition s a t) : t.Fits fits := by
  cases h with
  | pushNothing => exact hs
  | push e data timestampUs hdata hfree =>
    refine { hs with capacity := ?_, queued := ?_ }
    · simp [hs.capacity]
    · intro nalu hnalu
      rcases H264FrameQueue.mem_pushAnnexBFrame_queue _ hnalu with hold | hnew
      · exact hs.queued nalu hold
      · obtain ⟨nal, hnal, rfl⟩ := List.mem_map.mp hnew
        exact hP.2 nal hnal
  | construct frameArrivedTrigger id =>
    exact { hs.update s.nextSource (.new id frameArrivedTrigger) (.constructing s.nextSource)
      (fun h => by cases h) (by simp) with }
  | registerReader src =>
    exact { hs with
      capacity := by simp [hs.capacity]
      queued := by simpa using hs.queued
      handing := by simp }
  | getNextFrame src fTo fMaxSize => exact hs.update src _ (.delivering src) (fun _ => hP) (by simp)
  | stopGettingFrames src hcall =>
    exact hs.update src _ s.call (fun h => by cases h) (by simp [hcall])
  | popNalu src nalu rest hcall hawaiting hfree hqueue =>
    refine { hs with queued := fun x hx => ?_, handing := fun i x h => ?_ }
    · exact hs.queued x (by rw [hqueue]; exact List.mem_cons_of_mem nalu hx)
    · cases h
      exact hs.awaiting src hawaiting _ (hs.queued nalu (by rw [hqueue]; exact List.mem_cons_self))
  | afterGetting src nalu =>
    exact { hs.update src ((s.sources src).fill nalu).afterGetting .idle (fun h => by cases h)
      (by simp) with }
  | deleteNoTrigger src => exact hs.update src _ .idle (hs.awaiting src) (by simp)
  | deleteEventTrigger src =>
    exact { hs.update src { s.sources src with alive := false, frameArrivedTrigger := 0 } .idle
      (hs.awaiting src) (by simp) with }
  | unregisterReader => exact { hs with handing := by simp }
  | destroy => exact { hs with handing := by simp }
  | dispatchFrameArrived => exact { hs with handing := by simp }
  | deliverNotAwaiting => exact { hs with handing := by simp }
  | deliverEmpty => exact { hs with handing := by simp }
  | clearQueue => exact absurd hP id
  | _ => exact { hs with }

end Fits

/-! ## The stream -/

/-- A push into a queue that has room appends what it produces. -/
theorem push_queue {q : H264FrameQueue} {data : Option (List UInt8)}
    (hcapacity : q.maxQueuedNalus = 300)
    (hroom : ∀ j < (H264FrameQueue.producedNalus data).length, q.queue.length + j < 300)
    (timestampUs : UInt64) :
    (q.pushAnnexBFrame data timestampUs).1.queue =
      q.queue ++ H264FrameQueue.produced data timestampUs := by
  by_cases hnone : H264FrameQueue.producedNalus data = []
  · simp [H264FrameQueue.pushAnnexBFrame_fst, H264FrameQueue.produced, hnone,
      H264FrameQueue.pushAll]
  · refine q.pushAnnexBFrame_queue_of_room ?_ timestampUs
    have hpos := List.length_pos_iff.mpr hnone
    have hlast := hroom _ (Nat.sub_lt hpos Nat.one_pos)
    omega

/-- **A step moves NALUs along the stream or appends what it pushes.** -/
theorem flow_transition {fits : List UInt8 → Prop} {s t : State ε} {a : Action ε}
    (hs : s.Fits fits) (hP : Careful fits s a) (h : Transition s a t) :
    t.flow = s.flow ++ a.produced := by
  cases h with
  | pushNothing e data timestampUs hdata =>
    have hnone := H264FrameQueue.producedNalus_eq_nil_iff.mpr hdata
    simp [Action.produced, Action.pushed?, H264FrameQueue.produced, hnone]
  | push e data timestampUs hdata hfree =>
    simp only [flow, push_queue hs.capacity hP.1, List.append_assoc]
    rfl
  | popNalu src nalu rest hcall hawaiting hfree hqueue =>
    simp [flow, inHand, hcall, hqueue, Action.produced, Action.pushed?]
  | afterGetting src nalu hcall =>
    have hnalu : (((s.sources src).fill nalu).handed src nalu).nalu = nalu :=
      handed_nalu (hs.handing src nalu hcall)
    simp [flow, inHand, hcall, hnalu, Action.produced, Action.pushed?]
  -- the event-loop thread goes on with nothing in hand
  | construct _ _ _ _ hcall | registerReader _ hcall | getNextFrame _ _ _ _ hcall
    | dispatchFrameArrived _ _ _ _ hcall | deliverNotAwaiting _ hcall | deliverEmpty _ hcall
    | destroy _ _ hcall | unregisterReader _ hcall | deleteNoTrigger _ hcall
    | deleteEventTrigger _ hcall =>
    simp [flow, inHand, hcall, Action.produced, Action.pushed?]
  | clearQueue => exact absurd hP id
  | _ => exact (List.append_nil _).symm

/-- **The stream after a run** is everything the run pushed, in order. -/
theorem flow_eq [DecidableEq ε] {fits : List UInt8 → Prop} {as : List (Action ε)} {s : State ε}
    (hP : (machine ε).Along (Careful fits) .new as) (hrun : (machine ε).exec .new as = some s) :
    s.flow = as.flatMap Action.produced := by
  have h := Machine.exec_flatMap (M := machine ε) (I := Fits fits) State.flow Action.produced
    (fun _ _ _ hs hP ht => hs.transition hP (.of_step ht))
    (fun _ _ _ hs hP ht => flow_transition hs hP (.of_step ht)) Fits.new hP hrun
  exact h

end State

/-! ## Annex-B encoded frames -/

/-- The pushes of a run. -/
def pushes (as : List (Action ε)) : List (Option (List UInt8) × UInt64) :=
  as.filterMap Action.pushed?

theorem flatMap_produced (as : List (Action ε)) :
    as.flatMap Action.produced = (pushes as).flatMap fun p => H264FrameQueue.produced p.1 p.2 := by
  induction as with
  | nil => rfl
  | cons a as ih =>
    rw [List.flatMap_cons, ih]
    cases hpushed : a.pushed? <;> simp [pushes, Action.produced, hpushed]

/-- **End-to-end lossless delivery.** `frames` are the frames pushed so far, each a list of NALUs
encoded as Annex-B, in any interleaving with the event-loop thread. If no NALU is pushed while the
queue holds 300, the queue is not cleared and every request is at least as big as every NALU, then
what has been handed over, then the NALU in hand, then the queue is exactly the NALUs of the
frames in order, each with the time of its frame. With a single source `handed` is what this
source has handed over; with several it is what they have, in the order they did. -/
theorem lossless [DecidableEq ε] (frames : List (List AnnexBUnit × UInt64))
    {as : List (Action ε)} {s : State ε} (hrun : (machine ε).exec .new as = some s)
    (hpushes : pushes as = frames.map fun f => (some (encode f.1), f.2))
    (hframes : ∀ f ∈ frames, f.1 ≠ [])
    (hroom : (machine ε).Along State.Room .new as)
    (hclear : .clearQueue ∉ as)
    (hsize : ∀ src fTo fMaxSize, .getNextFrame src fTo fMaxSize ∈ as →
      ∀ f ∈ frames, ∀ u ∈ f.1, u.nal.length ≤ fMaxSize.toNat) :
    s.handed.map Handed.nalu ++ s.inHand ++ s.frameQueue.queue =
      frames.flatMap fun f =>
        f.1.map fun u => ⟨u.nal, H264FrameQueue.timestampToTimeval f.2⟩ := by
  have hproduced : ∀ f ∈ frames,
      H264FrameQueue.producedNalus (some (encode f.1)) = f.1.map AnnexBUnit.nal :=
    fun f hf => H264FrameQueue.producedNalus_encode (hframes f hf)
  let fits : List UInt8 → Prop := fun nal => ∃ f ∈ frames, ∃ u ∈ f.1, nal = u.nal
  have hcareful : (machine ε).Along (State.Careful fits) .new as := by
    refine hroom.of_forall_mem (fun s a hP hQ => ?_) fun a ha => ha
    cases a with
    | push e data timestampUs =>
      have hmem : (data, timestampUs) ∈ pushes as := List.mem_filterMap.mpr ⟨_, hQ, rfl⟩
      rw [hpushes] at hmem
      obtain ⟨f, hf, heq⟩ := List.mem_map.mp hmem
      cases heq
      refine ⟨hP, fun nal hnal => ?_⟩
      rw [hproduced f hf] at hnal
      obtain ⟨u, hu, rfl⟩ := List.mem_map.mp hnal
      exact ⟨f, hf, u, hu, rfl⟩
    | getNextFrame src fTo fMaxSize =>
      rintro _ ⟨f, hf, u, hu, rfl⟩
      exact hsize src fTo fMaxSize hQ f hf u hu
    | clearQueue => exact hclear hQ
    | _ => trivial
  have hflow := State.flow_eq hcareful hrun
  rw [flatMap_produced, hpushes, List.flatMap_map] at hflow
  refine hflow.trans (List.flatMap_congr fun f hf => ?_)
  simp only [H264FrameQueue.produced, hproduced f hf, List.map_map]
  rfl

/-- A frame of two NALUs, pushed before the session, and one request. -/
def twoNalus : List AnnexBUnit :=
  [⟨.long, [0x65], by decide, by decide, by decide⟩,
    ⟨.short, [0x41, 0x9A], by decide, by decide, by decide⟩]

def twoNalusRun : List (Action Unit) :=
  [.push () (some (encode twoNalus)) 7, .unlock (), .setupLive555 true true 1 true, .construct 2,
    .registerReader, .getNextFrame 0 0 100, .popNalu, .afterGetting]

/-- The first NALU is handed over, the second is queued. -/
theorem lossless_twoNalus :
    ∃ s, (machine Unit).exec .new twoNalusRun = some s ∧
      s.handed.map Handed.nalu ++ s.inHand ++ s.frameQueue.queue =
        [⟨[0x65], ⟨0, 7⟩⟩, ⟨[0x41, 0x9A], ⟨0, 7⟩⟩] := by
  obtain ⟨s, hrun⟩ : ∃ s, (machine Unit).exec .new twoNalusRun = some s := ⟨_, rfl⟩
  have hroom : (machine Unit).Along State.Room .new twoNalusRun := by
    have hfirst : ∀ j < (H264FrameQueue.producedNalus (some (encode twoNalus))).length,
        0 + j < 300 := by decide
    refine ⟨hfirst, fun t _ => ?_⟩
    exact (Machine.along_true t _).of_forall_mem (Q := fun a => a.pushed? = none)
      (fun s a _ ha => by cases a <;> trivial) (by decide)
  refine ⟨s, hrun, (lossless [(twoNalus, 7)] hrun rfl (by simp [twoNalus]) hroom
    (by simp [twoNalusRun]) ?_).trans rfl⟩
  intro src fTo fMaxSize hmem
  simp only [twoNalusRun, List.mem_cons, reduceCtorEq, Action.getNextFrame.injEq, false_or,
    List.not_mem_nil, or_false] at hmem
  obtain ⟨-, -, rfl⟩ := hmem
  decide

end RtspPush.Delivery
