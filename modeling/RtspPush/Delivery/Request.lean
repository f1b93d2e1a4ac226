import RtspPush.Delivery.Registry
import RtspPush.Lib.RequestLog

/-!
# One request, at most one delivery

`deliverFrame` is entered from `doGetNextFrame` and from `frameArrivedCallback`, and comes back to
itself through the client's code in `afterGetting`. `openMachine` is the system in which the
callback may also run with no trigger behind it, whenever the event-loop thread gets to it. What
its sources do to their requests is a run of the contract in `Lib.RequestLog`
(`State.Accounted.step`): whatever the nesting, a source takes a NALU for the request that is
outstanding, and what it hands over is the reply to that one.
-/

namespace RtspPush.Delivery

open Lib

variable {ε : Type}

/-! ## The open system -/

/-- A step, or a frame event that no trigger raised. -/
inductive Event (ε : Type)
  | act (a : Action ε)
  | frameArrivedCallback (src : SourceId)

/-- `frameArrivedCallback(source)`. -/
def State.frameArrivedCallback (s : State ε) (src : SourceId) : Option (State ε) :=
  if s.call = .idle ∧ (s.sources src).alive then some { s with call := .delivering src } else none

def State.openStep [DecidableEq ε] (s : State ε) : Event ε → Option (State ε)
  | .act a => s.step a
  | .frameArrivedCallback src => s.frameArrivedCallback src

def openMachine (ε : Type) [DecidableEq ε] : Machine (State ε) (Event ε) := ⟨.new, State.openStep⟩

namespace State

theorem frameArrivedCallback_iff {s t : State ε} {src : SourceId} :
    s.frameArrivedCallback src = some t ↔
      (s.call = .idle ∧ (s.sources src).alive = true) ∧ { s with call := .delivering src } = t := by
  unfold frameArrivedCallback
  split
  · next hready => simp [hready]
  · next hready => simp [hready]

theorem Wired.openStep [DecidableEq ε] {s t : State ε} (hw : s.Wired) {e : Event ε}
    (h : s.openStep e = some t) : t.Wired := by
  cases e with
  | act a => exact hw.transition (.of_step h)
  | frameArrivedCallback src =>
    obtain ⟨⟨hcall, halive⟩, rfl⟩ := frameArrivedCallback_iff.mp h
    refine hw.setCall (.delivering src) (by simp [hcall]) (by simp) ?_
    rintro src' ⟨⟩
    exact halive

end State

/-! ## Requests and replies -/

/-- What `getNextFrame` is called with. -/
structure Request where
  fTo : Nat
  fMaxSize : UInt32
  deriving DecidableEq

/-- The reply to a request: as much of the NALU as was asked for. -/
def reply (a : Answer SourceId Request Nalu) : Handed where
  source := a.client
  request := a.number
  fTo := a.params.fTo
  bytes := a.item.data.take a.params.fMaxSize.toNat
  fFrameSize := UInt32.ofNat (min a.item.data.length a.params.fMaxSize.toNat)
  fNumTruncatedBytes := UInt32.ofNat (a.item.data.length - a.params.fMaxSize.toNat)
  fPresentationTime := a.item.presentationTime

theorem reply_length (a : Answer SourceId Request Nalu) :
    (reply a).bytes.length = (reply a).fFrameSize.toNat ∧
      (reply a).bytes.length ≤ a.params.fMaxSize.toNat := by
  have hlt := a.params.fMaxSize.toNat_lt
  simp only [reply, List.length_take, UInt32.toNat_ofNat']
  omega

/-- `deliverFrame` writes the reply to the request that its source has. -/
theorem MyH264Source.handed_fill (source : MyH264Source) (src : SourceId) (nalu : Nalu) :
    (source.fill nalu).handed src nalu =
      reply ⟨src, source.requests, ⟨source.fTo, source.fMaxSize⟩, nalu⟩ := by
  have hlt := source.fMaxSize.toNat_lt
  by_cases hsize : nalu.data.length > source.fMaxSize.toNat
  · have hmin : min nalu.data.length source.fMaxSize.toNat = source.fMaxSize.toNat := by omega
    simp only [fill, hsize, if_true, handed, reply, hmin, UInt32.ofNat_toNat]
  · have hmin : min nalu.data.length source.fMaxSize.toNat = nalu.data.length := by omega
    have hcut : nalu.data.length - source.fMaxSize.toNat = 0 := by omega
    have hlen : (UInt32.ofNat nalu.data.length).toNat = nalu.data.length := by
      simp only [UInt32.toNat_ofNat']
      omega
    have htake : nalu.data.take source.fMaxSize.toNat = nalu.data :=
      List.take_of_length_le (by omega)
    simp only [fill, hsize, if_false, handed, reply, hmin, hcut, hlen, htake, List.take_length]
    rfl

namespace State

/-- The NALU that the event-loop thread has popped, and the source it has popped it for. -/
def handing (s : State ε) : Option (SourceId × Nalu) :=
  match s.call with
  | .handing src nalu => some (src, nalu)
  | _ => none

/-- What a step means to the requests of the sources. -/
def requestEvents (s : State ε) : Event ε → List (RequestEvent SourceId Request Nalu)
  | .act (.getNextFrame src fTo fMaxSize) => [.request src ⟨fTo, fMaxSize⟩]
  | .act (.stopGettingFrames src) => [.withdraw src]
  | .act .deleteEventTrigger => s.call.source?.toList.map .withdraw
  | .act .popNalu => (s.popNalu.bind handing).toList.map fun p => .take p.1 p.2
  | .act .afterGetting => s.call.source?.toList.map .answer
  | _ => []

end State

/-- The request that a source has outstanding. -/
def MyH264Source.request? (source : MyH264Source) : Option Request :=
  if source.alive ∧ source.fIsCurrentlyAwaitingData then some ⟨source.fTo, source.fMaxSize⟩
  else none

namespace State

/-- The log says what the state says. -/
structure Accounted (l : RequestLog SourceId Request Nalu) (s : State ε) : Prop where
  issued : ∀ src < s.nextSource, (l.issued src).length = (s.sources src).requests
  unissued : ∀ src, s.nextSource ≤ src → l.issued src = []
  outstanding : ∀ src, l.outstanding src = (s.sources src).request?
  in_hand : l.inHand.map Answer.delivery = s.handing
  handed : s.handed = l.answered.map reply

namespace Accounted

variable {l : RequestLog SourceId Request Nalu} {s t : State ε}

theorem new : Accounted .empty (.new : State ε) where
  issued := by simp [State.new]
  unissued := by simp [RequestLog.empty]
  outstanding _ := rfl
  in_hand := rfl
  handed := rfl

theorem inHand_eq_none (h : Accounted l s) (hnone : s.handing = none) : l.inHand = none :=
  Option.map_eq_none_iff.mp (h.in_hand.trans hnone)

/-- Nothing about the sources changes. -/
theorem of_same (h : Accounted l s) (hsources : t.sources = s.sources)
    (hnext : t.nextSource = s.nextSource) (hhanding : t.handing = s.handing)
    (hhanded : t.handed = s.handed) : Accounted l t where
  issued := by rw [hsources, hnext]; exact h.issued
  unissued := by rw [hnext]; exact h.unissued
  outstanding := by rw [hsources]; exact h.outstanding
  in_hand := h.in_hand.trans hhanding.symm
  handed := hhanded.trans h.handed

/-- A source changes and makes no request. -/
theorem setSource (h : Accounted l s) (src : SourceId) (source : MyH264Source)
    (hrequests : source.requests = (s.sources src).requests) :
    Accounted { l with outstanding := Function.update l.outstanding src source.request? }
      (s.setSource src source) := by
  refine { h with issued := fun i hi => ?_, outstanding := fun i => ?_ }
  · rw [h.issued i hi]
    by_cases hsrc : i = src
    · subst hsrc
      simp [hrequests]
    · simp [hsrc]
  · by_cases hsrc : i = src
    · subst hsrc
      simp
    · simp [hsrc, h.outstanding i]

/-- A request is withdrawn while nothing is in hand. -/
theorem withdraw (h : Accounted l s) (hnone : s.handing = none) (src : SourceId)
    (source : MyH264Source) (hrequests : source.requests = (s.sources src).requests)
    (hrequest : source.request? = none) :
    ∃ l', l.record (.withdraw src) = some l' ∧ Accounted l' (s.setSource src source) := by
  refine ⟨_, RequestLog.record_withdraw_iff.mpr ⟨h.inHand_eq_none hnone, rfl⟩, ?_⟩
  have hupdate := h.setSource src source hrequests
  rwa [hrequest] at hupdate

theorem construct (hw : s.Wired) (h : Accounted l s) (hcall : s.call = .idle) (id : SchedulerId)
    (frameArrivedTrigger : EventTriggerId) (created : TaskScheduler) :
    Accounted l { (s.setScheduler id created).setSource s.nextSource
        (.new id frameArrivedTrigger) with
      nextSource := s.nextSource + 1
      call := .constructing s.nextSource } := by
  have hdead : (s.sources s.nextSource).alive = false := by
    by_contra halive
    exact Nat.lt_irrefl _ (hw.source_lt _ (by simpa using halive))
  refine ⟨fun i hi => ?_, fun i hi => h.unissued i (Nat.le_of_succ_le hi), fun i => ?_, ?_,
    h.handed⟩
  · by_cases hsrc : i = s.nextSource
    · subst hsrc
      simp [h.unissued _ (Nat.le_refl _), MyH264Source.new, MyH264Source.unallocated]
    · have hlt : i < s.nextSource := Nat.lt_of_le_of_ne (Nat.le_of_lt_succ hi) hsrc
      simpa [hsrc] using h.issued i hlt
  · by_cases hsrc : i = s.nextSource
    · subst hsrc
      simp [h.outstanding, MyH264Source.request?, hdead, MyH264Source.new,
        MyH264Source.unallocated]
    · simpa [hsrc] using h.outstanding i
  · rw [h.in_hand]
    simp [handing, hcall]

theorem getNextFrame (hw : s.Wired) (h : Accounted l s) {src : SourceId} (hcall : s.call = .idle)
    (halive : (s.sources src).alive = true) (fTo : Nat) (fMaxSize : UInt32) :
    ∃ l', l.record (.request src ⟨fTo, fMaxSize⟩) = some l' ∧
      Accounted l' { s.setSource src ((s.sources src).getNextFrame fTo fMaxSize) with
        call := .delivering src } := by
  have hhanding : s.handing = none := by simp [handing, hcall]
  refine ⟨_, RequestLog.record_request_iff.mpr ⟨h.inHand_eq_none hhanding, rfl⟩, ?_⟩
  refine ⟨fun i hi => ?_, fun i hi => ?_, fun i => ?_, ?_, h.handed⟩
  · by_cases hsrc : i = src
    · subst hsrc
      simp [MyH264Source.getNextFrame, h.issued i hi]
    · simp [hsrc, h.issued i hi]
  · have hsrc : i ≠ src := by
      rintro rfl
      exact Nat.not_lt.mpr hi (hw.source_lt i halive)
    simp [hsrc, h.unissued i hi]
  · by_cases hsrc : i = src
    · subst hsrc
      simp [MyH264Source.request?, MyH264Source.getNextFrame, halive]
    · simp [hsrc, h.outstanding i]
  · rw [h.inHand_eq_none hhanding]
    rfl

theorem popNalu (hw : s.Wired) (h : Accounted l s) {src : SourceId} {nalu : Nalu}
    {rest : List Nalu} (hcall : s.call = .delivering src)
    (hawaiting : (s.sources src).fIsCurrentlyAwaitingData = true) :
    ∃ l', l.record (.take src nalu) = some l' ∧ Accounted l'
      { s with
        frameQueue := { s.frameQueue with queue := rest }
        call := .handing src nalu } := by
  have halive := hw.call_alive src (by rw [hcall]; rfl)
  have hhanding : s.handing = none := by simp [handing, hcall]
  have hrequest : l.outstanding src = some ⟨(s.sources src).fTo, (s.sources src).fMaxSize⟩ := by
    simp [h.outstanding, MyH264Source.request?, halive, hawaiting]
  exact ⟨_, RequestLog.record_take_iff.mpr ⟨h.inHand_eq_none hhanding, _, hrequest, rfl⟩,
    { h with in_hand := rfl }⟩

theorem afterGetting (hw : s.Wired) (hl : l.Valid) (h : Accounted l s) {src : SourceId}
    {nalu : Nalu} (hcall : s.call = .handing src nalu) :
    ∃ l', l.record (.answer src) = some l' ∧ Accounted l'
      { s.setSource src ((s.sources src).fill nalu).afterGetting with
        call := .idle
        frames := src :: s.frames
        handed := s.handed ++ [((s.sources src).fill nalu).handed src nalu] } := by
  have halive := hw.call_alive src (by rw [hcall]; rfl)
  obtain ⟨a, hhand, hdelivery⟩ : ∃ a, l.inHand = some a ∧ a.delivery = (src, nalu) := by
    have hin := h.in_hand
    simp only [handing, hcall, Option.map_eq_some_iff] at hin
    exact hin
  obtain ⟨rfl, rfl⟩ := Prod.mk.inj hdelivery
  -- the request in hand is the one that the source holds
  obtain ⟨hout, hnumber⟩ := hl.in_hand a hhand
  have hparams : a.params = ⟨(s.sources a.client).fTo, (s.sources a.client).fMaxSize⟩ := by
    rw [h.outstanding, MyH264Source.request?] at hout
    split at hout
    · exact (Option.some.inj hout).symm
    · cases hout
  have hrequests : a.number = (s.sources a.client).requests :=
    hnumber.trans (h.issued _ (hw.source_lt _ halive))
  have hreply : ((s.sources a.client).fill a.item).handed a.client a.item = reply a := by
    rw [MyH264Source.handed_fill, ← hrequests, ← hparams]
  refine ⟨_, RequestLog.record_answer_iff.mpr ⟨a, hhand, rfl, rfl⟩, ?_⟩
  have hkept : ((s.sources a.client).fill a.item).afterGetting.requests =
      (s.sources a.client).requests := by
    simp only [MyH264Source.afterGetting, MyH264Source.fill]
    split <;> rfl
  have hupdate := h.setSource a.client _ hkept
  have hrequest : ((s.sources a.client).fill a.item).afterGetting.request? = none := by
    simp [MyH264Source.request?, MyH264Source.afterGetting]
  rw [hrequest] at hupdate
  exact { hupdate with
    in_hand := rfl
    handed := by simp [h.handed, hreply] }

theorem transition (hw : s.Wired) (hl : l.Valid) (h : Accounted l s) {a : Action ε}
    (ht : Transition s a t) (hpop : a = .popNalu → s.popNalu = some t) :
    ∃ l', (RequestLog.contract SourceId Request Nalu).exec l (s.requestEvents (.act a)) = some l' ∧
      Accounted l' t := by
  -- one event is one step of the contract
  have single : ∀ {e l'}, l.record e = some l' →
      (RequestLog.contract SourceId Request Nalu).exec l [e] = some l' :=
    fun h => Machine.exec_cons_iff.mpr ⟨_, h, rfl⟩
  cases ht with
  | construct frameArrivedTrigger id created hphase hcall hid hcreated =>
    exact ⟨l, rfl, h.construct hw hcall id frameArrivedTrigger created⟩
  | getNextFrame src fTo fMaxSize hphase hcall halive =>
    obtain ⟨l', hl', h'⟩ := h.getNextFrame hw hcall halive fTo fMaxSize
    exact ⟨l', single hl', h'⟩
  | stopGettingFrames src hcall halive =>
    obtain ⟨l', hl', h'⟩ := h.withdraw (by simp [handing, hcall]) src
      (s.sources src).stopGettingFrames rfl (by simp [MyH264Source.request?,
        MyH264Source.stopGettingFrames])
    exact ⟨l', single hl', h'⟩
  | deliverNotAwaiting src hcall hawaiting =>
    simp only [requestEvents, hpop rfl]
    exact ⟨l, rfl, h.of_same rfl rfl (by simp [handing, hcall]) rfl⟩
  | deliverEmpty src hcall hawaiting hfree hempty =>
    simp only [requestEvents, hpop rfl]
    exact ⟨l, rfl, h.of_same rfl rfl (by simp [handing, hcall]) rfl⟩
  | popNalu src nalu rest hcall hawaiting hfree hqueue =>
    simp only [requestEvents, hpop rfl]
    obtain ⟨l', hl', h'⟩ := h.popNalu hw hcall hawaiting
    exact ⟨l', single hl', h'⟩
  | afterGetting src nalu hcall =>
    simp only [requestEvents, hcall]
    obtain ⟨l', hl', h'⟩ := h.afterGetting hw hl hcall
    exact ⟨l', single hl', h'⟩
  | deleteNoTrigger src hcall hzero =>
    simp only [requestEvents, hcall]
    obtain ⟨l', hl', h'⟩ := h.withdraw (by simp [handing, hcall]) src
      { s.sources src with alive := false, frameArrivedTrigger := 0 } rfl
      (by simp [MyH264Source.request?])
    exact ⟨l', single hl', h'.of_same rfl rfl (by simp [handing, hcall]) rfl⟩
  | deleteEventTrigger src hcall hne =>
    simp only [requestEvents, hcall]
    obtain ⟨l', hl', h'⟩ := h.withdraw (by simp [handing, hcall]) src
      { s.sources src with alive := false, frameArrivedTrigger := 0 } rfl
      (by simp [MyH264Source.request?])
    exact ⟨l', single hl', h'.of_same rfl rfl (by simp [handing, hcall]) rfl⟩
  -- the event-loop thread goes on with nothing in hand
  | registerReader _ hcall | dispatchFrameArrived _ _ _ _ hcall | destroy _ _ hcall
    | unregisterReader _ hcall =>
    exact ⟨l, rfl, h.of_same rfl rfl (by simp [handing, hcall]) rfl⟩
  | _ => exact ⟨l, rfl, h.of_same rfl rfl rfl rfl⟩

/-- **What a step does to the requests is what the contract allows.** -/
theorem step [DecidableEq ε] (hw : s.Wired) (hl : l.Valid) (h : Accounted l s) {e : Event ε}
    (ht : s.openStep e = some t) :
    ∃ l', (RequestLog.contract SourceId Request Nalu).exec l (s.requestEvents e) = some l' ∧
      Accounted l' t := by
  cases e with
  | act a => exact h.transition hw hl (.of_step ht) fun ha => by subst ha; exact ht
  | frameArrivedCallback src =>
    obtain ⟨⟨hcall, -⟩, rfl⟩ := frameArrivedCallback_iff.mp ht
    exact ⟨l, rfl, h.of_same rfl rfl (by simp [handing, hcall]) rfl⟩

end Accounted

end State

/-- What a run means to the requests of the sources. -/
def requestHistory [DecidableEq ε] (as : List (Event ε)) :
    List (RequestEvent SourceId Request Nalu) :=
  (openMachine ε).observed State.requestEvents .new as

/-- **The system keeps the contract.** -/
theorem requests_accounted [DecidableEq ε] {as : List (Event ε)} {s : State ε}
    (hrun : (openMachine ε).exec .new as = some s) :
    ∃ l, (RequestLog.contract SourceId Request Nalu).exec .empty (requestHistory as) = some l ∧
      s.Accounted l := by
  have hinit : (State.new : State ε).Wired ∧
      ∃ l, (RequestLog.contract SourceId Request Nalu).exec .empty [] = some l ∧
        State.Accounted l (.new : State ε) := ⟨.new, _, rfl, .new⟩
  refine (Machine.invariant_observed_exec (M := openMachine ε) (P := fun _ _ => True)
    (I := fun history s => s.Wired ∧
      ∃ l, (RequestLog.contract SourceId Request Nalu).exec .empty history = some l ∧
        State.Accounted l s)
    (fun history s e t => ?_) hinit (Machine.along_true _ _) hrun).2
  rintro ⟨hw, l, hl, h⟩ - ht
  obtain ⟨l', hl', h'⟩ := h.step hw (RequestLog.Valid.exec hl) ht
  exact ⟨hw.openStep ht, l', Machine.exec_append_iff.mpr ⟨l, hl, hl'⟩, h'⟩

/-! ## What the delivering call does -/

namespace State

variable {s t : State ε}

/-- A source takes the front of the queue; besides, only pushes and `clear` remove anything. -/
theorem queue_of_step [DecidableEq ε] {e : Event ε} (h : s.openStep e = some t)
    (hpush : ∀ e' data timestampUs, e ≠ .act (.push e' data timestampUs))
    (hclear : e ≠ .act .clearQueue) :
    s.frameQueue.queue =
      ((s.requestEvents e).flatMap RequestEvent.taken).map Prod.snd ++ t.frameQueue.queue := by
  cases e with
  | frameArrivedCallback src =>
    obtain ⟨-, rfl⟩ := frameArrivedCallback_iff.mp h
    rfl
  | act a =>
    have hpop : a = .popNalu → s.popNalu = some t := fun ha => by subst ha; exact h
    cases Transition.of_step h with
    | push e' data timestampUs => exact absurd rfl (hpush e' data timestampUs)
    | pushNothing e' data timestampUs => exact absurd rfl (hpush e' data timestampUs)
    | clearQueue => exact absurd rfl hclear
    | popNalu src nalu rest hcall hawaiting hfree hqueue =>
      simp [requestEvents, hpop rfl, handing, RequestEvent.taken, hqueue]
    | deliverNotAwaiting | deliverEmpty => simp [requestEvents, hpop rfl, handing]
    | afterGetting _ _ hcall | deleteNoTrigger _ hcall | deleteEventTrigger _ hcall =>
      simp [requestEvents, hcall, Call.source?, RequestEvent.taken]
    | registerReader => simp [requestEvents]
    | unregisterReader => simp [requestEvents]
    | _ => rfl

/-- What is popped is handed over by the next thing the event-loop thread does. -/
theorem handing_next [DecidableEq ε] {src : SourceId} {nalu : Nalu}
    (hhanding : s.handing = some (src, nalu)) :
    (∃ t, s.openStep (.act .afterGetting) = some t) ∧
      ∀ e t, s.openStep e = some t → e = .act .afterGetting ∨ t.handing = s.handing := by
  have hcall : s.call = .handing src nalu := by
    unfold handing at hhanding
    split at hhanding
    · next i x hcall =>
      cases hhanding
      exact hcall
    · cases hhanding
  refine ⟨by simp [openStep, State.step, State.afterGetting, hcall], fun e t h => ?_⟩
  cases e with
  | frameArrivedCallback i =>
    obtain ⟨⟨hidle, -⟩, -⟩ := frameArrivedCallback_iff.mp h
    rw [hcall] at hidle
    cases hidle
  | act a =>
    cases Transition.of_step h with
    | afterGetting => exact Or.inl rfl
    | construct _ _ _ _ hcall' | registerReader _ hcall' | getNextFrame _ _ _ _ hcall'
      | stopGettingFrames _ hcall' | dispatchStop _ _ _ _ hcall'
      | dispatchFrameArrived _ _ _ _ hcall' | deliverNotAwaiting _ hcall'
      | deliverEmpty _ hcall' | popNalu _ _ _ hcall' | clientReturn _ _ hcall'
      | destroy _ _ hcall' | unregisterReader _ hcall' | deleteNoTrigger _ hcall'
      | deleteEventTrigger _ hcall' | leaveEventLoop _ hcall' | closeServer _ hcall' =>
      rw [hcall] at hcall'
      cases hcall'
    | _ => exact Or.inr rfl

/-- Behind `afterGetting` the delivering call neither reads a source nor writes one. -/
theorem clientReturn_setSource (s : State ε) (src : SourceId) (source : MyH264Source) :
    (s.setSource src source).clientReturn =
      s.clientReturn.map fun t => t.setSource src source := by
  by_cases hcall : s.call = .idle
  · cases hframes : s.frames <;> simp [clientReturn, hcall, hframes]
  · simp [clientReturn, hcall]

/-- What the sources have taken and handed over by `s`, after what happened to their requests:
`answered` are the deliveries that are complete and `inHand` the one that is not. -/
structure DeliveredOnce (s : State ε) (history : List (RequestEvent SourceId Request Nalu))
    (answered inHand : List (Answer SourceId Request Nalu)) : Prop where
  /-- A source takes a NALU while it has a request outstanding, and as the answer to this. -/
  outstanding : ∀ earlier src nalu later, history = earlier ++ .take src nalu :: later →
    ∃ request, Outstanding earlier src request ∧
      (answered ++ inHand)[(earlier.flatMap RequestEvent.taken).length]? =
        some ⟨src, (earlier.flatMap (RequestEvent.requested src)).length, request, nalu⟩
  /-- Each NALU taken is delivered once, by the source that took it. -/
  taken : (answered ++ inHand).map Answer.delivery = history.flatMap RequestEvent.taken
  /-- Each request is answered at most once. -/
  nodup : ((answered ++ inHand).map Answer.key).Nodup
  handed : s.handed = answered.map reply
  in_hand : inHand.map Answer.delivery = s.handing.toList

end State

/-- **One request, at most one delivery, and no popped NALU is lost.** In every run, however the
requests nest and whatever callbacks come with no event behind them: every NALU that a source
takes off the queue is handed over once, as the reply to the request that this source had
outstanding; it is handed over before the event-loop thread does anything else; and behind
`afterGetting` the delivering call leaves the sources alone. -/
theorem one_request_one_delivery [DecidableEq ε] {as : List (Event ε)} {s : State ε}
    (hrun : (openMachine ε).exec .new as = some s) :
    (∃ answered inHand, s.DeliveredOnce (requestHistory as) answered inHand ∧
      ∀ a ∈ answered, (reply a).bytes.length = (reply a).fFrameSize.toNat ∧
        (reply a).bytes.length ≤ a.params.fMaxSize.toNat) ∧
      (∀ e t, s.openStep e = some t →
        (∀ e' data timestampUs, e ≠ .act (.push e' data timestampUs)) → e ≠ .act .clearQueue →
          s.frameQueue.queue =
            ((s.requestEvents e).flatMap RequestEvent.taken).map Prod.snd ++ t.frameQueue.queue) ∧
      (∀ src nalu, s.handing = some (src, nalu) →
        (∃ t, s.openStep (.act .afterGetting) = some t) ∧
          ∀ e t, s.openStep e = some t → e = .act .afterGetting ∨ t.handing = s.handing) ∧
      ∀ src source, (s.setSource src source).clientReturn =
        s.clientReturn.map fun t => t.setSource src source := by
  obtain ⟨l, hl, haccounted⟩ := requests_accounted hrun
  refine ⟨⟨l.answered, l.inHand.toList, ?_, fun a _ => reply_length a⟩,
    fun e t => State.queue_of_step, fun src nalu => State.handing_next, s.clientReturn_setSource⟩
  refine ⟨fun earlier src nalu later hsplit => ?_, RequestLog.taken_eq hl,
    (RequestLog.Valid.exec hl).nodup_taken, haccounted.handed, ?_⟩
  · rw [hsplit] at hl
    exact RequestLog.taken_at hl
  · rw [← haccounted.in_hand]
    cases l.inHand <;> rfl

/-- Two sources and three NALUs. Source 0 asks again in `afterGetting` and is destroyed there;
source 1 gets a callback that nothing raised before it asks for anything. -/
def nestedRun : List (Event Unit) :=
  [.act (.setupLive555 true true 1 true), .act (.construct 2), .act .registerReader,
    .act (.construct 3), .act .registerReader,
    .act (.push () (some [0, 0, 1, 0x65, 0x88, 0x84, 0, 0, 1, 0x41, 0x9A, 0, 0, 1, 0x42]) 7),
    .act (.wake ()), .act (.wake ()), .act (.unlock ()),
    .act (.getNextFrame 0 100 2), .act .popNalu, .act .afterGetting,
    .act (.getNextFrame 0 200 50), .act .popNalu, .act .afterGetting,
    .frameArrivedCallback 1, .act .popNalu,
    .act (.destroy 0), .act .unregisterReader, .act .deleteEventTrigger,
    .act .clientReturn, .act .clientReturn,
    .act (.getNextFrame 1 300 50), .act .popNalu, .act .afterGetting]

/-- The first request is too small for its NALU; all three get one. -/
theorem one_request_one_delivery_nestedRun :
    ∃ s, (openMachine Unit).exec .new nestedRun = some s ∧
      s.handed = [⟨0, 1, 100, [0x65, 0x88], 2, 1, ⟨0, 7⟩⟩, ⟨0, 2, 200, [0x41, 0x9A], 2, 0, ⟨0, 7⟩⟩,
        ⟨1, 1, 300, [0x42], 1, 0, ⟨0, 7⟩⟩] ∧
      ∃ answered inHand, s.DeliveredOnce (requestHistory nestedRun) answered inHand := by
  obtain ⟨s, hrun, hhanded⟩ : ∃ s, (openMachine Unit).exec .new nestedRun = some s ∧
      s.handed = [⟨0, 1, 100, [0x65, 0x88], 2, 1, ⟨0, 7⟩⟩,
        ⟨0, 2, 200, [0x41, 0x9A], 2, 0, ⟨0, 7⟩⟩, ⟨1, 1, 300, [0x42], 1, 0, ⟨0, 7⟩⟩] :=
    ⟨_, rfl, by decide⟩
  obtain ⟨⟨answered, inHand, hdelivered, -⟩, -⟩ := one_request_one_delivery hrun
  exact ⟨s, hrun, hhanded, answered, inHand, hdelivered⟩

end RtspPush.Delivery
