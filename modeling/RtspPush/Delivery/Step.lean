import RtspPush.Delivery.Basic
import RtspPush.Queue.Push

/-!
# What each step can do

`Transition s a t` lists the outcomes of every action, each with the facts that hold before it and
the state it leads to; `Transition.of_step` says that the step function does nothing else. Every
invariant of the system is proved by cases on it.
-/

namespace RtspPush.Delivery

open Lib

variable {ε : Type}

/-- The outcomes of the steps. -/
inductive Transition (s : State ε) : Action ε → State ε → Prop
  | pushNothing (e : ε) (data : Option (List UInt8)) (timestampUs : UInt64)
      (hdata : H264FrameQueue.nothingToPush data = true) :
      Transition s (.push e data timestampUs) s
  | push (e : ε) (data : Option (List UInt8)) (timestampUs : UInt64)
      (hdata : H264FrameQueue.nothingToPush data = false) (hfree : s.pushing = none) :
      Transition s (.push e data timestampUs)
        { s with
          frameQueue := (s.frameQueue.pushAnnexBFrame data timestampUs).1
          pushing := some (e, s.frameQueue.readers) }
  | wake (e : ε) (reader : Reader) (wakes : List Reader)
      (hpushing : s.pushing = some (e, reader :: wakes)) :
      Transition s (.wake e)
        { s.setScheduler reader.scheduler
            ((s.schedulers reader.scheduler).triggerEvent reader.triggerId reader.clientData) with
          pushing := some (e, wakes) }
  | unlock (e : ε) (hpushing : s.pushing = some (e, [])) :
      Transition s (.unlock e) { s with pushing := none }
  | setupNoScheduler (env : Bool) (stopTrigger : EventTriggerId) (server : Bool)
      (hphase : s.phase = .stopped) :
      Transition s (.setupLive555 false env stopTrigger server)
        { s with scheduler_ := none, phase := .cleanup }
  | setupNoEnv (stopTrigger : EventTriggerId) (server : Bool) (hphase : s.phase = .stopped) :
      Transition s (.setupLive555 true false stopTrigger server)
        { s.setScheduler s.nextScheduler .new with
          nextScheduler := s.nextScheduler + 1
          scheduler_ := some s.nextScheduler
          phase := .cleanup }
  | setup (stopTrigger : EventTriggerId) (server : Bool) (created : TaskScheduler)
      (hphase : s.phase = .stopped)
      (hcreated : TaskScheduler.new.createEventTrigger .stopEventCallback stopTrigger =
        some created) :
      Transition s (.setupLive555 true true stopTrigger server)
        { s.setScheduler s.nextScheduler created with
          nextScheduler := s.nextScheduler + 1
          scheduler_ := some s.nextScheduler
          stopTrigger_ := stopTrigger
          server_ := server
          phase := if server then .serving else .cleanup }
  | stopTriggerEvent (id : SchedulerId) (hid : s.scheduler_ = some id) (hne : s.stopTrigger_ ≠ 0) :
      Transition s .stopTriggerEvent
        (s.setScheduler id ((s.schedulers id).triggerEvent s.stopTrigger_ 0))
  | construct (frameArrivedTrigger : EventTriggerId) (id : SchedulerId) (created : TaskScheduler)
      (hphase : s.phase = .serving) (hcall : s.call = .idle) (hid : s.scheduler_ = some id)
      (hcreated : (s.schedulers id).createEventTrigger .frameArrivedCallback frameArrivedTrigger =
        some created) :
      Transition s (.construct frameArrivedTrigger)
        { (s.setScheduler id created).setSource s.nextSource (.new id frameArrivedTrigger) with
          nextSource := s.nextSource + 1
          call := .constructing s.nextSource }
  | registerReader (src : SourceId) (hcall : s.call = .constructing src)
      (hfree : (s.sources src).frameArrivedTrigger ≠ 0 → s.pushing = none) :
      Transition s .registerReader
        { s with
          frameQueue := s.frameQueue.registerReader (some (s.sources src).scheduler)
            (s.sources src).frameArrivedTrigger src
          call := .idle }
  | getNextFrame (src : SourceId) (fTo : Nat) (fMaxSize : UInt32) (hphase : s.phase = .serving)
      (hcall : s.call = .idle) (halive : (s.sources src).alive = true) :
      Transition s (.getNextFrame src fTo fMaxSize)
        { s.setSource src ((s.sources src).getNextFrame fTo fMaxSize) with
          call := .delivering src }
  | stopGettingFrames (src : SourceId) (hcall : s.call = .idle)
      (halive : (s.sources src).alive = true) :
      Transition s (.stopGettingFrames src)
        (s.setSource src (s.sources src).stopGettingFrames)
  | dispatchStop (id : EventTriggerId) (scheduler : SchedulerId) (clientData : ClientData)
      (hphase : s.phase = .serving) (hcall : s.call = .idle) (hframes : s.frames = [])
      (hscheduler : s.scheduler_ = some scheduler)
      (htrigger : (s.schedulers scheduler).triggers id =
        some ⟨.stopEventCallback, some clientData⟩) :
      Transition s (.dispatch id)
        (s.setScheduler scheduler ((s.schedulers scheduler).clearPending id))
  | dispatchFrameArrived (id : EventTriggerId) (scheduler : SchedulerId) (clientData : ClientData)
      (hphase : s.phase = .serving) (hcall : s.call = .idle) (hframes : s.frames = [])
      (hscheduler : s.scheduler_ = some scheduler)
      (htrigger : (s.schedulers scheduler).triggers id =
        some ⟨.frameArrivedCallback, some clientData⟩) :
      Transition s (.dispatch id)
        { s.setScheduler scheduler ((s.schedulers scheduler).clearPending id) with
          call := .delivering clientData }
  | deliverNotAwaiting (src : SourceId) (hcall : s.call = .delivering src)
      (hawaiting : (s.sources src).fIsCurrentlyAwaitingData = false) :
      Transition s .popNalu { s with call := .idle }
  | deliverEmpty (src : SourceId) (hcall : s.call = .delivering src)
      (hawaiting : (s.sources src).fIsCurrentlyAwaitingData = true) (hfree : s.pushing = none)
      (hempty : s.frameQueue.queue = []) :
      Transition s .popNalu { s with call := .idle }
  | popNalu (src : SourceId) (nalu : Nalu) (rest : List Nalu) (hcall : s.call = .delivering src)
      (hawaiting : (s.sources src).fIsCurrentlyAwaitingData = true) (hfree : s.pushing = none)
      (hqueue : s.frameQueue.queue = nalu :: rest) :
      Transition s .popNalu
        { s with
          frameQueue := { s.frameQueue with queue := rest }
          call := .handing src nalu }
  | afterGetting (src : SourceId) (nalu : Nalu) (hcall : s.call = .handing src nalu) :
      Transition s .afterGetting
        { s.setSource src ((s.sources src).fill nalu).afterGetting with
          call := .idle
          frames := src :: s.frames
          handed := s.handed ++ [((s.sources src).fill nalu).handed src nalu] }
  | clientReturn (src : SourceId) (frames : List SourceId) (hcall : s.call = .idle)
      (hframes : s.frames = src :: frames) :
      Transition s .clientReturn { s with frames := frames }
  | destroy (src : SourceId) (hphase : s.phase = .serving ∨ s.phase = .closing)
      (hcall : s.call = .idle) (halive : (s.sources src).alive = true) :
      Transition s (.destroy src) { s with call := .unregistering src }
  | unregisterReader (src : SourceId) (hcall : s.call = .unregistering src)
      (hfree : s.pushing = none) :
      Transition s .unregisterReader
        { s with
          frameQueue := s.frameQueue.unregisterReader (s.sources src).frameArrivedTrigger
          call := .deletingTrigger src }
  | deleteNoTrigger (src : SourceId) (hcall : s.call = .deletingTrigger src)
      (hzero : (s.sources src).frameArrivedTrigger = 0) :
      Transition s .deleteEventTrigger
        { s.setSource src { s.sources src with alive := false, frameArrivedTrigger := 0 } with
          call := .idle }
  | deleteEventTrigger (src : SourceId) (hcall : s.call = .deletingTrigger src)
      (hne : (s.sources src).frameArrivedTrigger ≠ 0) :
      Transition s .deleteEventTrigger
        { (s.setScheduler (s.sources src).scheduler
            ((s.schedulers (s.sources src).scheduler).deleteEventTrigger
              (s.sources src).frameArrivedTrigger)).setSource src
            { s.sources src with alive := false, frameArrivedTrigger := 0 } with
          call := .idle }
  | leaveEventLoop (hphase : s.phase = .serving) (hcall : s.call = .idle)
      (hframes : s.frames = []) :
      Transition s .leaveEventLoop { s with phase := .cleanup }
  | cleanupNoTrigger (hphase : s.phase = .cleanup)
      (hnone : s.scheduler_ = none ∨ s.stopTrigger_ = 0) :
      Transition s .cleanupStopTrigger { s with phase := .closing }
  | cleanupStopTrigger (id : SchedulerId) (hphase : s.phase = .cleanup)
      (hid : s.scheduler_ = some id) (hne : s.stopTrigger_ ≠ 0) :
      Transition s .cleanupStopTrigger
        { s.setScheduler id ((s.schedulers id).deleteEventTrigger s.stopTrigger_) with
          stopTrigger_ := 0
          phase := .closing }
  | closeServer (hphase : s.phase = .closing) (hcall : s.call = .idle)
      (hdead : s.server_ = true → ∀ src < s.nextSource, (s.sources src).alive = false) :
      Transition s .closeServer { s with server_ := false, phase := .deleting }
  | deleteNoScheduler (hphase : s.phase = .deleting) (hnone : s.scheduler_ = none) :
      Transition s .deleteScheduler { s with phase := .clearing }
  | deleteScheduler (id : SchedulerId) (hphase : s.phase = .deleting)
      (hid : s.scheduler_ = some id) :
      Transition s .deleteScheduler
        { s.setScheduler id .unallocated with scheduler_ := none, phase := .clearing }
  | clearQueue (hphase : s.phase = .clearing) (hfree : s.pushing = none) :
      Transition s .clearQueue { s with frameQueue := s.frameQueue.clear, phase := .stopped }

namespace Transition

variable {s t : State ε}

theorem of_push {e : ε} {data : Option (List UInt8)} {timestampUs : UInt64}
    (h : s.push e data timestampUs = some t) : Transition s (.push e data timestampUs) t := by
  unfold State.push at h
  cases hdata : H264FrameQueue.nothingToPush data with
  | true =>
    simp only [hdata, if_true, Option.some.injEq] at h
    exact h ▸ .pushNothing e data timestampUs hdata
  | false =>
    have hwakes := s.frameQueue.pushAnnexBFrame_snd data timestampUs
    simp only [hdata, Bool.false_eq_true, if_false] at h hwakes
    cases hpushing : s.pushing with
    | some p => simp [hpushing] at h
    | none =>
      simp only [hpushing, Option.isSome_none, Bool.false_eq_true, if_false, Option.some.injEq,
        hwakes] at h
      exact h ▸ .push e data timestampUs hdata hpushing

theorem of_wake [DecidableEq ε] {e : ε} (h : s.wake e = some t) : Transition s (.wake e) t := by
  unfold State.wake at h
  split at h
  · next e' reader wakes hpushing =>
    split at h
    · next he =>
      subst he
      exact Option.some.inj h ▸ .wake e' reader wakes hpushing
    · cases h
  · cases h

theorem of_unlock [DecidableEq ε] {e : ε} (h : s.unlock e = some t) :
    Transition s (.unlock e) t := by
  unfold State.unlock at h
  split at h
  · next e' hpushing =>
    split at h
    · next he =>
      subst he
      exact Option.some.inj h ▸ .unlock e' hpushing
    · cases h
  · cases h

theorem of_setupLive555 {scheduler env : Bool} {stopTrigger : EventTriggerId} {server : Bool}
    (h : s.setupLive555 scheduler env stopTrigger server = some t) :
    Transition s (.setupLive555 scheduler env stopTrigger server) t := by
  unfold State.setupLive555 at h
  split at h
  · cases h
  next hphase =>
  have hphase : s.phase = .stopped := not_not.mp hphase
  cases scheduler with
  | false => exact Option.some.inj h ▸ .setupNoScheduler env stopTrigger server hphase
  | true =>
    cases env with
    | false => exact Option.some.inj h ▸ .setupNoEnv stopTrigger server hphase
    | true =>
      simp only [Bool.not_true, Bool.false_eq_true, if_false] at h
      split at h
      · cases h
      · next created hcreated =>
        exact Option.some.inj h ▸ .setup stopTrigger server created hphase hcreated

theorem of_stopTriggerEvent (h : s.stopTriggerEvent = some t) :
    Transition s .stopTriggerEvent t := by
  unfold State.stopTriggerEvent at h
  split at h
  · cases h
  next id hid =>
  split at h
  · cases h
  next hne =>
  exact Option.some.inj h ▸ .stopTriggerEvent id hid hne

theorem of_construct {frameArrivedTrigger : EventTriggerId}
    (h : s.construct frameArrivedTrigger = some t) :
    Transition s (.construct frameArrivedTrigger) t := by
  unfold State.construct at h
  split at h
  · cases h
  next hready =>
  obtain ⟨hphase, hcall⟩ := not_or.mp hready
  split at h
  · cases h
  next id hid =>
  split at h
  · cases h
  next created hcreated =>
  exact Option.some.inj h ▸
    .construct frameArrivedTrigger id created (not_not.mp hphase) (not_not.mp hcall) hid hcreated

theorem of_registerReader (h : s.registerReader = some t) : Transition s .registerReader t := by
  unfold State.registerReader at h
  split at h
  · next src hcall =>
    split at h
    · cases h
    · next hfree =>
      exact Option.some.inj h ▸ .registerReader src hcall (by simpa using hfree)
  · cases h

theorem of_getNextFrame {src : SourceId} {fTo : Nat} {fMaxSize : UInt32}
    (h : s.getNextFrame src fTo fMaxSize = some t) :
    Transition s (.getNextFrame src fTo fMaxSize) t := by
  unfold State.getNextFrame at h
  split at h
  · next hready =>
    obtain ⟨hphase, hcall, halive⟩ := hready
    exact Option.some.inj h ▸ .getNextFrame src fTo fMaxSize hphase hcall halive
  · cases h

theorem of_stopGettingFrames {src : SourceId} (h : s.stopGettingFrames src = some t) :
    Transition s (.stopGettingFrames src) t := by
  unfold State.stopGettingFrames at h
  split at h
  · next hready => exact Option.some.inj h ▸ .stopGettingFrames src hready.1 hready.2
  · cases h

theorem of_dispatch {id : EventTriggerId} (h : s.dispatch id = some t) :
    Transition s (.dispatch id) t := by
  unfold State.dispatch at h
  split at h
  · cases h
  next hready =>
  simp only [not_or, not_not] at hready
  obtain ⟨hphase, hcall, hframes⟩ := hready
  split at h
  · cases h
  next scheduler hscheduler =>
  split at h
  · next handler clientData htrigger =>
    cases handler with
    | stopEventCallback =>
      exact Option.some.inj h ▸
        .dispatchStop id scheduler clientData hphase hcall hframes hscheduler htrigger
    | frameArrivedCallback =>
      exact Option.some.inj h ▸
        .dispatchFrameArrived id scheduler clientData hphase hcall hframes hscheduler htrigger
  · cases h

theorem of_popNalu (h : s.popNalu = some t) : Transition s .popNalu t := by
  unfold State.popNalu at h
  split at h
  · next src hcall =>
    cases hawaiting : (s.sources src).fIsCurrentlyAwaitingData with
    | false =>
      simp only [hawaiting, Bool.not_false, if_true] at h
      exact Option.some.inj h ▸ .deliverNotAwaiting src hcall hawaiting
    | true =>
      simp only [hawaiting, Bool.not_true, Bool.false_eq_true, if_false] at h
      split at h
      · cases h
      next hfree =>
      have hfree : s.pushing = none := by simpa using hfree
      cases hqueue : s.frameQueue.queue with
      | nil =>
        simp only [H264FrameQueue.popNalu, hqueue] at h
        exact Option.some.inj h ▸ .deliverEmpty src hcall hawaiting hfree hqueue
      | cons nalu rest =>
        simp only [H264FrameQueue.popNalu, hqueue] at h
        exact Option.some.inj h ▸ .popNalu src nalu rest hcall hawaiting hfree hqueue
  · cases h

theorem of_afterGetting (h : s.afterGetting = some t) : Transition s .afterGetting t := by
  unfold State.afterGetting at h
  split at h
  · next src nalu hcall => exact Option.some.inj h ▸ .afterGetting src nalu hcall
  · cases h

theorem of_clientReturn (h : s.clientReturn = some t) : Transition s .clientReturn t := by
  unfold State.clientReturn at h
  split at h
  · cases h
  next hcall =>
  split at h
  · cases h
  next src frames hframes =>
  exact Option.some.inj h ▸ .clientReturn src frames (not_not.mp hcall) hframes

theorem of_destroy {src : SourceId} (h : s.destroy src = some t) :
    Transition s (.destroy src) t := by
  unfold State.destroy at h
  split at h
  · next hready =>
    obtain ⟨hphase, hcall, halive⟩ := hready
    exact Option.some.inj h ▸ .destroy src hphase hcall halive
  · cases h

theorem of_unregisterReader (h : s.unregisterReader = some t) :
    Transition s .unregisterReader t := by
  unfold State.unregisterReader at h
  split at h
  · next src hcall =>
    split at h
    · cases h
    · next hfree =>
      exact Option.some.inj h ▸ .unregisterReader src hcall (by simpa using hfree)
  · cases h

theorem of_deleteEventTrigger (h : s.deleteEventTrigger = some t) :
    Transition s .deleteEventTrigger t := by
  unfold State.deleteEventTrigger at h
  split at h
  · next src hcall =>
    by_cases hne : (s.sources src).frameArrivedTrigger = 0
    · simp only [hne, ne_eq, not_true_eq_false, if_false] at h
      exact Option.some.inj h ▸ .deleteNoTrigger src hcall hne
    · simp only [hne, ne_eq, not_false_eq_true, if_true] at h
      exact Option.some.inj h ▸ .deleteEventTrigger src hcall hne
  · cases h

theorem of_leaveEventLoop (h : s.leaveEventLoop = some t) : Transition s .leaveEventLoop t := by
  unfold State.leaveEventLoop at h
  split at h
  · next hready =>
    obtain ⟨hphase, hcall, hframes⟩ := hready
    exact Option.some.inj h ▸ .leaveEventLoop hphase hcall hframes
  · cases h

theorem of_cleanupStopTrigger (h : s.cleanupStopTrigger = some t) :
    Transition s .cleanupStopTrigger t := by
  unfold State.cleanupStopTrigger at h
  split at h
  · cases h
  next hphase =>
  have hphase : s.phase = .cleanup := not_not.mp hphase
  split at h
  · next hid => exact Option.some.inj h ▸ .cleanupNoTrigger hphase (Or.inl hid)
  next id hid =>
  split at h
  · next hzero => exact Option.some.inj h ▸ .cleanupNoTrigger hphase (Or.inr hzero)
  · next hne => exact Option.some.inj h ▸ .cleanupStopTrigger id hphase hid hne

theorem of_closeServer (h : s.closeServer = some t) : Transition s .closeServer t := by
  unfold State.closeServer at h
  split at h
  · cases h
  next hready =>
  obtain ⟨hphase, hcall⟩ := not_or.mp hready
  split at h
  · cases h
  next hdead =>
  refine Option.some.inj h ▸ .closeServer (not_not.mp hphase) (not_not.mp hcall) ?_
  intro hserver src hsrc
  by_contra halive
  exact hdead ⟨hserver, src, hsrc, by simpa using halive⟩

theorem of_deleteScheduler (h : s.deleteScheduler = some t) :
    Transition s .deleteScheduler t := by
  unfold State.deleteScheduler at h
  split at h
  · cases h
  next hphase =>
  have hphase : s.phase = .deleting := not_not.mp hphase
  split at h
  · next hid => exact Option.some.inj h ▸ .deleteNoScheduler hphase hid
  · next id hid => exact Option.some.inj h ▸ .deleteScheduler id hphase hid

theorem of_clearQueue (h : s.clearQueue = some t) : Transition s .clearQueue t := by
  unfold State.clearQueue at h
  split at h
  · cases h
  next hready =>
  obtain ⟨hphase, hfree⟩ := not_or.mp hready
  exact Option.some.inj h ▸ .clearQueue (not_not.mp hphase) (by simpa using hfree)

/-- **The step function does what `Transition` lists**, and nothing else. -/
theorem of_step [DecidableEq ε] {a : Action ε} (h : s.step a = some t) : Transition s a t := by
  cases a with
  | push e data timestampUs => exact of_push h
  | wake e => exact of_wake h
  | unlock e => exact of_unlock h
  | setupLive555 scheduler env stopTrigger server => exact of_setupLive555 h
  | stopTriggerEvent => exact of_stopTriggerEvent h
  | construct frameArrivedTrigger => exact of_construct h
  | registerReader => exact of_registerReader h
  | getNextFrame src fTo fMaxSize => exact of_getNextFrame h
  | stopGettingFrames src => exact of_stopGettingFrames h
  | dispatch id => exact of_dispatch h
  | popNalu => exact of_popNalu h
  | afterGetting => exact of_afterGetting h
  | clientReturn => exact of_clientReturn h
  | destroy src => exact of_destroy h
  | unregisterReader => exact of_unregisterReader h
  | deleteEventTrigger => exact of_deleteEventTrigger h
  | leaveEventLoop => exact of_leaveEventLoop h
  | cleanupStopTrigger => exact of_cleanupStopTrigger h
  | closeServer => exact of_closeServer h
  | deleteScheduler => exact of_deleteScheduler h
  | clearQueue => exact of_clearQueue h

end Transition

/-- **The invariant rule of the system**: what a new service satisfies and every transition
preserves holds in every reachable state. -/
theorem invariant [DecidableEq ε] {I : State ε → Prop} (hinit : I .new)
    (hstep : ∀ s a t, I s → Transition s a t → I t) {s : State ε}
    (h : (machine ε).Reachable s) : I s :=
  Machine.invariant hinit (fun s a t hI ht => hstep s a t hI (.of_step ht)) h

end RtspPush.Delivery
