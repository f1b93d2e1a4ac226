import RtspPush.CApi.Step
import RtspPush.Lib.Refinement
import RtspPush.Queue.History

/-!
# What a push is answered, and what it leaves in the queue

Any number of encoder threads call `live555_rtsp_push_h264_annexb`, which checks, enqueues and
returns in steps of its own. `pushes_answered`: each encoder gets the answers that its calls ask
for, in order; the buffers of the accepted calls, and nothing else, are enqueued, once and in order,
each before its call returns; and the queue is the one that these pushes make, with the pops and
clears of the RTSP thread between them.
-/

namespace RtspPush.CApi

open Lib Service

universe u

variable {ε : Type u}

/-! ## The events of a push -/

/-- What `live555_rtsp_push_h264_annexb` answers, by what it reads of `running_`. -/
def pushAnswer (running : Bool) : Option (List UInt8) → Int
  | none => -1
  | some [] => -1
  | some (_ :: _) => if running then 0 else -2

/-- A buffer and its timestamp. -/
structure Frame where
  data : List UInt8
  timestampUs : UInt64
  deriving DecidableEq

/-- The buffer of a call that is accepted. -/
def acceptedFrame (running : Bool) (timestampUs : UInt64) : Option (List UInt8) → List Frame
  | some (byte :: bytes) => if running then [⟨byte :: bytes, timestampUs⟩] else []
  | _ => []

/-- What happens in the calls of `live555_rtsp_push_h264_annexb`. -/
inductive PushEvent (ε : Type u)
  /-- A call, with what it reads of `running_`. -/
  | called (e : ε) (running : Bool) (data : Option (List UInt8)) (timestampUs : UInt64)
  /-- It has put its buffer into the queue. -/
  | queued (e : ε) (frame : Frame)
  | returned (e : ε) (result : Int)

/-- What a step shows of the pushes. -/
def pushEvents (s : State ε) : Action ε → List (PushEvent ε)
  | .push e data timestampUs => [.called e s.service.running_ data timestampUs]
  | .continuePush e =>
    match s.encoders e with
    | .outside => []
    | .pushing _ data timestampUs => [.queued e ⟨data, timestampUs⟩]
    | .pushed result => [.returned e result]
  | _ => []

namespace PushEvent

variable [DecidableEq ε]

/-- The answers that the calls of `e` ask for. -/
def answers (e : ε) : PushEvent ε → List Int
  | called e' running data _ => if e' = e then [pushAnswer running data] else []
  | _ => []

/-- The results that `e` gets. -/
def results (e : ε) : PushEvent ε → List Int
  | returned e' result => if e' = e then [result] else []
  | _ => []

/-- The buffers of the calls of `e` that are accepted. -/
def accepted (e : ε) : PushEvent ε → List Frame
  | called e' running data timestampUs =>
    if e' = e then acceptedFrame running timestampUs data else []
  | _ => []

/-- The buffers that `e` enqueues. -/
def queuedBy (e : ε) : PushEvent ε → List Frame
  | queued e' frame => if e' = e then [frame] else []
  | _ => []

/-- The buffers that anybody enqueues. -/
def queuedFrames : PushEvent ε → List Frame
  | queued _ frame => [frame]
  | _ => []

end PushEvent

/-- The result that an encoder's call is about to return. -/
def Encoder.result : Encoder → List Int
  | .outside => []
  | .pushing _ _ _ => [0]
  | .pushed result => [result]

/-- The buffer that an encoder's call is about to enqueue. -/
def Encoder.frame : Encoder → List Frame
  | .pushing _ data timestampUs => [⟨data, timestampUs⟩]
  | _ => []

@[simp] theorem Encoder.result_outside : Encoder.outside.result = [] := rfl

@[simp] theorem Encoder.frame_outside : Encoder.outside.frame = [] := rfl

/-- What the calls of `e` ask for is held until it is given: an answer until the call returns, a
buffer until it is enqueued. -/
def Settled [DecidableEq ε] (e : ε) (events : List (PushEvent ε)) (before after : Encoder) : Prop :=
  before.result ++ events.flatMap (PushEvent.answers e) =
      events.flatMap (PushEvent.results e) ++ after.result ∧
    before.frame ++ events.flatMap (PushEvent.accepted e) =
      events.flatMap (PushEvent.queuedBy e) ++ after.frame

/-! ## One step -/

section Step

variable [DecidableEq ε] {s t : State ε}

/-- The other steps do not touch the encoders. -/
theorem encoders_same {a : Action ε} (hpush : ∀ e data timestampUs, a ≠ .push e data timestampUs)
    (hcontinue : ∀ e, a ≠ .continuePush e) (h : Transition s a t) : t.encoders = s.encoders := by
  cases h with
  | refused e data timestampUs => exact absurd rfl (hpush e data timestampUs)
  | checked e data timestampUs => exact absurd rfl (hpush e (some data) timestampUs)
  | pushFrame e => exact absurd rfl (hcontinue e)
  | pushReturn e => exact absurd rfl (hcontinue e)
  | _ => rfl

/-- A call comes to the point that its checks send it to. -/
theorem pushed_of_push {e : ε} {data : Option (List UInt8)} {timestampUs : UInt64}
    (h : s.live555_rtsp_push_h264_annexb e data timestampUs = some t) :
    s.encoders e = .outside ∧ ∃ encoder, t = s.setEncoder e encoder ∧
      encoder.result = [pushAnswer s.service.running_ data] ∧
      encoder.frame = acceptedFrame s.service.running_ timestampUs data := by
  unfold State.live555_rtsp_push_h264_annexb at h
  split at h
  · cases h
  next hcall =>
  refine ⟨not_not.mp hcall, ?_⟩
  split at h
  · exact ⟨_, (Option.some.inj h).symm, rfl, rfl⟩
  · exact ⟨_, (Option.some.inj h).symm, rfl, rfl⟩
  · split at h
    · next hrunning =>
      refine ⟨_, (Option.some.inj h).symm, ?_, ?_⟩ <;>
        simp_all [Encoder.result, Encoder.frame, pushAnswer, acceptedFrame]
    · next hrunning =>
      refine ⟨_, (Option.some.inj h).symm, ?_, ?_⟩ <;>
        simp_all [Encoder.result, Encoder.frame, pushAnswer, acceptedFrame]

/-- An encoder in a call enqueues its buffer or returns its result. -/
theorem pushed_of_continuePush {e : ε} (h : s.continuePush e = some t) :
    ∃ encoder, (∀ e', t.encoders e' = if e' = e then encoder else s.encoders e') ∧
      (s.encoders e).result =
        (pushEvents s (.continuePush e)).flatMap (PushEvent.results e) ++ encoder.result ∧
      (s.encoders e).frame =
        (pushEvents s (.continuePush e)).flatMap (PushEvent.queuedBy e) ++ encoder.frame := by
  cases Transition.of_continuePush h with
  | pushFrame e session data timestampUs hcall =>
    refine ⟨.pushed 0, fun _ => rfl, ?_, ?_⟩ <;>
      simp [pushEvents, hcall, PushEvent.results, PushEvent.queuedBy, Encoder.result, Encoder.frame]
  | pushReturn e result hcall =>
    refine ⟨.outside, fun _ => rfl, ?_, ?_⟩ <;>
      simp [pushEvents, hcall, PushEvent.results, PushEvent.queuedBy, Encoder.result, Encoder.frame]

/-- A step in which the encoder has no part. -/
theorem settled_nil {e : ε} {encoder encoder' : Encoder} (h : encoder' = encoder) :
    Settled e [] encoder encoder' := by
  rw [h]
  simp [Settled]

theorem encoder_step (e : ε) {a : Action ε} (h : s.step a = some t) :
    Settled e (pushEvents s a) (s.encoders e) (t.encoders e) := by
  obtain ⟨hcrashed, htrans⟩ := Transition.of_step h
  cases a with
  | push e' data timestampUs =>
    have hpush : s.live555_rtsp_push_h264_annexb e' data timestampUs = some t := by
      simpa [State.step, hcrashed] using h
    obtain ⟨hcall, encoder, rfl, hresult, hframe⟩ := pushed_of_push hpush
    by_cases he : e = e'
    · subst he
      simp [Settled, pushEvents, PushEvent.answers, PushEvent.results, PushEvent.accepted,
        PushEvent.queuedBy, hcall, hresult, hframe]
    · simp [Settled, pushEvents, PushEvent.answers, PushEvent.results, PushEvent.accepted,
        PushEvent.queuedBy, he, Ne.symm he]
  | continuePush e' =>
    have hcontinue : s.continuePush e' = some t := by simpa [State.step, hcrashed] using h
    obtain ⟨encoder, hencoders, hresult, hframe⟩ := pushed_of_continuePush hcontinue
    rw [hencoders e]
    by_cases he : e = e'
    · subst he
      rw [if_pos rfl, Settled, hresult, hframe]
      simp only [pushEvents]
      split <;> simp [PushEvent.answers, PushEvent.accepted]
    · rw [if_neg he, Settled]
      simp only [pushEvents]
      split <;> simp [PushEvent.answers, PushEvent.results, PushEvent.accepted,
        PushEvent.queuedBy, Ne.symm he]
  | _ => exact settled_nil (congrFun (encoders_same (by simp) (by simp) htrans) e)

/-! ## The queue -/

/-- What a step calls of the queue. -/
def queueSteps (s : State ε) : Action ε → List QueueOp
  | .continuePush e =>
    match s.encoders e with
    | .pushing _ data timestampUs => [.pushAnnexBFrame (some data) timestampUs]
    | _ => []
  | .rtsp reply =>
    match s.service.rtsp with
    | .loopBody => List.replicate reply.pops .popNalu
    | .cleanup .clearQueue _ => [.clear]
    | _ => []
  | _ => []

/-- The buffer that a call puts into the queue. -/
def pushedFrames : QueueOp → List Frame
  | .pushAnnexBFrame (some data) timestampUs => [⟨data, timestampUs⟩]
  | _ => []

theorem popNalus_eq_run (q : H264FrameQueue) (n : Nat) :
    Service.State.popNalus q n = q.run (List.replicate n .popNalu) := by
  induction n generalizing q with
  | zero => rfl
  | succ n ih => exact ih q.popNalu.2

/-- The calls of the service leave the queue alone. -/
theorem frameQueue_of_call {s t : Service.State Unit} {b : Service.Action Unit}
    (hrtsp : ∀ reply, b ≠ .rtsp reply) (hpush : ∀ data timestampUs, b ≠ .push data timestampUs)
    (h : Service.Transition s b t) : t.frameQueue_ = s.frameQueue_ := by
  cases h with
  | rtsp reply => exact absurd rfl (hrtsp reply)
  | push data timestampUs => exact absurd rfl (hpush data timestampUs)
  | startNext i point args hcall hpoint =>
    cases point with
    | launch => exact absurd rfl hpoint
    | _ => rfl
  | _ => rfl

/-- The RTSP thread pops in its loop and clears the queue at the end of a session. -/
theorem frameQueue_of_rtspThreadMain {s t : Service.State Unit} {reply : Reply}
    (h : s.rtspThreadMain reply = some t) : t.frameQueue_ = s.frameQueue_.run
      (match s.rtsp with
      | .loopBody => List.replicate reply.pops .popNalu
      | .cleanup .clearQueue _ => [.clear]
      | _ => []) := by
  have hstep := RtspStep.of_rtspThreadMain h
  cases hpoint : s.rtsp with
  | loopBody =>
    simp only [State.rtspThreadMain, hpoint, Option.some.injEq] at h
    subst h
    exact popNalus_eq_run s.frameQueue_ reply.pops
  | cleanup point failed =>
    simp only [State.rtspThreadMain, hpoint, Option.some.injEq] at h
    subst h
    cases point <;> rfl
  | _ =>
    cases hstep with
    | loopBody | cleanup => simp_all
    | _ => rfl

omit [DecidableEq ε] in
theorem frameQueue_of_rtspThread (hcrashed : s.service.crashed = none) {reply : Reply}
    (h : s.rtspThread reply = some t) :
    t.service.frameQueue_ = s.service.frameQueue_.run (queueSteps s (.rtsp reply)) := by
  obtain ⟨service, hservice, rfl⟩ := Option.map_eq_some_iff.mp h
  exact frameQueue_of_rtspThreadMain (by simpa [Service.State.step, hcrashed] using hservice)

/-- **The queue behind the API is the one that the pushes, pops and clears make.** -/
theorem refines_queue :
    Machine.Refines (machine ε) H264FrameQueue.machine (fun s => s.service.frameQueue_)
      queueSteps where
  init := rfl
  step s a t h := by
    rw [H264FrameQueue.exec_machine]
    refine congrArg some ?_
    obtain ⟨hcrashed, htrans⟩ := Transition.of_step h
    cases htrans with
    | rtsp reply service =>
      have hthread := frameQueue_of_rtspThread hcrashed
        (by simpa [machine, State.step, hcrashed] using h)
      exact hthread.symm
    | pushFrame e session data timestampUs hcall =>
      simp only [queueSteps, hcall]
      rfl
    | pushReturn e result hcall =>
      simp only [queueSteps, hcall]
      rfl
    | startRunning _ service _ hcall | start _ service _ hcall | startNext service _ hcall
      | launched service _ hcall | stopNotRunning service _ hcall | stop service _ hcall
      | stopNext service _ hcall | stopped service _ hcall =>
      exact (frameQueue_of_call (by simp) (by simp) hcall).symm
    | _ => rfl

omit [DecidableEq ε] in
/-- What is pushed is what the encoders enqueue. -/
theorem pushedFrames_queueSteps (s : State ε) (a : Action ε) :
    (queueSteps s a).flatMap pushedFrames = (pushEvents s a).flatMap PushEvent.queuedFrames := by
  cases a with
  | continuePush e =>
    simp only [queueSteps, pushEvents]
    cases s.encoders e <;> simp [pushedFrames, PushEvent.queuedFrames]
  | rtsp reply =>
    simp only [queueSteps, pushEvents]
    split <;> simp [pushedFrames, List.flatMap_replicate]
  | _ => rfl

/-! ## Every run -/

theorem settled_exec (e : ε) {as : List (Action ε)} (h : (machine ε).exec .new as = some s) :
    Settled e ((machine ε).observed pushEvents .new as) .outside (s.encoders e) := by
  have hresult : ∀ s a t, (machine ε).step s a = some t →
      (s.encoders e).result ++ (pushEvents s a).flatMap (PushEvent.answers e) =
        (pushEvents s a).flatMap (PushEvent.results e) ++ (t.encoders e).result :=
    fun _ _ _ hstep => (encoder_step e hstep).1
  have hframe : ∀ s a t, (machine ε).step s a = some t →
      (s.encoders e).frame ++ (pushEvents s a).flatMap (PushEvent.accepted e) =
        (pushEvents s a).flatMap (PushEvent.queuedBy e) ++ (t.encoders e).frame :=
    fun _ _ _ hstep => (encoder_step e hstep).2
  unfold Settled
  rw [Machine.flatMap_observed, Machine.flatMap_observed, Machine.flatMap_observed,
    Machine.flatMap_observed]
  exact ⟨Machine.conserved hresult h, Machine.conserved hframe h⟩

omit [DecidableEq ε] in
/-- The accepted calls are those that are answered 0. -/
theorem count_pushAnswer (running : Bool) (data : Option (List UInt8)) (timestampUs : UInt64) :
    [pushAnswer running data].count 0 = (acceptedFrame running timestampUs data).length := by
  unfold pushAnswer acceptedFrame
  split <;> cases running <;> rfl

theorem count_answers (e : ε) (log : List (PushEvent ε)) :
    (log.flatMap (PushEvent.answers e)).count 0 = (log.flatMap (PushEvent.accepted e)).length := by
  induction log with
  | nil => rfl
  | cons event log ih =>
    rw [List.flatMap_cons, List.flatMap_cons, List.count_append, List.length_append, ih]
    refine congrArg (· + _) ?_
    cases event with
    | called e' running data timestampUs =>
      simp only [PushEvent.answers, PushEvent.accepted]
      split
      · exact count_pushAnswer running data timestampUs
      · rfl
    | queued e' frame => rfl
    | returned e' result => rfl

/-- Whoever has got a 0 has his buffer in the queue by then. -/
theorem Settled.queued {e : ε} {log : List (PushEvent ε)} {encoder : Encoder}
    (h : Settled e log .outside encoder) :
    (log.flatMap (PushEvent.results e)).count 0 ≤ (log.flatMap (PushEvent.queuedBy e)).length := by
  have hcount := count_answers e log
  obtain ⟨hresult, hframe⟩ := h
  simp only [Encoder.result_outside, Encoder.frame_outside, List.nil_append] at hresult hframe
  rw [hresult, hframe, List.count_append, List.length_append] at hcount
  -- a buffer in hand goes with an answer of 0 in hand
  have hheld : encoder.frame.length ≤ encoder.result.count 0 := by
    cases encoder <;> simp [Encoder.result, Encoder.frame]
  omega

end Step

/-- **What a push is answered, and what it leaves in the queue.** In every run of the C API, of any
number of encoder threads and in any order of all steps: each encoder gets the answers that its
calls ask for, in order, which are -1 for a null or empty buffer, else -2 or 0 by what the call has
read of `running_`; the buffers of the calls answered 0 are the ones that it enqueues, in order and
once, and by the time that a call has returned 0 its buffer has been enqueued. The queue is the one
that these pushes make, with the pops and clears of the RTSP thread, and has no others. -/
theorem pushes_answered [DecidableEq ε] {as : List (Action ε)} {s : State ε}
    (h : (machine ε).exec .new as = some s) :
    let log := (machine ε).observed pushEvents .new as
    let ops := (machine ε).observed queueSteps .new as
    (∀ e, log.flatMap (PushEvent.answers e) =
          log.flatMap (PushEvent.results e) ++ (s.encoders e).result ∧
        log.flatMap (PushEvent.accepted e) =
          log.flatMap (PushEvent.queuedBy e) ++ (s.encoders e).frame ∧
        (log.flatMap (PushEvent.results e)).count 0 ≤
          (log.flatMap (PushEvent.queuedBy e)).length) ∧
      ops.flatMap pushedFrames = log.flatMap PushEvent.queuedFrames ∧
      s.service.frameQueue_ = H264FrameQueue.new.run ops := by
  intro log ops
  refine ⟨fun e => ?_, ?_, ?_⟩
  · have hsettled := settled_exec e h
    exact ⟨hsettled.1, hsettled.2, hsettled.queued⟩
  · rw [Machine.flatMap_observed, Machine.flatMap_observed]
    simp only [pushedFrames_queueSteps]
  · have hrun := refines_queue.exec h
    rw [H264FrameQueue.exec_machine] at hrun
    exact (Option.some.inj hrun).symm

/-- Two encoders push while a session is set up; one has a null buffer, the other is answered. -/
def twoEncoders : List (Action Bool) :=
  Action.start none :: List.replicate 5 Action.continueCall ++
    [.push true (some [0, 0, 1, 101]) 40, .push false none 41, .continuePush true,
      .continuePush true, .push true (some [0, 0, 1, 65]) 80, .continuePush false]

theorem two_encoders_answered :
    let log := (machine Bool).observed pushEvents .new twoEncoders
    log.flatMap (PushEvent.results true) = [0] ∧ log.flatMap (PushEvent.results false) = [-1] ∧
      log.flatMap PushEvent.queuedFrames = [⟨[0, 0, 1, 101], 40⟩] ∧
      (log.flatMap (PushEvent.results true)).count 0 ≤
        (log.flatMap (PushEvent.queuedBy true)).length := by
  intro log
  have hrun : (machine Bool).exec .new twoEncoders = some _ := rfl
  exact ⟨rfl, rfl, rfl, ((pushes_answered hrun).1 true).2.2⟩

end RtspPush.CApi
