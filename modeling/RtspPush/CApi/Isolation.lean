import RtspPush.CApi.Chronicle
import RtspPush.Queue.Push

/-!
# Whether the queue separates the sessions

`live555_rtsp_push_h264_annexb` reads `running_` and enqueues in two steps, and the queue is cleared
at the end of `cleanupLive555`, before `running_` is reset. A push between the two, or of an
encoder that has read `running_` before, leaves a NALU for the next session, and an encoder that
enqueues only when the next session is running puts one straight into it. `isolated_iff_timely`
says that nothing else does: each NALU carries the session in which its push was accepted.
-/

namespace RtspPush.CApi

open Lib Service

universe u

variable {ε : Type u}

/-- While the service is not running its queue is empty. -/
def Isolated (s : State ε) : Prop :=
  s.service.running_ = false → s.service.frameQueue_.queue = []

/-- What is queued, the last of all that has been pushed, was accepted in the session that
`running_` stands for. -/
def Own (pushed : List (Nat × Nalu)) (s : State ε) : Prop :=
  ∃ queued, queued <:+ pushed ∧ s.service.frameQueue_.queue = queued.map Prod.snd ∧
    ∀ entry ∈ queued, entry.1 = currentSession s.service

/-- What is pushed now will be cleared: the RTSP thread has not finished `cleanupLive555`, or a
`start` has set `running_` and is about to launch it. -/
def Clearable (s : Service.State Unit) : Prop :=
  s.rtsp.unfinished = true ∨
    s.running_ = true ∧ ∃ point args, s.callers () = .starting point args

/-- The next step of the encoder `e` enqueues a buffer that has been accepted in `session`. -/
def Enqueues (s : State ε) (e : ε) (session : Nat) : Prop :=
  s.service.crashed = none ∧
    ∃ data timestampUs, s.encoders e = .pushing session data timestampUs

/-- An encoder enqueues in the session in which it has read `running_`, and while the queue will be
cleared. -/
def Timely (s : State ε) : Action ε → Prop
  | .continuePush e => ∀ session, Enqueues s e session →
      session = currentSession s.service ∧ Clearable s.service
  | _ => True

/-- The NALUs that a step hands to the queue, each with the session in which its push has been
accepted. -/
def pushedNalus (s : State ε) : Action ε → List (Nat × Nalu)
  | .continuePush e =>
    match s.encoders e with
    | .pushing session data timestampUs =>
      (H264FrameQueue.produced (some data) timestampUs).map fun nalu => (session, nalu)
    | _ => []
  | _ => []

/-! ## Timely pushes -/

/-- What is queued will be cleared. -/
def Drained (s : Service.State Unit) : Prop := ¬ Clearable s → s.frameQueue_.queue = []

namespace Drained

variable {s t : Service.State Unit}

theorem new : Drained .new := fun _ => rfl

theorem isolated (hs : Held s) (hd : Drained s) (h : s.running_ = false) :
    s.frameQueue_.queue = [] := by
  refine hd fun hclear => ?_
  rcases hclear with hlive | ⟨hrunning, -⟩
  · rw [hs.ended_of_not_running h] at hlive
    cases hlive
  · rw [h] at hrunning
    cases hrunning

/-- A step that leaves the queue alone and can be cleared behind if it could before. -/
theorem of_same (hd : Drained s) (hqueue : t.frameQueue_ = s.frameQueue_)
    (h : Clearable s → Clearable t) : Drained t := by
  intro hnot
  rw [hqueue]
  exact hd (mt h hnot)

/-- The caller is outside `start` and moves on; the RTSP thread does not. -/
theorem of_caller (hd : Drained s) (hqueue : t.frameQueue_ = s.frameQueue_)
    (hrtsp : t.rtsp = s.rtsp) (hcall : ∀ point args, s.callers () ≠ .starting point args) :
    Drained t :=
  hd.of_same hqueue fun h =>
    h.elim (fun hlive => Or.inl (hrtsp ▸ hlive))
      fun ⟨_, point, args, hstart⟩ => absurd hstart (hcall point args)

theorem rtsp (hs : Held s) (hd : Drained s) (h : RtspStep s t) : Drained t := by
  have hlive := h.frame.live
  cases h with
  | clearRunning hpoint =>
    intro _
    refine hd fun hclear => ?_
    rcases hclear with hunfinished | ⟨-, point, args, hstart⟩
    · simp [hpoint, RtspPoint.unfinished] at hunfinished
    · exact hlive (hs.starting point args hstart)
  | cleanup point failed hpoint =>
    cases point with
    | clearQueue => exact fun _ => rfl
    | _ => exact fun hnot => absurd (Or.inl rfl) hnot
  | _ => exact fun hnot => absurd (Or.inl rfl) hnot

theorem transition (hs : Held s) (hd : Drained s) {b : Service.Action Unit}
    (hP : ∀ data timestampUs, b = .push data timestampUs → Clearable s)
    (h : Service.Transition s b t) : Drained t := by
  cases h with
  | startRunning => exact hd
  | start i args hcall => exact hd.of_caller rfl rfl (by simp [hcall])
  | startNext i point args hcall hpoint =>
    cases point with
    | launch => exact absurd rfl hpoint
    | setRunning =>
      exact fun hnot => absurd (Or.inr ⟨rfl, .launch, args, by simp [State.startNext]⟩) hnot
    | _ =>
      exact hd.of_same rfl (Or.imp_right fun h =>
        ⟨h.1, _, args, by simp [State.startNext]; rfl⟩)
  | launch => exact fun hnot => absurd (Or.inl rfl) hnot
  | launchCrash => exact hd
  | joinTwice => exact hd
  | joinCrash => exact hd
  | destroyCrash => exact hd
  | rtsp reply t h => exact hd.rtsp hs h
  | push data timestampUs => exact fun hnot => absurd (hP data timestampUs rfl) hnot
  | stopNotRunning i inDestructor hcall => exact hd.of_caller rfl rfl (by simp [hcall])
  | clearRunning i inDestructor hcall => exact hd.of_caller rfl rfl (by simp [hcall])
  | _ => exact hd.of_caller rfl rfl (by simp [*])

end Drained

/-! ## A late push -/

/-- Something is queued that nobody will clear before `running_` is reset. -/
structure Leftover (s : Service.State Unit) : Prop where
  queued : s.frameQueue_.queue ≠ []
  running : s.running_ = true
  notClearable : ¬ Clearable s

namespace Leftover

variable {s t : Service.State Unit}

/-- Until `running_` is reset it stays. -/
theorem transition (hl : Leftover s) {b : Service.Action Unit}
    (hrunning : t.frameQueue_.queue ≠ [] → t.running_ = true)
    (h : Service.Transition s b t) : Leftover t := by
  have hnot := hl.notClearable
  have hqueued := hl.queued
  have hfinished : s.rtsp.unfinished ≠ true := fun h => hnot (Or.inl h)
  have hstart (point : StartPoint) (args : StartArgs) : s.callers () ≠ .starting point args :=
    fun h => hnot (Or.inr ⟨hl.running, point, args, h⟩)
  cases h with
  | startRunning => exact hl
  | start i args hcall hfree hstopped => simp [hl.running] at hstopped
  | startNext i point args hcall => exact absurd hcall (hstart point args)
  | launch i args hcall => exact absurd hcall (hstart _ args)
  | rtsp reply t h =>
    cases h with
    | clearRunning => exact absurd (hrunning hqueued) (by simp)
    | _ => exact absurd (by simp [*, RtspPoint.unfinished]) hfinished
  | push data timestampUs =>
    exact ⟨H264FrameQueue.pushAnnexBFrame_queue_ne_nil _ (Or.inl hqueued), hl.running, hnot⟩
  | launchCrash => exact ⟨hqueued, hl.running, hnot⟩
  | joinTwice => exact ⟨hqueued, hl.running, hnot⟩
  | joinCrash => exact ⟨hqueued, hl.running, hnot⟩
  | destroyCrash => exact ⟨hqueued, hl.running, hnot⟩
  | stopNotRunning i inDestructor hcall hfree hstopped => simp [hl.running] at hstopped
  | clearRunning i inDestructor => exact absurd (hrunning hqueued) (by simp)
  | _ =>
    refine ⟨hqueued, hl.running, fun hclear => ?_⟩
    rcases hclear with h | ⟨-, point, args, h⟩
    · exact hfinished h
    · simp at h

end Leftover

/-! ## What is in the queue -/

theorem popNalus_queue_suffix :
    ∀ (n : Nat) (q : H264FrameQueue), (State.popNalus q n).queue <:+ q.queue
  | 0, q => List.suffix_refl q.queue
  | n + 1, q => by
    have hpop : q.popNalu.2.queue <:+ q.queue := by
      unfold H264FrameQueue.popNalu
      split
      · exact List.suffix_refl q.queue
      · next first rest hqueue =>
        rw [hqueue]
        exact List.suffix_cons first rest
    exact (popNalus_queue_suffix n q.popNalu.2).trans hpop

/-- Only a push adds to the queue, and the rest takes from its front. -/
theorem queue_suffix {s t : Service.State Unit} {b : Service.Action Unit}
    (hb : ∀ data timestampUs, b ≠ .push data timestampUs) (h : Service.Transition s b t) :
    t.frameQueue_.queue <:+ s.frameQueue_.queue := by
  cases h with
  | push data timestampUs => exact absurd rfl (hb data timestampUs)
  | startNext i point args hcall hpoint =>
    cases point with
    | launch => exact absurd rfl hpoint
    | _ => exact List.suffix_refl _
  | rtsp reply t h =>
    cases h with
    | loopBody pops => exact popNalus_queue_suffix pops s.frameQueue_
    | cleanup point failed =>
      cases point with
      | clearQueue => exact List.nil_suffix
      | _ => exact List.suffix_refl _
    | _ => exact List.suffix_refl _
  | _ => exact List.suffix_refl _

theorem frameQueue_of_push {s t : Service.State Unit} {data : Option (List UInt8)}
    {timestampUs : UInt64} (h : Service.Transition s (.push data timestampUs) t) :
    t.frameQueue_ = (s.frameQueue_.pushAnnexBFrame data timestampUs).1 := by
  cases h
  rfl

/-- A `start` that has not set `running_` has found it false. -/
def FoundStopped (s : Service.State Unit) : Prop :=
  ∀ point args, s.callers () = .starting point args → point ≠ .launch → s.running_ = false

namespace FoundStopped

variable {s t : Service.State Unit}

theorem new : FoundStopped .new := fun _ _ h => by cases h

theorem transition (hs : Held s) (hf : FoundStopped s) {b : Service.Action Unit}
    (h : Service.Transition s b t) : FoundStopped t := by
  intro point args hstart hpoint
  cases h with
  | startRunning => exact hf point args hstart hpoint
  | start i args' hcall hfree hrunning => exact hrunning
  | startNext i point' args' hcall hlaunch =>
    have hrunning := hf point' args' hcall hlaunch
    cases point' with
    | launch => exact absurd rfl hlaunch
    | setRunning =>
      obtain ⟨rfl, -⟩ : StartPoint.launch = point ∧ args' = args := by
        simpa [State.startNext] using hstart
      exact absurd rfl hpoint
    | _ => exact hrunning
  | rtsp reply t h =>
    rw [h.frame.callers] at hstart
    exact absurd (hs.starting point args hstart) h.frame.live
  | launchCrash | joinTwice | joinCrash | destroyCrash | push =>
    exact hf point args hstart hpoint
  | stopNotRunning i inDestructor | clearRunning i inDestructor =>
    cases inDestructor <;> simp [State.afterStop] at hstart
  | _ => simp at hstart

end FoundStopped

/-- Where something is queued, a step leaves the session that `running_` stands for. -/
theorem currentSession_of_queue {s t : Service.State Unit} (hs : Held s) (hd : Drained s)
    (hf : FoundStopped s) {b : Service.Action Unit} (h : Service.Transition s b t)
    (hqueued : t.frameQueue_.queue ≠ []) : currentSession t = currentSession s := by
  cases h with
  | startNext i point args hcall hpoint =>
    cases point with
    | launch => exact absurd rfl hpoint
    | setRunning => exact absurd (hd.isolated hs (hf .setRunning args hcall nofun)) hqueued
    | _ => simp [currentSession, State.startNext, hcall]
  | rtsp reply t h =>
    rw [currentSession, currentSession, h.frame.callers, h.frame.session]
  | stopNotRunning i inDestructor hcall | clearRunning i inDestructor hcall =>
    cases inDestructor <;> simp [currentSession, State.afterStop, hcall]
  | startRunning | launchCrash | joinTwice | joinCrash | destroyCrash | push => rfl
  | _ => simp [currentSession, *]

/-- The session of an RTSP thread that has not ended is the latest. -/
theorem currentSession_of_live {s : Service.State Unit} (hs : Held s) (h : s.rtsp ≠ .ended) :
    currentSession s = s.session := by
  unfold currentSession
  split
  · next args hcall => exact absurd (hs.starting .launch args hcall) h
  · rfl

/-- A step takes from the front of the queue and adds to its end what has been accepted in the
current session. -/
theorem Own.append {s t : State ε} {pushed more : List (Nat × Nalu)} (ho : Own pushed s)
    (hqueue : t.service.frameQueue_.queue <:+ s.service.frameQueue_.queue ++ more.map Prod.snd)
    (hsession : t.service.frameQueue_.queue ≠ [] →
      currentSession t.service = currentSession s.service)
    (hmore : ∀ entry ∈ more, entry.1 = currentSession s.service) : Own (pushed ++ more) t := by
  obtain ⟨queued, hqueued, hsame, hlabels⟩ := ho
  rw [hsame, ← List.map_append] at hqueue
  obtain ⟨left, hleft, hrest⟩ := List.suffix_map_iff.mp hqueue
  refine ⟨left, hleft.trans (List.suffix_append_self_iff.mpr hqueued), hrest, fun entry he => ?_⟩
  have hne : t.service.frameQueue_.queue ≠ [] := by
    rw [hrest]
    exact List.ne_nil_of_mem (List.mem_map_of_mem he)
  rw [hsession hne]
  rcases List.mem_append.mp (hleft.subset he) with hold | hnew
  · exact hlabels entry hold
  · exact hmore entry hnew

/-- The last of what has been pushed is queued if anything is. -/
theorem Own.mem_last {s : State ε} {pushed more : List (Nat × Nalu)} (ho : Own (pushed ++ more) s)
    (hqueue : s.service.frameQueue_.queue ≠ []) (hmore : more ≠ []) :
    ∃ entry ∈ more, entry.1 = currentSession s.service := by
  obtain ⟨queued, hqueued, hsame, hlabels⟩ := ho
  have hne : queued ≠ [] := by
    rintro rfl
    exact hqueue hsame
  refine ⟨more.getLast hmore, List.getLast_mem hmore, ?_⟩
  rw [← List.getLast_append_of_right_ne_nil pushed more hmore, ← hqueued.getLast hne]
  exact hlabels _ (List.getLast_mem hne)

theorem Own.new : Own [] (.new : State ε) :=
  ⟨[], List.suffix_refl [], rfl, fun _ h => by cases h⟩

variable [DecidableEq ε]

/-- What is queued behind a step are the last of what was queued and what the step has pushed. -/
theorem Transition.queue_suffix {s t : State ε} {a : Action ε} (h : Transition s a t) :
    t.service.frameQueue_.queue <:+
      s.service.frameQueue_.queue ++ (pushedNalus s a).map Prod.snd := by
  cases a with
  | continuePush e =>
    cases h with
    | pushFrame _ session data timestampUs hcall =>
      have hpush :=
        s.service.frameQueue_.pushAnnexBFrame_queue_suffix (some data) timestampUs
      simpa [pushedNalus, hcall, Function.comp_def] using hpush
    | pushReturn _ result hcall => simp [pushedNalus, hcall]
  | start | stop | getURL | continueCall | push | rtsp =>
    simp only [pushedNalus, List.map_nil, List.append_nil]
    cases h.service with
    | idle hservice => exact hservice ▸ List.suffix_refl _
    | call b hrtsp hpush hstep => exact CApi.queue_suffix hpush hstep
    | push e session data timestampUs ha => cases ha
    | rtsp reply hstep => exact CApi.queue_suffix (by simp) hstep

theorem Transition.foundStopped {s t : State ε} (hs : Backed s) (hf : FoundStopped s.service)
    {a : Action ε} (h : Transition s a t) : FoundStopped t.service := by
  rcases h.service.eq_or_transition with hservice | ⟨b, hstep⟩
  · rwa [hservice]
  · exact hf.transition hs.held hstep

theorem Transition.currentSession_eq {s t : State ε} (hs : Backed s) (hd : Drained s.service)
    (hf : FoundStopped s.service) {a : Action ε} (h : Transition s a t)
    (hqueued : t.service.frameQueue_.queue ≠ []) :
    currentSession t.service = currentSession s.service := by
  rcases h.service.eq_or_transition with hservice | ⟨b, hstep⟩
  · rw [hservice]
  · exact currentSession_of_queue hs.held hd hf hstep hqueued

/-- An encoder behind its checks has something to push. -/
def EncodersReady (s : State ε) : Prop :=
  ∀ e session data timestampUs, s.encoders e = .pushing session data timestampUs → data ≠ []

namespace EncodersReady

omit [DecidableEq ε] in
theorem new : EncodersReady (.new : State ε) := fun _ _ _ _ h => by cases h

/-- An encoder moves; behind its checks it has something to push. -/
theorem setEncoder {s : State ε} (hr : EncodersReady s) (e : ε) (encoder : Encoder)
    (h : ∀ session data timestampUs, encoder = .pushing session data timestampUs → data ≠ []) :
    EncodersReady (s.setEncoder e encoder) := by
  intro e' session data timestampUs hcall
  by_cases he : e' = e
  · exact h session data timestampUs (by simpa [he] using hcall)
  · exact hr e' session data timestampUs (by simpa [he] using hcall)

theorem transition {s t : State ε} (hr : EncodersReady s) {a : Action ε}
    (h : Transition s a t) : EncodersReady t := by
  cases h with
  | refused e => exact hr.setEncoder e _ (by simp)
  | checked e data timestampUs hcall hdata =>
    refine hr.setEncoder e _ ?_
    rintro session data' timestampUs' ⟨⟩
    exact hdata
  | pushFrame e => exact hr.setEncoder e (.pushed 0) (by simp)
  | pushReturn e => exact hr.setEncoder e .outside (by simp)
  | _ => exact hr

end EncodersReady

/-! ## Whole runs -/

namespace Timely

theorem drained {s t : State ε} (hs : Backed s) (hd : Drained s.service) {a : Action ε}
    (hP : Timely s a) (hcrashed : s.service.crashed = none) (h : Transition s a t) :
    Drained t.service := by
  cases h.service with
  | idle hservice => rwa [hservice]
  | call b hrtsp hpush hstep =>
    exact hd.transition hs.held (fun _ _ hb => absurd hb (hpush _ _)) hstep
  | push e session data timestampUs ha hcall hstep =>
    subst ha
    exact hd.transition hs.held
      (fun _ _ _ => (hP session ⟨hcrashed, data, timestampUs, hcall⟩).2) hstep
  | rtsp reply hstep => exact hd.transition hs.held (by simp) hstep

omit [DecidableEq ε] in
/-- What a step pushes has been accepted in the current session. -/
theorem accepted {s : State ε} {a : Action ε} (hP : Timely s a)
    (hcrashed : s.service.crashed = none) :
    ∀ entry ∈ pushedNalus s a, entry.1 = currentSession s.service := by
  intro entry hentry
  cases a with
  | continuePush e =>
    cases hcall : s.encoders e with
    | pushing session data timestampUs =>
      simp only [pushedNalus, hcall, List.mem_map] at hentry
      obtain ⟨nalu, -, rfl⟩ := hentry
      exact (hP session ⟨hcrashed, data, timestampUs, hcall⟩).1
    | _ => simp [pushedNalus, hcall] at hentry
  | _ => cases hentry

theorem own {s t : State ε} (hs : Backed s) (hd : Drained s.service)
    (hf : FoundStopped s.service) {pushed : List (Nat × Nalu)} (ho : Own pushed s) {a : Action ε}
    (hP : Timely s a) (hcrashed : s.service.crashed = none) (h : Transition s a t) :
    Own (pushed ++ pushedNalus s a) t :=
  ho.append h.queue_suffix (h.currentSession_eq hs hd hf) (hP.accepted hcrashed)

/-- A push that is not timely mixes two sessions or leaves something behind. -/
theorem leftover {s t : State ε} (hr : EncodersReady s) {a : Action ε} (hP : ¬ Timely s a)
    (h : Transition s a t) (ht : Isolated t) {pushed : List (Nat × Nalu)}
    (ho : Own (pushed ++ pushedNalus s a) t) : Leftover t.service := by
  cases a with
  | continuePush e =>
    simp only [Timely, not_forall] at hP
    obtain ⟨session, ⟨-, data, timestampUs, hcall⟩, hnot⟩ := hP
    cases h with
    | pushFrame _ session' data' timestampUs' hcall' =>
      obtain ⟨rfl, rfl, rfl⟩ : session = session' ∧ data = data' ∧ timestampUs = timestampUs' := by
        simpa [hcall] using hcall'
      have hready : H264FrameQueue.nothingToPush (some data) = false := by
        simpa [H264FrameQueue.nothingToPush] using hr e session data timestampUs hcall
      have hqueued :
          (s.service.frameQueue_.pushAnnexBFrame (some data) timestampUs).1.queue ≠ [] :=
        H264FrameQueue.pushAnnexBFrame_queue_ne_nil _ (Or.inr hready)
      have hproduced : pushedNalus s (.continuePush e) ≠ [] := by
        simp [pushedNalus, hcall, H264FrameQueue.produced, H264FrameQueue.producedNalus_eq_nil_iff,
          hready]
      -- the session is right, so it is the queue that nobody will clear
      obtain ⟨entry, hentry, hsession⟩ := ho.mem_last hqueued hproduced
      simp only [pushedNalus, hcall, List.mem_map] at hentry
      obtain ⟨nalu, -, rfl⟩ := hentry
      exact ⟨hqueued, by_contra fun hstopped => hqueued (ht (by simpa using hstopped)),
        fun hclear => hnot ⟨hsession, hclear⟩⟩
    | pushReturn _ result hpushed => simp [hcall] at hpushed
  | start | stop | getURL | continueCall | push | rtsp => exact absurd trivial hP

end Timely

/-- What is left behind stays as long as the queue is empty whenever `running_` is false. -/
theorem Leftover.exec {s t : State ε} {as : List (Action ε)} (hl : Leftover s.service)
    (hrun : (machine ε).exec s as = some t) (h : (machine ε).Throughout Isolated s as) :
    Leftover t.service := by
  have hisolated : (machine ε).Along
      (fun s a => ∀ t, (machine ε).step s a = some t → Isolated t) s as :=
    Machine.along_of_throughout (fun _ _ _ hP => by push Not at hP; exact hP) h
  refine Machine.invariant_along (I := fun s : State ε => Leftover s.service)
    (fun s a t hl hP ht => ?_) hl hisolated hrun
  have hrunning (hqueued : t.service.frameQueue_.queue ≠ []) : t.service.running_ = true :=
    by_contra fun hstopped => hqueued (hP t ht (by simpa using hstopped))
  rcases (Transition.of_step ht).2.service.eq_or_transition with hservice | ⟨b, hstep⟩
  · rwa [hservice]
  · exact hl.transition hrunning hstep

/-- What a run of timely pushes keeps. -/
structure Separated (pushed : List (Nat × Nalu)) (s : State ε) : Prop where
  backed : Backed s
  drained : Drained s.service
  foundStopped : FoundStopped s.service
  own : Own pushed s

namespace Separated

omit [DecidableEq ε] in
theorem new : Separated [] (.new : State ε) := ⟨Backed.new, Drained.new, FoundStopped.new, Own.new⟩

theorem step {pushed : List (Nat × Nalu)} {s t : State ε} {a : Action ε}
    (hs : Separated pushed s) (hP : Timely s a) (ht : (machine ε).step s a = some t) :
    Separated (pushed ++ pushedNalus s a) t := by
  obtain ⟨hcrashed, h⟩ := Transition.of_step ht
  exact ⟨hs.backed.transition h, hP.drained hs.backed hs.drained hcrashed h,
    h.foundStopped hs.backed hs.foundStopped,
    hP.own hs.backed hs.drained hs.foundStopped hs.own hcrashed h⟩

end Separated

/-- **When the queue separates the sessions.** In a run in which every push is timely the queue is
empty whenever `running_` is false, and what is queued at any time has been accepted in the session
that `running_` stands for then, which for a running RTSP thread is the session it serves. And a run
that comes to its end with `running_` false, and in which both have always held, has had no other
push. -/
theorem isolated_iff_timely (as : List (Action ε)) :
    ((machine ε).Along Timely .new as →
        (machine ε).Throughout Isolated .new as ∧
          (machine ε).ThroughoutObserved pushedNalus Own .new as) ∧
      (∀ t, (machine ε).exec .new as = some t → t.service.running_ = false →
        (machine ε).Throughout Isolated .new as →
        (machine ε).ThroughoutObserved pushedNalus Own .new as → (machine ε).Along Timely .new as) ∧
      ∀ t, (machine ε).exec .new as = some t → t.service.rtsp ≠ .ended →
        currentSession t.service = t.service.session := by
  refine ⟨fun hP => ?_, fun t hrun hstopped hisolated hown => ?_, fun t hrun hlive => ?_⟩
  · have hall : (machine ε).ThroughoutObserved pushedNalus Separated .new as :=
      Machine.throughoutObserved_of_along (fun _ _ _ _ hs hP ht => hs.step hP ht) Separated.new hP
    exact ⟨fun bs hbs s hs => (hall bs hbs s hs).drained.isolated (hall bs hbs s hs).backed.held,
      fun bs hbs s hs => (hall bs hbs s hs).own⟩
  · by_contra hnot
    obtain ⟨bs, a, cs, u, v, rfl, hu, -, ha, hv, hend⟩ :=
      Machine.exists_step_of_not_along hnot hrun
    have hready : EncodersReady u :=
      Machine.invariant_exec (M := machine ε)
        (fun _ _ _ hr ht => hr.transition (Transition.of_step ht).2) EncodersReady.new hu
    have hone : (machine ε).exec u [a] = some v := Machine.exec_cons_iff.mpr ⟨v, hv, rfl⟩
    have hrest := (hisolated.of_exec hu).of_exec hone
    have hpushed := hown (bs ++ [a]) ⟨cs, by simp⟩ v (Machine.exec_append_iff.mpr ⟨u, hu, hone⟩)
    rw [Machine.observed_append hu, Machine.observed_cons hv, Machine.observed, List.append_nil]
      at hpushed
    have hlate := Timely.leftover hready ha (Transition.of_step hv).2
      (hrest [] (List.nil_prefix) v rfl) hpushed
    rw [(hlate.exec hend hrest).running] at hstopped
    cases hstopped
  · exact currentSession_of_live (Backed.exec hrun).held hlive

/-- An encoder reads `running_` before a `live555_rtsp_stop` and enqueues after it. -/
def frameAcrossStop : List (Action Unit) :=
  Action.start none :: List.replicate 5 Action.continueCall ++
    List.replicate 8 (Action.rtsp ⟨true, 1, some "rtsp://127.0.0.1:8554/live", 0⟩) ++
    [Action.continueCall, .continueCall, .push () (some [0, 0, 1, 0x65]) 0, .stop] ++
    List.replicate 6 Action.continueCall ++
    List.replicate 9 (Action.rtsp ⟨true, 1, none, 0⟩) ++
    List.replicate 3 Action.continueCall ++ [Action.continuePush ()]

/-- The NALU is queued while no session is running. -/
theorem frame_across_stop_queued : ¬ (machine Unit).Throughout Isolated .new frameAcrossStop := by
  intro h
  have hend : ((machine Unit).exec .new frameAcrossStop).map
      (fun s => (s.service.running_, s.service.frameQueue_.queue)) =
      some (false, [⟨[0x65], 0, 0⟩]) := rfl
  obtain ⟨s, hs, hstate⟩ := Option.map_eq_some_iff.mp hend
  simp only [Prod.mk.injEq] at hstate
  have hqueue := h frameAcrossStop (List.prefix_refl _) s hs hstate.1
  rw [hstate.2] at hqueue
  cases hqueue

end RtspPush.CApi
