import RtspPush.Service.Resources
import RtspPush.Service.RunningFlag

/-!
# A session is set up with the arguments of its own `start`

`start` stores the port, the name and the credentials in members, and the RTSP thread reads them
much later, without the mutex. `session_configured`: as long as every `stop` makes its final store
when the RTSP thread has ended (which one controlling thread always does), what each session reads
is what the `start` that launched it was called with, and a server is created with an
authentication database exactly when that `start` gave credentials, which are then the ones in it.
-/

namespace RtspPush.Service

open Lib

variable {ι : Type}

/-- What `start` makes of its arguments. -/
def StartArgs.stored (args : StartArgs) : StartArgs where
  rtspPort := if args.rtspPort = 0 then 8554 else args.rtspPort
  streamName := if args.streamName = "" then "live" else args.streamName
  username := args.username
  password := args.password

/-- `start` asks for authentication. -/
def StartArgs.hasCredentials (args : StartArgs) : Prop := args.username ≠ "" ∨ args.password ≠ ""

/-- The members that `setupLive555` reads. -/
def State.config (s : State ι) : StartArgs :=
  ⟨s.rtspPort_, s.streamName_, s.username_, s.password_⟩

/-- What happens in the set-up of a session: the `start` that launches it, and where its thread
reads the members. -/
inductive SetupEvent
  | launched (args : StartArgs)
  | addUserRecord (session : Nat) (username password : String)
  | createServer (session : Nat) (rtspPort : UInt16) (authDB : Bool)
  | createServerMediaSession (session : Nat) (streamName : String)

/-- What a step shows of the set-up. -/
def setupEvents (s : State ι) : Action ι → List SetupEvent
  | .continueCall i =>
    match s.callers i with
    | .starting .launch args => if s.rtspThread_.isSome then [] else [.launched args]
    | _ => []
  | .rtsp _ =>
    match s.rtsp with
    | .createAuthDB =>
      if s.username_ ≠ "" ∨ s.password_ ≠ "" then
        [.addUserRecord s.session s.username_ s.password_]
      else []
    | .createServer => [.createServer s.session s.rtspPort_ s.authDB_]
    | .publishURL => [.createServerMediaSession s.session s.streamName_]
    | _ => []
  | _ => []

namespace SetupEvent

/-- The arguments of the `start` calls that launched the sessions, the first session first. -/
def launches (h : List SetupEvent) : List StartArgs :=
  h.flatMap fun
    | launched args => [args]
    | _ => []

/-- Session `n` was launched with `args`; the first session has number 1. -/
def LaunchedWith (h : List SetupEvent) (n : Nat) (args : StartArgs) : Prop :=
  ∃ k, n = k + 1 ∧ (launches h)[k]? = some args

/-- The event is what the arguments of its own session ask for. -/
def Proper (h : List SetupEvent) : SetupEvent → Prop
  | launched _ => True
  | addUserRecord n username password =>
    ∃ args, LaunchedWith h n args ∧ args.hasCredentials ∧ username = args.username ∧
      password = args.password
  | createServer n rtspPort authDB =>
    ∃ args, LaunchedWith h n args ∧ rtspPort = args.stored.rtspPort ∧
      (authDB = true ↔ args.hasCredentials) ∧
      (args.hasCredentials → addUserRecord n args.username args.password ∈ h)
  | createServerMediaSession n streamName =>
    ∃ args, LaunchedWith h n args ∧ streamName = args.stored.streamName

theorem LaunchedWith.append {h : List SetupEvent} {n : Nat} {args : StartArgs}
    (hl : LaunchedWith h n args) (more : List SetupEvent) : LaunchedWith (h ++ more) n args := by
  obtain ⟨k, hk, hargs⟩ := hl
  refine ⟨k, hk, ?_⟩
  rw [launches, List.flatMap_append, ← launches,
    List.getElem?_append_left (List.getElem?_eq_some_iff.mp hargs).1, hargs]

theorem Proper.append {h : List SetupEvent} {e : SetupEvent} (he : Proper h e)
    (more : List SetupEvent) : Proper (h ++ more) e := by
  cases e with
  | launched args => trivial
  | addUserRecord n username password =>
    obtain ⟨args, hl, hargs⟩ := he
    exact ⟨args, hl.append more, hargs⟩
  | createServer n rtspPort authDB =>
    obtain ⟨args, hl, hport, hauth, hadded⟩ := he
    exact ⟨args, hl.append more, hport, hauth, fun hc => List.mem_append_left more (hadded hc)⟩
  | createServerMediaSession n streamName =>
    obtain ⟨args, hl, hname⟩ := he
    exact ⟨args, hl.append more, hname⟩

end SetupEvent

open SetupEvent

/-! ## The members belong to the latest launch -/

/-- The members between the `config` of a `start` and the end of the RTSP thread it launches. -/
structure Configured (h : List SetupEvent) (s : State ι) : Prop where
  launches : (launches h).length = s.session
  starting : ∀ i point args, s.callers i = .starting point args → point ≠ .config →
    s.config = args.stored
  current : s.rtsp ≠ .ended → ∃ args, LaunchedWith h s.session args ∧ s.config = args.stored
  authDB : s.rtsp = .createServer → (s.authDB_ = true ↔ s.config.hasCredentials) ∧
    (s.config.hasCredentials → addUserRecord s.session s.username_ s.password_ ∈ h)
  proper : ∀ e ∈ h, Proper h e

namespace Configured

variable {s t : State ι} {h : List SetupEvent}

theorem new : Configured [] (.new : State ι) where
  launches := rfl
  starting _ _ _ h := by cases h
  current h := absurd rfl h
  authDB h := by cases h
  proper _ h := by cases h

/-- A caller moves, to a point of `start` whose arguments are stored if it is behind `config`. -/
theorem goOn [DecidableEq ι] (hs : Configured h s) {i : ι} {c : Caller}
    (hcallers : t.callers = (s.setCaller i c).callers) (hconfig : t.config = s.config)
    (hsession : t.session = s.session) (hrtsp : t.rtsp = s.rtsp) (hauth : t.authDB_ = s.authDB_)
    (hc : ∀ point args, c = .starting point args → point ≠ .config → s.config = args.stored) :
    Configured h t where
  launches := hsession ▸ hs.launches
  starting j point args hj hpoint := by
    rw [hcallers] at hj
    rw [hconfig]
    by_cases hji : j = i
    · exact hc point args (by simpa [hji] using hj) hpoint
    · exact hs.starting j point args (by simpa [hji] using hj) hpoint
  current := by
    rw [hrtsp, hsession, hconfig]
    exact hs.current
  authDB := by
    have hold := hs.authDB
    obtain ⟨-, -, husername, hpassword⟩ := StartArgs.mk.inj hconfig
    rw [hrtsp, hsession, hconfig, hauth, husername, hpassword]
    exact hold
  proper := hs.proper

/-- The RTSP thread moves on from a point at which it reads nothing, or has read `more`. -/
theorem rtsp (hs : Configured h s) (hstep : RtspStep s t) {more : List SetupEvent}
    (hmore : ∀ e ∈ more, Proper (h ++ more) e) (hlaunches : SetupEvent.launches more = [])
    (hauth : t.rtsp = .createServer → (t.authDB_ = true ↔ s.config.hasCredentials) ∧
      (s.config.hasCredentials → addUserRecord s.session s.username_ s.password_ ∈ more)) :
    Configured (h ++ more) t := by
  have hframe := hstep.frame
  have hconfig : t.config = s.config := by
    cases hstep with
    | cleanup point failed => cases point <;> rfl
    | _ => rfl
  refine ⟨?_, ?_, fun _ => ?_, fun hpoint => ?_, fun e he => ?_⟩
  · rw [SetupEvent.launches, List.flatMap_append, ← SetupEvent.launches, ← SetupEvent.launches,
      hlaunches, List.append_nil, hframe.session, hs.launches]
  · rw [hframe.callers, hconfig]
    exact hs.starting
  · obtain ⟨args, hl, hargs⟩ := hs.current hframe.live
    exact ⟨args, hframe.session ▸ hl.append more, hconfig.trans hargs⟩
  · obtain ⟨hiff, hadded⟩ := hauth hpoint
    obtain ⟨-, -, husername, hpassword⟩ := StartArgs.mk.inj hconfig
    rw [hconfig, hframe.session, husername, hpassword]
    exact ⟨hiff, fun hc => List.mem_append_right h (hadded hc)⟩
  · rcases List.mem_append.mp he with he | he
    · exact (hs.proper e he).append more
    · exact hmore e he

/-- Only the step behind `createAuthDB` leads to `createServer`. -/
theorem createServer_of {s t : State ι} (hstep : RtspStep s t) (ht : t.rtsp = .createServer) :
    s.rtsp = .createAuthDB := by
  cases hstep with
  | createAuthDB authDB h => exact h
  | cleanup point failed h => cases point <;> cases failed <;> cases ht
  | _ => cases ht

/-- The stored arguments have the credentials of the call. -/
theorem hasCredentials_stored {args : StartArgs} :
    args.stored.hasCredentials ↔ args.hasCredentials := Iff.rfl

/-- What the RTSP thread reads is what its own `start` has stored. -/
theorem rtspThreadMain (hr : Resources s) (hs : Configured h s) {reply : Reply}
    (hstep : s.rtspThreadMain reply = some t) :
    Configured (h ++ setupEvents s (.rtsp reply)) t := by
  have hstep' := RtspStep.of_rtspThreadMain hstep
  obtain ⟨args, hl, hargs⟩ := hs.current hstep'.frame.live
  have hcredentials : s.config.hasCredentials ↔ args.hasCredentials := by
    rw [hargs]
    exact hasCredentials_stored
  obtain ⟨hport, hname, husername, hpassword⟩ := StartArgs.mk.inj hargs
  have hnothing : s.rtsp ≠ .createAuthDB → s.rtsp ≠ .createServer → s.rtsp ≠ .publishURL →
      Configured (h ++ setupEvents s (.rtsp reply)) t := by
    intro hauth hserver hurl
    have hnone : setupEvents s (.rtsp reply) = [] := by
      simp only [setupEvents]
    rw [hnone]
    exact hs.rtsp hstep' (by simp) rfl fun hpoint => absurd (createServer_of hstep' hpoint) hauth
  cases hpoint : s.rtsp with
  | createAuthDB =>
    have hbefore : s.authDB_ = false := hr.authDB_eq (by rw [hpoint]; rfl)
    simp only [State.rtspThreadMain, hpoint, hbefore, decide_eq_true_eq, Option.some.injEq] at hstep
    simp only [setupEvents, hpoint]
    by_cases hc : s.username_ ≠ "" ∨ s.password_ ≠ ""
    · rw [if_pos hc]
      refine hs.rtsp hstep' (fun e he => ?_) rfl fun _ => ?_
      · rw [List.mem_singleton.mp he]
        exact ⟨args, hl.append _, hcredentials.mp hc, husername, hpassword⟩
      · subst hstep
        exact ⟨⟨fun _ => hc, fun _ => if_pos hc⟩, fun _ => List.mem_singleton_self _⟩
    · rw [if_neg hc]
      refine hs.rtsp hstep' (by simp) rfl fun _ => ?_
      subst hstep
      refine ⟨⟨fun hset => ?_, fun hc' => absurd hc' hc⟩, fun hc' => absurd hc' hc⟩
      rw [if_neg hc] at hset
      cases hset
  | createServer =>
    simp only [setupEvents, hpoint]
    obtain ⟨hiff, hadded⟩ := hs.authDB hpoint
    refine hs.rtsp hstep' (fun e he => ?_) rfl fun hnext => ?_
    · rw [List.mem_singleton.mp he]
      refine ⟨args, hl.append _, hport, hiff.trans hcredentials, fun hc => ?_⟩
      have hmem := hadded (hcredentials.mpr hc)
      rw [husername, hpassword] at hmem
      exact List.mem_append_left _ hmem
    · rw [createServer_of hstep' hnext] at hpoint
      cases hpoint
  | publishURL =>
    simp only [setupEvents, hpoint]
    refine hs.rtsp hstep' (fun e he => ?_) rfl fun hnext => ?_
    · rw [List.mem_singleton.mp he]
      exact ⟨args, hl.append _, hname⟩
    · rw [createServer_of hstep' hnext] at hpoint
      cases hpoint
  | _ => exact hnothing (by rw [hpoint]; simp) (by rw [hpoint]; simp) (by rw [hpoint]; simp)

variable [DecidableEq ι]

/-- The launch of the next session. -/
theorem launch (hs : Configured h s) {i : ι} {args : StartArgs}
    (hcall : s.callers i = .starting .launch args)
    (honly : ∀ j point args', j ≠ i → s.callers j ≠ .starting point args') :
    Configured (h ++ [.launched args]) { s.setCaller i .outside with
      rtspThread_ := some (s.session + 1)
      session := s.session + 1
      rtsp := .createScheduler
      mutex := none } where
  launches := by
    rw [SetupEvent.launches, List.flatMap_append, List.length_append, ← SetupEvent.launches,
      hs.launches]
    rfl
  starting j point args' hj hpoint := by
    by_cases hji : j = i
    · simp [hji] at hj
    · exact absurd (by simpa [hji] using hj) (honly j point args' hji)
  current _ := by
    refine ⟨args, ⟨s.session, rfl, ?_⟩, hs.starting i .launch args hcall (by simp)⟩
    rw [SetupEvent.launches, List.flatMap_append, ← SetupEvent.launches,
      List.getElem?_append_right (Nat.le_of_eq hs.launches), hs.launches, Nat.sub_self]
    rfl
  authDB hpoint := by cases hpoint
  proper e he := by
    rcases List.mem_append.mp he with he | he
    · exact (hs.proper e he).append _
    · rw [List.mem_singleton.mp he]
      trivial

/-- `start` stores its arguments while no RTSP thread is at work. -/
theorem store (hs : Configured h s) {i : ι} {args : StartArgs} (hended : s.rtsp = .ended)
    (honly : ∀ j point args', j ≠ i → s.callers j ≠ .starting point args') :
    Configured h (s.startNext i args .config) where
  launches := hs.launches
  starting j point args' hj _ := by
    by_cases hji : j = i
    · obtain ⟨-, rfl⟩ : StartPoint.clearWatch = point ∧ args = args' := by
        simpa [State.startNext, hji] using hj
      rfl
    · exact absurd (by simpa [State.startNext, hji] using hj) (honly j point args' hji)
  current hlive := absurd hended hlive
  authDB hpoint := by
    have hpoint : s.rtsp = .createServer := hpoint
    rw [hended] at hpoint
    cases hpoint
  proper := hs.proper

theorem step (hshared : Shared s) (hr : Resources s) (hserving : Serving s) (hs : Configured h s)
    {a : Action ι} (hstep : s.step a = some t) : Configured (h ++ setupEvents s a) t := by
  obtain ⟨hcrashed, htrans⟩ := Transition.of_step hstep
  -- whoever is inside a `start` holds the mutex, so nobody else is
  have honly : ∀ {i : ι} {point : StartPoint} {args : StartArgs},
      s.callers i = .starting point args →
        ∀ j point' args', j ≠ i → s.callers j ≠ .starting point' args' := by
    intro i point args hi j point' args' hne hj
    exact hne (hshared.1.eq_of_holdsMutex (by rw [hj]; rfl) (by rw [hi]; rfl))
  cases htrans with
  | rtsp reply t hrtsp =>
    have hmain : s.rtspThreadMain reply = some t := by simpa [State.step, hcrashed] using hstep
    exact hs.rtspThreadMain hr hmain
  | launch i args hcall hthread =>
    have hevent : setupEvents s (.continueCall i) = [.launched args] := by
      simp [setupEvents, hcall, hthread]
    rw [hevent]
    exact hs.launch hcall (honly hcall)
  | launchCrash i args hcall hthread =>
    have hevent : setupEvents s (.continueCall i) = [] := by simp [setupEvents, hcall, hthread]
    rw [hevent, List.append_nil]
    exact { hs with }
  | startNext i point args hcall hpoint =>
    have hevent : setupEvents s (.continueCall i) = [] := by
      cases point <;> simp_all [setupEvents]
    rw [hevent, List.append_nil]
    have hargs := hs.starting i point args hcall
    cases point with
    | config => exact hs.store (hserving.starting i .config args hcall) (honly hcall)
    | launch => exact absurd rfl hpoint
    | _ =>
      refine hs.goOn rfl rfl rfl rfl rfl fun point' args' hc _ => ?_
      cases hc
      exact hargs (by simp)
  | start i args hcall =>
    simp only [setupEvents, List.append_nil]
    refine hs.goOn rfl rfl rfl rfl rfl fun point' args' hc hpoint => ?_
    cases hc
    exact absurd rfl hpoint
  | startRunning => simpa only [setupEvents, List.append_nil] using hs
  | push =>
    simp only [setupEvents, List.append_nil]
    exact { hs with }
  | stopNotRunning i d =>
    simp only [setupEvents, List.append_nil]
    exact hs.goOn rfl rfl rfl rfl rfl (by cases d <;> intro _ _ hc <;> cases hc)
  | stop i d =>
    simp only [setupEvents, List.append_nil]
    exact hs.goOn rfl rfl rfl rfl rfl (by intro _ _ hc; cases hc)
  | clearRunning i d hcall =>
    simp only [setupEvents, hcall, List.append_nil]
    exact hs.goOn rfl rfl rfl rfl rfl (by cases d <;> intro _ _ hc <;> cases hc)
  | joinTwice i d thread hcall | joinCrash i d hcall | destroyCrash i hcall =>
    simp only [setupEvents, hcall, List.append_nil]
    exact { hs with }
  | setWatch i _ hcall | copyScheduler i _ hcall | copyTrigger i _ _ hcall | trigger i _ _ _ hcall
    | joinable i _ hcall | notJoinable i _ hcall | join i _ _ hcall | joined i _ _ hcall
    | destroyMembers i hcall =>
    simp only [setupEvents, hcall, List.append_nil]
    exact hs.goOn rfl rfl rfl rfl rfl (by intro _ _ hc; cases hc)

end Configured

/-- With one controlling thread every `stop` makes its final store when the RTSP thread has
ended: it has joined it. -/
theorem resetsWhenEnded_of_one_caller (as : List (Action Unit)) :
    (machine Unit).Along ResetsWhenEnded .new as := by
  refine Machine.Along.imp (P := fun _ _ => True) (I := Held) (fun s a t hs _ ht => ?_)
    (fun s a hs _ => ?_) Held.new (Machine.along_true _ _)
  · exact hs.transition (Transition.of_step ht).2
  · cases a with
    | continueCall i =>
      intro hreset
      obtain ⟨d, hcall⟩ := hreset.2.2
      exact hs.joined d hcall
    | _ => trivial

variable [DecidableEq ι]

/-- What the run `as` shows of its set-ups. -/
def shownSetup (as : List (Action ι)) : List SetupEvent :=
  (machine ι).observed setupEvents .new as

/-- Every session of the run is set up with the arguments of its own `start`. -/
def SetUpProperly (as : List (Action ι)) : Prop :=
  ∀ s, (machine ι).exec .new as = some s → (launches (shownSetup as)).length = s.session ∧
    ∀ e ∈ shownSetup as, Proper (shownSetup as) e

theorem setUpProperly_of_resets {as : List (Action ι)}
    (hP : (machine ι).Along ResetsWhenEnded .new as) : SetUpProperly as := by
  have hstep : ∀ h s a t, (Shared s ∧ Resources s ∧ Serving s) ∧ Configured h s →
      ResetsWhenEnded s a → (machine ι).step s a = some t →
        (Shared t ∧ Resources t ∧ Serving t) ∧ Configured (h ++ setupEvents s a) t := by
    rintro h s a t ⟨⟨hshared, hr, hserving⟩, hc⟩ ha ht
    obtain ⟨hcrashed, htrans⟩ := Transition.of_step ht
    exact ⟨⟨hshared.transition htrans, hr.transition hshared.1 htrans,
      hserving.transition hshared ha hcrashed htrans⟩, hc.step hshared hr hserving ht⟩
  intro s hrun
  have hall := Machine.invariant_observed_exec hstep
    ⟨⟨Shared.new, Resources.new, Serving.new⟩, Configured.new⟩ hP hrun
  exact ⟨hall.2.launches, hall.2.proper⟩

variable (ι) in
/-- **A session is set up with the arguments of its own `start`.** In every run of any number of
callers in which each `stop` makes its final store when the RTSP thread has ended, and so in every
run of one controlling thread, the sessions are the successful launches in order; and whatever the
RTSP thread of a session reads of the port, the name and the credentials is what the `start` that
launched it was called with, 8554 and "live" standing in for 0 and the empty name. Its server is
created with an authentication database exactly when that `start` gave a user name or a password,
and the database has got these as a user record. -/
theorem session_configured :
    (∀ as : List (Action ι), (machine ι).Along ResetsWhenEnded .new as → SetUpProperly as) ∧
      ∀ as : List (Action Unit), SetUpProperly as :=
  ⟨fun _ hP => setUpProperly_of_resets hP,
    fun as => setUpProperly_of_resets (resetsWhenEnded_of_one_caller as)⟩

/-- A session with a password, up to its URL. -/
def guardedSession : List (Action Unit) :=
  Action.start () ⟨0, "", "camera", "secret"⟩ :: List.replicate 5 (Action.continueCall ()) ++
    List.replicate 6 (Action.rtsp ⟨true, 1, some "rtsp://127.0.0.1:8554/live", 0⟩)

theorem guarded_session_configured :
    shownSetup guardedSession =
        [.launched ⟨0, "", "camera", "secret"⟩, .addUserRecord 1 "camera" "secret",
          .createServer 1 8554 true, .createServerMediaSession 1 "live"] ∧
      ∀ e ∈ shownSetup guardedSession, Proper (shownSetup guardedSession) e := by
  have hrun : (machine Unit).exec .new guardedSession = some _ := rfl
  exact ⟨rfl, ((session_configured Unit).2 guardedSession _ hrun).2⟩

end RtspPush.Service
