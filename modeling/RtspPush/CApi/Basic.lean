import RtspPush.Service.Basic

/-!
# The C API

`live555_rtsp_c_api.cpp`: one controlling thread calls `live555_rtsp_start`, `live555_rtsp_stop` and
`live555_rtsp_get_url`, any number of encoder threads call `live555_rtsp_push_h264_annexb`, and all
of them use the one `Live555RtspService`, whose RTSP thread runs beside them. A step is a step of
the service (a call of the API is its only caller, `()`), or the access of the API to `g_rtspURL`,
or a read of the service that the API decides on. Two things are histories: `published`, the values
that `setupLive555` has stored in `rtspURL_` with the number of the session, and the session that a
push carries with it from its check of `running_`.
-/

namespace RtspPush.CApi

open Lib Service

universe u

/-! ## Configuration -/

/-- `live555_rtsp_config_t`; a null pointer is `none`. -/
structure Config where
  rtsp_port : UInt16
  stream_name : Option String
  username : Option String
  password : Option String

/-- `live555_rtsp_config_init`. -/
def live555_rtsp_config_init : Config := ⟨8554, some "live", none, none⟩

/-- `safeCString`. -/
def safeCString (value : Option String) (fallback : String) : String := value.getD fallback

/-- The parameters that `live555_rtsp_start` passes to `Live555RtspService::start`. -/
def startArgs (config : Option Config) : StartArgs :=
  let config := config.getD live555_rtsp_config_init
  { rtspPort := if config.rtsp_port = 0 then 8554 else config.rtsp_port
    streamName := safeCString config.stream_name "live"
    username := safeCString config.username ""
    password := safeCString config.password "" }

/-! ## The state -/

/-- What the controlling thread is doing. The polling loop of `live555_rtsp_start` has the points
`readURL`, `checkRunning` and `sleep` in its round `i`; `launched` tells that this call has found no
session running and launched one. -/
inductive Control
  | outside
  /-- In `Live555RtspService::start`, behind its check of `running_`. -/
  | inStart
  | readURL (launched : Bool) (i : Nat)
  | checkRunning (launched : Bool) (i : Nat)
  | sleep (launched : Bool) (i : Nat)
  /-- `live555_rtsp_start` returns. -/
  | started (launched : Bool) (result : Int)
  /-- In `Live555RtspService::stop`, behind its check of `running_`. -/
  | inStop
  /-- Before `g_rtspURL.clear()` of `live555_rtsp_stop`. -/
  | clearURL
  /-- `live555_rtsp_get_url` returns. -/
  | gotURL (url : Option String)
  deriving DecidableEq

/-- What an encoder thread is doing. -/
inductive Encoder
  | outside
  /-- In `live555_rtsp_push_h264_annexb`, behind its checks, which have accepted the buffer in
  `session`. -/
  | pushing (session : Nat) (data : List UInt8) (timestampUs : UInt64)
  /-- `live555_rtsp_push_h264_annexb` returns. -/
  | pushed (result : Int)
  deriving DecidableEq

/-- The session that `running_` stands for: the latest, or the one that a `start` is about to launch
which has set `running_`. -/
def currentSession (s : Service.State Unit) : Nat :=
  match s.callers () with
  | .starting .launch _ => s.session + 1
  | _ => s.session

/-- The service, `g_rtspURL` and the threads. -/
structure State (ε : Type u) where
  service : Service.State Unit
  g_rtspURL : String
  control : Control
  encoders : ε → Encoder
  published : List (Nat × String)

namespace State

variable {ε : Type u}

/-- The library is loaded; `getInstance` makes the service. -/
def new : State ε where
  service := .new
  g_rtspURL := ""
  control := .outside
  encoders := fun _ => .outside
  published := []

/-! ## The calls of the controlling thread -/

/-- `live555_rtsp_start` into `Live555RtspService::start`. That returns true in any case, so
that the branch `return -1` is never taken. -/
def live555_rtsp_start (s : State ε) (config : Option Config) : Option (State ε) :=
  if s.control ≠ .outside then none
  else
    (s.service.step (.start () (startArgs config))).map fun service =>
      { s with
        service := service
        control := if service.callers () = .outside then .readURL false 0 else .inStart }

/-- `live555_rtsp_stop` into `Live555RtspService::stop`. -/
def live555_rtsp_stop (s : State ε) : Option (State ε) :=
  if s.control ≠ .outside then none
  else
    (s.service.step (.stop () false)).map fun service =>
      { s with
        service := service
        control := if service.callers () = .outside then .clearURL else .inStop }

/-- `live555_rtsp_get_url`; `rtspURL()` takes the mutex. -/
def live555_rtsp_get_url (s : State ε) : Option (State ε) :=
  if s.control ≠ .outside ∨ s.service.mutex.isSome then none
  else
    some { s with
      g_rtspURL := s.service.rtspURL_
      control := .gotURL (if s.service.rtspURL_ = "" then none else some s.service.rtspURL_) }

/-- The next step of the call that the controlling thread is in. -/
def continueCall (s : State ε) : Option (State ε) :=
  match s.control with
  | .outside => none
  | .inStart =>
    (s.service.step (.continueCall ())).map fun service =>
      { s with
        service := service
        control := if service.callers () = .outside then .readURL true 0 else .inStart }
  | .readURL launched i =>
    -- `g_rtspURL = rtspURL();`, which takes the mutex, and the test of `g_rtspURL`
    if s.service.mutex.isSome then none
    else
      some { s with
        g_rtspURL := s.service.rtspURL_
        control :=
          if s.service.rtspURL_ ≠ "" then .started launched 0 else .checkRunning launched i }
  | .checkRunning launched i =>
    some { s with
      control := if !s.service.running_ then .started launched (-2) else .sleep launched i }
  | .sleep launched i =>
    some { s with
      control := if i + 1 < 100 then .readURL launched (i + 1) else .started launched 0 }
  | .started _ _ => some { s with control := .outside }
  | .inStop =>
    (s.service.step (.continueCall ())).map fun service =>
      { s with
        service := service
        control := if service.callers () = .outside then .clearURL else .inStop }
  | .clearURL => some { s with g_rtspURL := "", control := .outside }
  | .gotURL _ => some { s with control := .outside }

/-! ## The calls of the encoder threads -/

variable [DecidableEq ε]

@[simp] def setEncoder (s : State ε) (e : ε) (encoder : Encoder) : State ε :=
  { s with encoders := fun e' => if e' = e then encoder else s.encoders e' }

/-- `live555_rtsp_push_h264_annexb`, the checks. `none` is a null `data`. -/
def live555_rtsp_push_h264_annexb (s : State ε) (e : ε) (data : Option (List UInt8))
    (timestampUs : UInt64) : Option (State ε) :=
  if s.encoders e ≠ .outside then none
  else
    match data with
    | none => some (s.setEncoder e (.pushed (-1)))
    | some [] => some (s.setEncoder e (.pushed (-1)))
    | some (byte :: bytes) =>
      if !s.service.running_ then some (s.setEncoder e (.pushed (-2)))
      else
        some (s.setEncoder e (.pushing (currentSession s.service) (byte :: bytes) timestampUs))

/-- The next step of the call that an encoder thread is in. -/
def continuePush (s : State ε) (e : ε) : Option (State ε) :=
  match s.encoders e with
  | .outside => none
  | .pushing _ data timestampUs =>
    -- `pushH264Frame(data, size, timestamp_us);`
    (s.service.step (.push (some data) timestampUs)).map fun service =>
      { s.setEncoder e (.pushed 0) with service := service }
  | .pushed _ => some (s.setEncoder e .outside)

end State

/-! ## The whole system -/

/-- What may happen next. -/
inductive Action (ε : Type u)
  | start (config : Option Config)
  | stop
  | getURL
  | continueCall
  | push (e : ε) (data : Option (List UInt8)) (timestampUs : UInt64)
  | continuePush (e : ε)
  | rtsp (reply : Reply)

namespace State

variable {ε : Type u} [DecidableEq ε]

/-- A step of the RTSP thread. -/
def rtspThread (s : State ε) (reply : Reply) : Option (State ε) :=
  (s.service.step (.rtsp reply)).map fun service =>
    { s with
      service := service
      published :=
        if s.service.rtsp = .publishURL then (s.service.session, service.rtspURL_) :: s.published
        else s.published }

/-- One step of the system; none behind a crash of the service. -/
def step (s : State ε) (a : Action ε) : Option (State ε) :=
  if s.service.crashed.isSome then none
  else
    match a with
    | .start config => s.live555_rtsp_start config
    | .stop => s.live555_rtsp_stop
    | .getURL => s.live555_rtsp_get_url
    | .continueCall => s.continueCall
    | .push e data timestampUs => s.live555_rtsp_push_h264_annexb e data timestampUs
    | .continuePush e => s.continuePush e
    | .rtsp reply => s.rtspThread reply

end State

/-- The C API as a machine. -/
def machine (ε : Type u) [DecidableEq ε] : Machine (State ε) (Action ε) := ⟨.new, State.step⟩

end RtspPush.CApi
