/-
The calls of a client: `MatrixCall` of `webrtc/call.js`.

A call goes from state to state as its methods are called, as what it has asked the browser and the
server for comes back, and as its timers run out. What is under way is a list of tasks; each ends in
its own time, well or not. A call is known by when it was made, and so is a stream of the camera and
the microphone.

Sessions, candidates of this side and the elements the streams are shown in are left out. A function
that throws leaves the calls as they are then, see [`Outcome`] for what a task can come to.
-/
import MatrixSdk.Lib.JsObject
import MatrixSdk.Lib.System
import Mathlib.Data.Nat.Notation

set_option autoImplicit false

namespace MatrixSdk.Calls

open MatrixSdk.Lib

/-! ## The calls of a client -/

inductive CallState
  | fledgling
  | waitLocalMedia
  | createOffer
  | inviteSent
  | ringing
  | createAnswer
  | connecting
  | connected
  | ended
  deriving DecidableEq

/-- A stream is what the user has granted, by number. The track of a second grant can be added. -/
abbrev MediaStream := List ℕ

/-- A call. Whether it has ever ended, and how often it emitted `hangup`, is observed. -/
structure MatrixCall (χ : Type*) where
  callId : String
  roomId : String
  state : CallState
  /-- `direction === 'outbound'` -/
  outbound : Bool
  /-- `peerConn`, with the remote candidates that were passed to it. -/
  peerConn : Option (List χ)
  localAVStream : Option MediaStream
  screenSharingStream : Option MediaStream
  remoteAStream : Bool
  waitForLocalAVStream : Bool
  successor : Option ℕ
  /-- `_answerContent` is set. -/
  answerContent : Bool
  hasEnded : Bool
  hangups : ℕ

/-- What is sent to the room. -/
inductive SentEvent
  | invite (a : ℕ)
  | answer (a : ℕ)
  | hangup (a : ℕ)
  deriving DecidableEq

/-- What is under way for a call. -/
inductive Task
  | displayMedia (a : ℕ)
  | userMediaForInvite (a : ℕ)
  | userMediaForAnswer (a : ℕ)
  | createOffer (a : ℕ)
  | setLocalOffer (a : ℕ)
  | sendInvite (a : ℕ)
  | inviteTimeout (a : ℕ)
  | createAnswer (a : ℕ)
  | setLocalAnswer (a : ℕ)
  | sendAnswer (a : ℕ)
  | inviteExpires (a : ℕ)
  deriving DecidableEq

inductive Outcome
  | succeeds
  /-- `PermissionDeniedError`, of media. -/
  | permissionDenied
  | fails
  deriving DecidableEq

/-- What `getUserMedia` has been answered. -/
inductive UserMedia
  | stream (stream : MediaStream)
  | permissionDenied
  | failed

inductive IceConnectionState
  /-- Or `completed`. -/
  | connected
  | failed
  | other

/-- What of the remote stream tells that it has begun. -/
inductive StreamStart
  /-- `_onRemoteStreamStarted` -/
  | stream
  /-- `_onRemoteStreamTrackStarted` -/
  | track
  /-- "OpenWebRTC does not support oniceconnectionstatechange yet" -/
  | openWebRtc

/-- The calls a client has made so far, and `callList`, in which they are found. The streams that
are live and whose they are, what has been sent, and the calls `Call.incoming` was emitted for,
are observed. -/
structure Client (χ : Type*) where
  call : ℕ → MatrixCall χ
  created : ℕ
  callList : JsObject String ℕ
  /-- A candidate that is no candidate is `none`. -/
  candidatesByCall : JsObject String (List (Option χ))
  tasks : List Task
  granted : ℕ
  live : ℕ → Bool
  owner : ℕ → ℕ
  sent : List SentEvent
  incoming : List String

variable {χ : Type*}

/-- `new MatrixCall` -/
def MatrixCall.new (callId roomId : String) : MatrixCall χ :=
  ⟨callId, roomId, .fledgling, false, none, none, none, false, false, none, false, false, 0⟩

/-- The user's streams that a call has. -/
def MatrixCall.held (call : MatrixCall χ) : List ℕ :=
  call.localAVStream.getD [] ++ call.screenSharingStream.getD []

/-- Whether a function returns or throws, it leaves the calls in a state. -/
def afterwards {σ : Type*} : Except σ σ → σ
  | .ok s => s
  | .error s => s

namespace Client

/-- A client without calls. -/
def new : Client χ :=
  ⟨fun _ => .new "" "", 0, .empty, .empty, [], 0, fun _ => false, fun _ => 0, [], []⟩

variable (s : Client χ)

def modify (a : ℕ) (f : MatrixCall χ → MatrixCall χ) : Client χ :=
  { s with call := Function.update s.call a (f (s.call a)) }

/-- `createNewMatrixCall`; the call is number `s.created`. -/
def newCall (callId roomId : String) : Client χ :=
  { s with
    call := Function.update s.call s.created (.new callId roomId)
    created := s.created + 1 }

def addTask (task : Task) : Client χ := { s with tasks := s.tasks ++ [task] }

def sendEvent (event : SentEvent) : Client χ := { s with sent := s.sent ++ [event] }

def setState (a : ℕ) (state : CallState) : Client χ :=
  s.modify a fun call =>
    { call with state := state, hasEnded := call.hasEnded || state == .ended }

def emitHangup (a : ℕ) : Client χ :=
  s.modify a fun call => { call with hangups := call.hangups + 1 }

/-! ## Ending a call -/

def stopAllMedia (a : ℕ) : Client χ :=
  { s with live := fun i => s.live i && !(s.call a).held.contains i }

def terminate (a : ℕ) (shouldEmit : Bool) : Client χ :=
  let s := (s.setState a .ended).stopAllMedia a
  if shouldEmit then s.emitHangup a else s

def hangup (a : ℕ) (suppressEvent : Bool) : Client χ :=
  if (s.call a).state = .ended then s
  else (s.terminate a (!suppressEvent)).sendEvent (.hangup a)

def getUserMediaFailed (a : ℕ) : Client χ := s.terminate a false

def onHangupReceived (a : ℕ) : Client χ := s.terminate a true

def onAnsweredElsewhere (a : ℕ) : Client χ := s.terminate a true

/-- "Remote stream ended" -/
def onRemoteStreamEnded (a : ℕ) : Client χ :=
  ((s.setState a .ended).stopAllMedia a).emitHangup a

/-- "Call invite has expired. Hanging up." -/
def inviteExpires (a : ℕ) : Client χ :=
  if (s.call a).state = .ringing then
    let s := (s.setState a .ended).stopAllMedia a
    if (s.call a).peerConn.isSome then s.emitHangup a else s
  else s

/-! ## Placing a call -/

/-- `_placeCallWithConstraints` -/
def placeCallWithConstraints (a : ℕ) : Client χ :=
  let s := { s with callList := s.callList.set (s.call a).callId a }
  let s := (s.addTask (.userMediaForInvite a)).setState a .waitLocalMedia
  s.modify a fun call => { call with outbound := true }

/-- The user has granted a stream for a call. -/
def grant (a : ℕ) : Client χ :=
  { s with
    granted := s.granted + 1
    live := Function.update s.live s.granted true
    owner := Function.update s.owner s.granted a }

/-- `getDisplayMedia` has returned. -/
def gotDisplayMedia (a : ℕ) : Outcome → Client χ
  | .succeeds =>
    let s' := (s.grant a).modify a fun call =>
      { call with screenSharingStream := some [s.granted] }
    s'.placeCallWithConstraints a
  | _ => s

/-- The stream is the call's now. -/
def takeStream (a : ℕ) (stream : MediaStream) : Client χ :=
  { s with owner := fun i => if i ∈ stream then a else s.owner i }.modify a fun call =>
    { call with localAVStream := some stream }

/-- `createAnswer` is called. -/
def startAnswer (a : ℕ) : Except (Client χ) (Client χ) :=
  if (s.call a).peerConn.isSome then .ok ((s.addTask (.createAnswer a)).setState a .createAnswer)
  else .error s

/-- `_maybeGotUserMediaForAnswer` -/
def maybeGotUserMediaForAnswer (a : ℕ) (media : UserMedia) : Except (Client χ) (Client χ) :=
  if (s.call a).state = .ended then .ok s
  else
    match media with
    | .stream stream => (s.takeStream a stream).startAnswer a
    | .permissionDenied => s.startAnswer a
    | .failed => .ok (s.getUserMediaFailed a)

/-- A new connection, of which an offer is made. -/
def startOffer (a : ℕ) : Client χ :=
  let s := s.modify a fun call => { call with peerConn := some [] }
  (s.addTask (.createOffer a)).setState a .createOffer

/-- The track is added to the stream of the screen, if there is one. -/
def withScreen (a : ℕ) (stream : MediaStream) : Client χ :=
  match (s.call a).screenSharingStream with
  | some screen =>
    let s := s.modify a fun call => { call with screenSharingStream := some (screen ++ stream) }
    s.takeStream a (screen ++ stream)
  | none => s.takeStream a stream

/-- `_maybeGotUserMediaForInvite` -/
def maybeGotUserMediaForInvite (a : ℕ) (media : UserMedia) : Except (Client χ) (Client χ) :=
  match (s.call a).successor with
  | some b => s.maybeGotUserMediaForAnswer b media
  | none =>
    if (s.call a).state = .ended then .ok s
    else
      match media with
      | .stream stream => .ok ((s.withScreen a stream).startOffer a)
      | .permissionDenied => .ok (s.startOffer a)
      | .failed => .ok (s.getUserMediaFailed a)

/-- `getUserMedia` has returned; for `a`, with the number of the stream. -/
def userMedia (a : ℕ) : Outcome → Client χ × UserMedia
  | .succeeds => (s.grant a, .stream [s.granted])
  | .permissionDenied => (s, .permissionDenied)
  | .fails => (s, .failed)

/-- `_gotLocalOffer` -/
def gotLocalOffer (a : ℕ) : Client χ :=
  if (s.call a).state = .ended then s else s.addTask (.setLocalOffer a)

/-- The local description is set, and the invite is sent. -/
def sendInvite (a : ℕ) : Client χ := (s.sendEvent (.invite a)).addTask (.sendInvite a)

/-- The invite has been sent, or not. -/
def inviteSent (a : ℕ) : Outcome → Client χ
  | .succeeds => (s.setState a .inviteSent).addTask (.inviteTimeout a)
  | _ => s.terminate a false

def inviteTimeout (a : ℕ) : Client χ :=
  if (s.call a).state = .inviteSent then s.hangup a false else s

/-! ## Answering a call -/

/-- `_sendAnswer` -/
def sendAnswer (a : ℕ) : Client χ := (s.sendEvent (.answer a)).addTask (.sendAnswer a)

def answer (a : ℕ) : Except (Client χ) (Client χ) :=
  if (s.call a).answerContent then .ok (s.sendAnswer a)
  else
    match (s.call a).localAVStream with
    | some stream => s.maybeGotUserMediaForAnswer a (.stream stream)
    | none =>
      if (s.call a).waitForLocalAVStream then .ok (s.setState a .waitLocalMedia)
      else .ok ((s.addTask (.userMediaForAnswer a)).setState a .waitLocalMedia)

/-- The local description is set, and the answer is sent. -/
def setAnswerContent (a : ℕ) : Client χ :=
  (s.modify a fun call => { call with answerContent := true }).sendAnswer a

/-- The answer has been sent, or not. -/
def answerSent (a : ℕ) : Outcome → Client χ
  | .succeeds => s.setState a .connecting
  | _ => s.setState a .ringing

/-- `_receivedAnswer`; `described` when a description can be made of the answer. -/
def receivedAnswer (a : ℕ) (described : Bool) : Except (Client χ) (Client χ) :=
  if (s.call a).state = .ended then .ok s
  else if (s.call a).peerConn.isSome && described then .ok (s.setState a .connecting)
  else .error s

/-- `_gotRemoteIceCandidate` -/
def gotRemoteIceCandidate (a : ℕ) (cand : Option χ) : Except (Client χ) (Client χ) :=
  if (s.call a).state = .ended then .ok s
  else
    match cand, (s.call a).peerConn with
    | some cand, some passed =>
      .ok (s.modify a fun call => { call with peerConn := some (passed ++ [cand]) })
    | _, _ => .error s

/-! ## Glare -/

/-- "Handing local stream to new call". Where there is none, its name is asked for. -/
def handStream (a b : ℕ) : Except (Client χ) (Client χ) :=
  match (s.call a).localAVStream with
  | some stream =>
    (s.maybeGotUserMediaForAnswer b (.stream stream)).map fun s =>
      s.modify a fun call => { call with localAVStream := none }
  | none => if (s.call b).state = .ended then .ok s else .error s

/-- The new call waits for the stream, or gets it. -/
def handOver (a b : ℕ) : Except (Client χ) (Client χ) :=
  match (s.call a).state with
  | .waitLocalMedia => .ok (s.modify b fun call => { call with waitForLocalAVStream := true })
  | .createOffer | .inviteSent => s.handStream a b
  | _ => .ok s

def giveWay (a b : ℕ) : Client χ :=
  (s.modify a fun call => { call with successor := some b }).hangup a false

/-- `_replacedBy`: call `a` is replaced by call `b`. -/
def replacedBy (a b : ℕ) : Except (Client χ) (Client χ) :=
  (s.handOver a b).map fun s => s.giveWay a b

/-! ## The peer connection -/

/-- `_onIceConnectionStateChanged` -/
def onIceConnectionStateChanged (a : ℕ) (ice : IceConnectionState) : Client χ :=
  if (s.call a).state = .ended then s
  else
    match ice with
    | .connected => s.setState a .connected
    | .failed => s.hangup a false
    | .other => s

/-- `_onAddStream` -/
def onAddStream (a : ℕ) : Client χ := s.modify a fun call => { call with remoteAStream := true }

/-- Each of these sets the state. -/
def onRemoteStreamStarted (a : ℕ) : StreamStart → Client χ
  | .stream => s.setState a .connected
  | .track => s.setState a .connected
  | .openWebRtc => s.setState a .connected

/-! ## Tasks -/

/-- What is under way has come to its end. -/
def complete : Task → Outcome → Client χ
  | .displayMedia a, outcome => s.gotDisplayMedia a outcome
  | .userMediaForInvite a, outcome =>
    let (s, media) := s.userMedia a outcome
    afterwards (s.maybeGotUserMediaForInvite a media)
  | .userMediaForAnswer a, outcome =>
    let (s, media) := s.userMedia a outcome
    afterwards (s.maybeGotUserMediaForAnswer a media)
  | .createOffer a, .succeeds => s.gotLocalOffer a
  | .createOffer _, _ => s
  | .setLocalOffer a, .succeeds => s.sendInvite a
  | .setLocalOffer _, _ => s
  | .sendInvite a, outcome => s.inviteSent a outcome
  | .inviteTimeout a, _ => s.inviteTimeout a
  | .createAnswer a, .succeeds => s.addTask (.setLocalAnswer a)
  | .createAnswer _, _ => s
  | .setLocalAnswer a, .succeeds => s.setAnswerContent a
  | .setLocalAnswer _, _ => s
  | .sendAnswer a, outcome => s.answerSent a outcome
  | .inviteExpires a, _ => s.inviteExpires a

end Client

/-- What the user, the browser and the server do, apart from the events of calls that are
received. -/
inductive LocalEvent
  /-- `createCall`; the id is made of the time and a random number. -/
  | createCall (callId roomId : String)
  /-- `placeVoiceCall`, `placeVideoCall` -/
  | placeCall (a : ℕ)
  | placeScreenSharingCall (a : ℕ)
  | answer (a : ℕ)
  | hangup (a : ℕ) (suppressEvent : Bool)
  | completes (task : Task) (outcome : Outcome)
  | iceConnectionStateChanges (a : ℕ) (ice : IceConnectionState)
  | streamAdded (a : ℕ)
  | remoteStreamStarts (a : ℕ) (start : StreamStart)
  | remoteStreamEnds (a : ℕ)

namespace Client

variable (s : Client χ)

/-- No call has this id. -/
def isFresh (callId : String) : Bool :=
  (List.range s.created).all fun a => (s.call a).callId ≠ callId

/-- One stretch of code. A task is completed once, and a stream is one of a connection. -/
def localStep : LocalEvent → Option (Client χ)
  | .createCall callId roomId => if s.isFresh callId then some (s.newCall callId roomId) else none
  | .placeCall a => if a < s.created then some (s.placeCallWithConstraints a) else none
  | .placeScreenSharingCall a => if a < s.created then some (s.addTask (.displayMedia a)) else none
  | .answer a => if a < s.created then some (afterwards (s.answer a)) else none
  | .hangup a suppressEvent => if a < s.created then some (s.hangup a suppressEvent) else none
  | .completes task outcome =>
    if task ∈ s.tasks then some ({ s with tasks := s.tasks.erase task }.complete task outcome)
    else none
  | .iceConnectionStateChanges a ice =>
    if a < s.created ∧ (s.call a).peerConn.isSome then some (s.onIceConnectionStateChanged a ice)
    else none
  | .streamAdded a =>
    if a < s.created ∧ (s.call a).peerConn.isSome then some (s.onAddStream a) else none
  | .remoteStreamStarts a start =>
    if (s.call a).remoteAStream then some (s.onRemoteStreamStarted a start) else none
  | .remoteStreamEnds a =>
    if (s.call a).remoteAStream then some (s.onRemoteStreamEnded a) else none

end Client

/-! ## Other calls -/

theorem modify_call_self (s : Client χ) (a : ℕ) (f : MatrixCall χ → MatrixCall χ) :
    (s.modify a f).call a = f (s.call a) :=
  Function.update_self _ _ _

theorem modify_call_ne (s : Client χ) {a b : ℕ} (hb : b ≠ a) (f : MatrixCall χ → MatrixCall χ) :
    (s.modify a f).call b = s.call b :=
  Function.update_of_ne hb _ _

theorem takeStream_call (s : Client χ) (a : ℕ) (stream : MediaStream) :
    (s.takeStream a stream).call =
      (s.modify a fun call => { call with localAVStream := some stream }).call :=
  rfl

/-- What ending a call sets. -/
def ending (call : MatrixCall χ) : MatrixCall χ :=
  { call with state := .ended, hasEnded := call.hasEnded || CallState.ended == .ended }

theorem endCall_call (s : Client χ) (a : ℕ) :
    ((s.setState a .ended).stopAllMedia a).call = (s.modify a ending).call :=
  rfl

theorem terminate_call_ne (s : Client χ) {a b : ℕ} (hb : b ≠ a) (shouldEmit : Bool) :
    (s.terminate a shouldEmit).call b = s.call b := by
  have hended : ((s.setState a .ended).stopAllMedia a).call b = s.call b := by
    rw [endCall_call, modify_call_ne s hb]
  cases shouldEmit with
  | true =>
    show (((s.setState a .ended).stopAllMedia a).emitHangup a).call b = s.call b
    rw [Client.emitHangup, modify_call_ne _ hb, hended]
  | false => exact hended

/-- A hangup is about one call. -/
theorem hangup_call_ne (s : Client χ) {a b : ℕ} (hb : b ≠ a) (suppressEvent : Bool) :
    (s.hangup a suppressEvent).call b = s.call b := by
  rw [Client.hangup]
  split
  · rfl
  · exact terminate_call_ne s hb _

theorem terminate_created (s : Client χ) (a : ℕ) (shouldEmit : Bool) :
    (s.terminate a shouldEmit).created = s.created := by
  cases shouldEmit <;> rfl

theorem hangup_created (s : Client χ) (a : ℕ) (suppressEvent : Bool) :
    (s.hangup a suppressEvent).created = s.created := by
  rw [Client.hangup]
  split
  · rfl
  · exact terminate_created s a _

/-- **The call that gets a stream** is the only one that changes, and does not end. -/
theorem gotStream_spec {s s' : Client χ} {a : ℕ} {stream : MediaStream}
    (hok : s.maybeGotUserMediaForAnswer a (.stream stream) = .ok s')
    (hnot : (s.call a).state ≠ .ended) :
    (s'.call a).state ≠ .ended ∧ s'.created = s.created ∧ (∀ i ∈ stream, s'.owner i = a) ∧
      ∀ b, b ≠ a → s'.call b = s.call b := by
  unfold Client.maybeGotUserMediaForAnswer at hok
  rw [if_neg hnot] at hok
  dsimp only at hok
  unfold Client.startAnswer at hok
  split at hok
  · obtain rfl := Except.ok.inj hok
    refine ⟨?_, rfl, fun i hi => if_pos hi, fun b hb => ?_⟩
    · rw [Client.setState, modify_call_self]
      exact nofun
    · rw [Client.setState, modify_call_ne _ hb]
      show (s.takeStream a stream).call b = _
      rw [takeStream_call, modify_call_ne s hb]
  · exact nomatch hok

/-- A candidate changes the connection of one call at most. -/
theorem gotRemoteIceCandidate_spec (s : Client χ) (a : ℕ) (cand : Option χ) :
    ∃ peerConn, afterwards (s.gotRemoteIceCandidate a cand) =
      s.modify a fun call => { call with peerConn := peerConn } := by
  have hsame : s = s.modify a fun call => { call with peerConn := (s.call a).peerConn } := by
    rw [Client.modify, Function.update_eq_self]
  unfold Client.gotRemoteIceCandidate
  split
  · exact ⟨(s.call a).peerConn, hsame⟩
  · split
    next cand passed hpassed => exact ⟨some (passed ++ [cand]), rfl⟩
    · exact ⟨(s.call a).peerConn, hsame⟩

end MatrixSdk.Calls
