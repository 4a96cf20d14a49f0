/-
The state machine of a verification request: `crypto/verification/request/VerificationRequest.js`,
with as much of its verifier (`crypto/verification/Base.js`) as it depends on.

A request keeps the events of both sides and works out from them how far they have got
([`EventLog.calculatePhaseTransitions`]). More events lead further ([`EventLog.Grows.forward`]),
unless they complete what has been cancelled; a request event may also put an end to what came
before it.
-/
import MatrixSdk.Crypto.Verification
import Mathlib.Data.Nat.Notation

set_option autoImplicit false

namespace MatrixSdk.Crypto

open MatrixSdk.Lib

/-! ## Events and phases -/

/-- The symbolic type of an event. -/
inductive VerificationType
  | request
  | ready
  | start
  | cancel
  | done
  | accept
  | key
  | mac
  | other (name : String)
  deriving DecidableEq

/-- What is read of an event. -/
structure VerificationEvent where
  id : String
  sender : String
  from_device : Option String
  /-- Of a request or ready event. -/
  methods : List String
  /-- Of a start event. -/
  method : Option String
  deriving DecidableEq

inductive Phase
  | unsent
  | requested
  | ready
  | started
  | cancelled
  | done
  deriving DecidableEq

/-- An item of `_calculatePhaseTransitions`. -/
structure PhaseTransition where
  phase : Phase
  event : Option VerificationEvent
  deriving DecidableEq

/-- Who we are, and what the channel and the client allow. -/
structure RequestContext where
  userId : String
  deviceId : String
  /-- The keys of `_verificationMethods`. -/
  verificationMethods : List String
  /-- `channel.constructor.canCreateRequest(START_TYPE)` -/
  canCreateFromStart : Bool
  receiveStartFromOtherDevices : Bool

def SCAN_QR_CODE_METHOD : String := "m.qr_code.scan.v1"

def SAS_NAME : String := "m.sas.v1"

namespace RequestContext

variable (ctx : RequestContext)

def wasSentByOwnUser (event : VerificationEvent) : Bool := event.sender = ctx.userId

def wasSentByOwnDevice (event : VerificationEvent) : Bool :=
  ctx.wasSentByOwnUser event && event.from_device = some ctx.deviceId

end RequestContext

/-! ## How far the events lead -/

/-- The events of both sides, and what the verifier has told. -/
structure EventLog where
  eventsByUs : JsObject VerificationType VerificationEvent
  eventsByThem : JsObject VerificationType VerificationEvent
  verifierHasFinished : Bool
  cancelled : Bool

namespace EventLog

variable (canCreateFromStart : Bool) (log : EventLog)

def getEventByEither (type : VerificationType) : Option VerificationEvent :=
  (log.eventsByThem.get type).or (log.eventsByUs.get type)

def getEventBy (type : VerificationType) (byThem : Bool) : Option VerificationEvent :=
  if byThem then log.eventsByThem.get type else log.eventsByUs.get type

def hasRequestByThem : Bool := (log.eventsByThem.get .request).isSome

def requestEvent : Option VerificationEvent := log.getEventBy .request log.hasRequestByThem

def readyEvent : Option VerificationEvent :=
  if log.requestEvent.isSome then log.getEventBy .ready !log.hasRequestByThem else none

/-- The start event that counts. -/
def startEvent : Option VerificationEvent :=
  if log.readyEvent.isSome || log.requestEvent.isNone then
    -- any party can send .start after a .ready or unsent
    match log.eventsByThem.get .start, log.eventsByUs.get .start with
    | some theirStartEvent, some ourStartEvent =>
      if utf16 theirStartEvent.sender < utf16 ourStartEvent.sender then some theirStartEvent
      else some ourStartEvent
    | theirStartEvent, ourStartEvent => theirStartEvent.or ourStartEvent
  else log.getEventBy .start !log.hasRequestByThem

/-- The phase of the last transition. -/
def phaseOf (transitions : List PhaseTransition) : Phase :=
  match transitions.getLast? with
  | some transition => transition.phase
  | none => .unsent

def addRequested (transitions : List PhaseTransition) : List PhaseTransition :=
  match log.requestEvent with
  | some event => transitions ++ [⟨.requested, some event⟩]
  | none => transitions

def addReady (transitions : List PhaseTransition) : List PhaseTransition :=
  match log.readyEvent with
  | some event =>
    if phaseOf transitions = .requested then transitions ++ [⟨.ready, some event⟩] else transitions
  | none => transitions

def addStarted (transitions : List PhaseTransition) : List PhaseTransition :=
  match log.startEvent with
  | some event =>
    let fromRequestPhase := phaseOf transitions = .requested ∧
      log.requestEvent.map VerificationEvent.sender ≠ some event.sender
    let fromUnsentPhase := phaseOf transitions = .unsent ∧ canCreateFromStart = true
    if fromRequestPhase ∨ phaseOf transitions = .ready ∨ fromUnsentPhase then
      transitions ++ [⟨.started, some event⟩]
    else transitions
  | none => transitions

def addDone (transitions : List PhaseTransition) : List PhaseTransition :=
  if log.verifierHasFinished = true ∨
      (log.eventsByUs.get .done).isSome ∧ phaseOf transitions = .started then
    transitions ++ [⟨.done, none⟩]
  else transitions

def addCancelled (transitions : List PhaseTransition) : List PhaseTransition :=
  let cancelEvent := log.getEventByEither .cancel
  if (log.cancelled = true ∨ cancelEvent.isSome) ∧ phaseOf transitions ≠ .done then
    transitions ++ [⟨.cancelled, cancelEvent⟩]
  else transitions

def calculatePhaseTransitions : List PhaseTransition :=
  log.addCancelled (log.addDone (log.addStarted canCreateFromStart
    (log.addReady (log.addRequested [⟨.unsent, none⟩]))))

/-- How far the events lead. -/
def lastPhase : Phase := phaseOf (log.calculatePhaseTransitions canCreateFromStart)

/-- `_addEvent`; the other party is known once there is a request event. -/
def addEvent (otherUserId : Option String) (type : VerificationType) (event : VerificationEvent)
    (isSentByUs : Bool) : EventLog :=
  let added : EventLog :=
    if isSentByUs then { log with eventsByUs := log.eventsByUs.set type event }
    else { log with eventsByThem := log.eventsByThem.set type event }
  if type = .request then
    { added with eventsByThem := added.eventsByThem.filter fun type =>
        (added.eventsByThem.get type).map VerificationEvent.sender = otherUserId }
  else added

end EventLog

/-! ## The verifier -/

/-- What the request depends on of a verifier. -/
structure Verifier where
  method : String
  startEvent : Option VerificationEvent
  /-- `_done` -/
  settled : Bool
  /-- There is a `_promise`. -/
  promised : Bool
  /-- There is a `_reject`. -/
  rejectable : Bool
  waitingForAccept : Bool
  expectedEvent : Option VerificationType
  /-- There is a `_rejectEvent`. -/
  waiting : Bool

namespace Verifier

variable (v : Verifier)

def new (method : String) (startEvent : Option VerificationEvent) : Verifier where
  method := method
  startEvent := startEvent
  settled := false
  promised := false
  rejectable := false
  waitingForAccept := false
  expectedEvent := none
  waiting := false

/-- `events`, which only the verifier of `SAS.js` has. -/
def events : List VerificationType := if v.method = SAS_NAME then [.accept, .key, .mac] else []

/-- Only the verifier of `SAS.js` can. -/
def canSwitchStartEvent (type : VerificationType) (event : VerificationEvent) : Bool :=
  v.method = SAS_NAME ∧ type = .start ∧ event.method = some SAS_NAME ∧ v.waitingForAccept = true

/-- The wait for an event is ended, or else the start event is another one from now on. -/
def switchStartEvent (event : VerificationEvent) : Verifier :=
  if v.waiting then { v with waiting := false } else { v with startEvent := some event }

/-- `handleEvent`, and whether it calls `cancel`. -/
def handleEvent (type : VerificationType) : Verifier × Bool :=
  if v.settled then (v, false)
  else if v.expectedEvent = some type then
    if type = .done then (v, false) else ({ v with expectedEvent := none, waiting := false }, false)
  else if type = .cancel then
    if v.rejectable then ({ v with rejectable := false, settled := true }, false) else (v, false)
  else if v.expectedEvent.isSome then ({ v with expectedEvent := none, waiting := false }, true)
  else (v, false)

/-- What `cancel` does to the verifier. -/
def cancel : Verifier :=
  if v.promised then { v with settled := v.settled || v.rejectable } else { v with promised := true }

/-- `verify` -/
def verify : Verifier :=
  if v.promised then v else { v with promised := true, rejectable := true }

end Verifier

/-! ## The request -/

structure RequestState where
  phase : Phase
  log : EventLog
  /-- `channel.userId` -/
  otherUserId : Option String
  observeOnly : Bool
  timeoutTimer : Bool
  accepting : Bool
  declining : Bool
  commonMethods : List String
  chosenMethod : Option String
  verifier : Option Verifier

/-- The transitions that the phase has not gone through. -/
def newTransitions (phase : Phase) (transitions : List PhaseTransition) : List PhaseTransition :=
  match transitions.findIdx? fun transition => transition.phase = phase with
  | some existingIdx => transitions.drop (existingIdx + 1)
  | none => transitions

namespace RequestState

variable (ctx : RequestContext) (s : RequestState)

def new (otherUserId : Option String) : RequestState where
  phase := .unsent
  log := ⟨.empty, .empty, false, false⟩
  otherUserId := otherUserId
  observeOnly := false
  timeoutTimer := false
  accepting := false
  declining := false
  commonMethods := []
  chosenMethod := none
  verifier := none

def isSelfVerification : Bool := s.otherUserId = some ctx.userId

def initiatedByMe : Bool :=
  let noEventsYet := s.log.eventsByUs.keys.length + s.log.eventsByThem.keys.length = 0
  let hasMyRequest := (s.log.eventsByUs.get .request).isSome
  let hasTheirRequest := (s.log.eventsByThem.get .request).isSome
  let hasMyStart := (s.log.eventsByUs.get .start).isSome
  let hasTheirStart := (s.log.eventsByThem.get .start).isSome
  if s.phase = .unsent ∧ noEventsYet then true
  else if hasMyRequest && !hasTheirRequest then true
  else if !hasMyRequest && hasTheirRequest then false
  else hasMyStart && !hasTheirStart

/-- The first event of the other party, which has its device. -/
def theirFirstEvent : Option VerificationEvent :=
  ((s.log.eventsByThem.get .request).or (s.log.eventsByThem.get .ready)).or
    (s.log.eventsByThem.get .start)

/-- `otherPartySupportsMethod(method, true)` -/
def otherPartySupportsMethod (method : String) : Bool :=
  match (s.log.eventsByThem.get .request).or (s.log.eventsByThem.get .ready) with
  | some theirMethodEvent => theirMethodEvent.methods.contains method
  | none =>
    if s.phase = .started ∧ s.initiatedByMe then
      (s.log.eventsByUs.get .start).bind VerificationEvent.method = some method
    else false

/-- `cancel`, when there is no verifier: a cancellation is sent. -/
def cancelUnverified : RequestState :=
  if !s.observeOnly ∧ s.phase ≠ .cancelled then { s with declining := true } else s

/-- The common methods are those of the other party that we have too. -/
def takeMethods (phase : Phase) (event : VerificationEvent) : RequestState :=
  if phase ≠ .started ∧ ctx.wasSentByOwnDevice event = false then
    { s with commonMethods := event.methods.filter (ctx.verificationMethods.contains ·) }
  else s

/-- If requested or accepted by one of our other devices, we just observe. -/
def observeOtherDevice (event : VerificationEvent) : RequestState :=
  if ctx.receiveStartFromOtherDevices && ctx.wasSentByOwnUser event &&
      !ctx.wasSentByOwnDevice event then { s with observeOnly := true }
  else s

/-- The verifier is created, and whether this returns: it throws if the other party's device is not
known. -/
def createVerifier (phase : Phase) (event : VerificationEvent) : RequestState × Bool :=
  if phase = .started ∧ s.verifier.isNone ∧ s.observeOnly = false then
    match s.theirFirstEvent, event.method with
    | none, _ => (s, false)
    | some _, some method =>
      if ctx.verificationMethods.contains method then
        ({ s with
            verifier := some (.new method (some event)), chosenMethod := some method }, true)
      else (s.cancelUnverified, true)
    | some _, none => (s.cancelUnverified, true)
  else (s, true)

/-- `_transitionToPhase`, and whether it returns. -/
def transitionToPhase (transition : PhaseTransition) : RequestState × Bool :=
  match transition.phase, transition.event with
  | .requested, some event | .ready, some event | .started, some event =>
    ((s.takeMethods ctx transition.phase event).observeOtherDevice ctx event).createVerifier ctx
      transition.phase event
  | _, _ => (s, true)

/-- The loop of `_applyPhaseTransitions`. -/
def transitionToPhases (s : RequestState) : List PhaseTransition → RequestState × Bool
  | [] => (s, true)
  | transition :: transitions =>
    match s.transitionToPhase ctx transition with
    | (s, true) => s.transitionToPhases transitions
    | (s, false) => (s, false)

/-- The transitions that `_applyPhaseTransitions` makes. -/
def pendingTransitions : List PhaseTransition :=
  newTransitions s.phase (s.log.calculatePhaseTransitions ctx.canCreateFromStart)

def setPhase (phase : Phase) : RequestState := { s with phase := phase }

/-- What `onVerifierCancelled` and `onVerifierFinished` have in common. -/
def applyAndSet : RequestState :=
  match s.transitionToPhases ctx (s.pendingTransitions ctx) with
  | (t, true) =>
    if s.pendingTransitions ctx = [] then t
    else t.setPhase (EventLog.phaseOf (s.pendingTransitions ctx))
  | (t, false) => t

def onVerifierCancelled : RequestState :=
  { s with log := { s.log with cancelled := true } }.applyAndSet ctx

def onVerifierFinished : RequestState :=
  { s with log := { s.log with verifierHasFinished := true } }.applyAndSet ctx

/-- `_setupTimeout` -/
def setupTimeout (phase : Phase) : RequestState :=
  let shouldTimeout := !s.timeoutTimer && !s.observeOnly && phase = .requested
  let timer := s.timeoutTimer || shouldTimeout
  let shouldClear := phase = .started ∨ phase = .ready ∨ phase = .done ∨ phase = .cancelled
  { s with timeoutTimer := timer && !shouldClear }

end RequestState

/-! ## Handling an event -/

/-- The arguments of `handleEvent`. `expiring` says that the request has almost timed out. -/
structure HandleCall where
  type : VerificationType
  event : VerificationEvent
  isLiveEvent : Bool
  isRemoteEcho : Bool
  isSentByUs : Bool
  expiring : Bool

/-- What is left of a `handleEvent` call: to set the phase. `version` counts the changes of the
events that it has taken into account. -/
structure PhaseCall where
  phase : Phase
  version : ℕ
  deriving DecidableEq

namespace RequestState

variable (ctx : RequestContext) (s : RequestState)

/-- `cancel` of the verifier. -/
def cancelVerifier (v : Verifier) : RequestState :=
  if v.settled then s
  else
    let t := s.onVerifierCancelled ctx
    { t with verifier := some v.cancel }

/-- Whether `_cancelOnError` cancels. -/
def cancelsOnError (type : VerificationType) (event : VerificationEvent) : Bool :=
  let isUnknownMethod := type = .start ∧
    (event.method.all fun method => !ctx.verificationMethods.contains method) = true
  let isUnexpectedRequest := type = .request ∧ s.phase ≠ .unsent
  let isUnexpectedReady := type = .ready ∧ s.phase ≠ .requested
  isUnknownMethod ∨ s.phase ≠ .unsent ∧ (isUnexpectedRequest ∨ isUnexpectedReady)

def isDuplicateEvent (call : HandleCall) : Bool :=
  if call.isSentByUs then (s.log.eventsByUs.get call.type).isSome
  else (s.log.eventsByThem.get call.type).isSome

/-- `_isWinningStartRace` -/
def isWinningStartRace (v : Verifier) (type : VerificationType) (newEvent : VerificationEvent) :
    Bool :=
  if type = .start then
    if s.isSelfVerification ctx then
      let oldRaceIdentifier := match v.startEvent with
        | some oldEvent => oldEvent.from_device
        | none => some ctx.deviceId
      match newEvent.from_device, oldRaceIdentifier with
      | some new, some old => utf16 new < utf16 old
      | _, _ => false
    else
      let oldRaceIdentifier := match v.startEvent with
        | some oldEvent => oldEvent.sender
        | none => ctx.userId
      utf16 newEvent.sender < utf16 oldRaceIdentifier
  else false

/-- The event is handed to the verifier. The verifier may cancel then. -/
def passToVerifier (call : HandleCall) : RequestState × Bool :=
  match s.verifier with
  | none => (s, false)
  | some v =>
    if s.observeOnly then (s, false)
    else if v.canSwitchStartEvent call.type call.event &&
        s.isWinningStartRace ctx v call.type call.event then
      ({ s with verifier := some (v.switchStartEvent call.event) }, false)
    else if call.isRemoteEcho then (s, false)
    else if call.type = .cancel ∨ call.type ∈ v.events then
      match v.handleEvent call.type with
      | (v, true) => (({ s with verifier := some v } : RequestState).cancelVerifier ctx v, true)
      | (v, false) => ({ s with verifier := some v }, false)
    else (s, false)

/-- The QR code is made before the phase is set. -/
def createsQRCode (call : HandleCall) (transitions : List PhaseTransition) : Bool :=
  call.isLiveEvent && transitions.any (fun transition => transition.phase = .ready) &&
    s.otherPartySupportsMethod SCAN_QR_CODE_METHOD

end RequestState

/-- A request, with the calls of `handleEvent` that have not returned: in `_cancelOnError`, with
the QR code, and the one that is just running. `version` counts the changes of the events that can
move the phase, and `phaseVersion` is the one that the phase is from. -/
structure RequestRun where
  request : RequestState
  checking : List HandleCall
  creating : List PhaseCall
  running : Option PhaseCall
  version : ℕ
  phaseVersion : ℕ

/-- The types that `_calculatePhaseTransitions` looks for. -/
def VerificationType.movesPhase (type : VerificationType) : Bool :=
  type = .request ∨ type = .ready ∨ type = .start ∨ type = .cancel ∨ type = .done

namespace RequestRun

variable (ctx : RequestContext) (s : RequestRun)

/-- The verifier has told something, and the phase is set from the events at once. -/
def told (request : RequestState) : RequestRun :=
  { s with request := request, version := s.version + 1, phaseVersion := s.version + 1 }

/-- The event is added. -/
def add (call : HandleCall) : RequestRun :=
  let log := s.request.log.addEvent s.request.otherUserId call.type call.event call.isSentByUs
  { s with
    request := { s.request with log := log }
    version := if call.type.movesPhase then s.version + 1 else s.version }

/-- A call is left to set the phase, after the QR code or at once. -/
def leave (creates : Bool) (call : PhaseCall) : RequestRun :=
  if creates then { s with creating := s.creating ++ [call] } else { s with running := some call }

/-- `handleEvent` after `_cancelOnError`, up to the phase. -/
def process (call : HandleCall) : RequestRun :=
  if s.request.isDuplicateEvent call then s
  else
    let added := s.add call
    let transitions := added.request.pendingTransitions ctx
    match added.request.transitionToPhases ctx transitions with
    | (t, false) => { added with request := t }
    | (t, true) =>
      let passed := match t.passToVerifier ctx call with
        | (t, false) => { added with request := t }
        | (t, true) => added.told t
      if transitions = [] then passed
      else passed.leave (passed.request.createsQRCode call transitions)
        ⟨EventLog.phaseOf transitions, added.version⟩

/-- `cancel` of the verifier. -/
def cancelVerifier (v : Verifier) : RequestRun :=
  if v.settled then s else s.told (s.request.cancelVerifier ctx v)

/-- `cancel` -/
def cancel : RequestRun :=
  match s.request.verifier with
  | some v =>
    if !s.request.observeOnly ∧ s.request.phase ≠ .cancelled then
      ({ s with request := { s.request with declining := true } } : RequestRun).cancelVerifier ctx v
    else s
  | none => { s with request := s.request.cancelUnverified }

/-- `handleEvent`, up to the end of `_cancelOnError`. -/
def handleEvent (call : HandleCall) : RequestRun :=
  if s.request.phase = .done ∨ s.request.phase = .cancelled then s
  else
    let request : RequestState := { s.request with
      observeOnly := s.request.observeOnly || !call.isLiveEvent || call.expiring }
    if !request.observeOnly ∧ !call.isRemoteEcho then
      if request.cancelsOnError ctx call.type call.event then
        ({ s with request := request } : RequestRun).cancel ctx
      else { s with request := request, checking := s.checking ++ [call] }
    else ({ s with request := request } : RequestRun).process ctx call

/-- `handleEvent` sets the phase. -/
def setPhase (call : PhaseCall) : RequestRun :=
  { s with
    request := (s.request.setupTimeout call.phase).setPhase call.phase
    phaseVersion := call.version }

/-- `beginKeyVerification`. `hasTarget` says whether it is told the device. -/
def beginKeyVerification (method : String) (hasTarget : Bool) : RequestRun :=
  let request := s.request
  let validStartPhase := request.phase = .requested ∨ request.phase = .ready ∨
    request.phase = .unsent ∧ ctx.canCreateFromStart = true
  if request.observeOnly = false ∧ request.verifier.isNone ∧ validStartPhase ∧
      (request.commonMethods = [] ∨ method ∈ request.commonMethods) ∧
      (hasTarget = true ∨ request.theirFirstEvent.isSome) ∧ method ∈ ctx.verificationMethods then
    { s with request := { request with
        verifier := some (.new method none), chosenMethod := some method } }
  else s

end RequestRun

/-! ## The runs of a request -/

inductive RequestStep
  /-- The channel calls `handleEvent`. -/
  | handleEvent (call : HandleCall)
  /-- `_cancelOnError` returns. -/
  | checked (i : ℕ)
  /-- The call that is running sets the phase. -/
  | setPhase
  /-- The QR code has been made, or an error is thrown. -/
  | qrCode (i : ℕ) (created : Bool)
  /-- The channel gets to know the other party. -/
  | adoptUserId (userId : String)
  | accept
  | cancel
  | timeout
  | beginKeyVerification (method : String) (hasTarget : Bool)
  /-- The application calls `verify` of the verifier. -/
  | verify
  /-- The verification runs, up to its next wait. -/
  | verification (startEvent : Option VerificationEvent) (waitingForAccept : Bool)
      (expectedEvent : Option VerificationType) (waiting : Bool)
  /-- The verification is over. -/
  | finished
  | failed

/-- A step when no call is running. -/
def RequestRun.step (ctx : RequestContext) (s : RequestRun) : RequestStep → Option RequestRun
  | .setPhase => none
  | .handleEvent call => some (s.handleEvent ctx call)
  | .checked i =>
    s.checking[i]?.map fun call =>
      ({ s with checking := s.checking.eraseIdx i } : RequestRun).process ctx call
  | .qrCode i created =>
    s.creating[i]?.map fun call =>
      let s := { s with creating := s.creating.eraseIdx i }
      if created then s.setPhase call else s
  | .adoptUserId userId =>
    if s.request.otherUserId.isNone then
      some { s with request := { s.request with otherUserId := some userId } }
    else none
  | .accept =>
    if !s.request.observeOnly ∧ s.request.phase = .requested ∧ s.request.initiatedByMe = false then
      some { s with request := { s.request with accepting := true } }
    else some s
  | .cancel => some (s.cancel ctx)
  | .timeout => if s.request.timeoutTimer then some (s.cancel ctx) else none
  | .beginKeyVerification method hasTarget => some (s.beginKeyVerification ctx method hasTarget)
  | .verify =>
    s.request.verifier.map fun v =>
      { s with request := { s.request with verifier := some v.verify } }
  | .verification startEvent waitingForAccept expectedEvent waiting =>
    s.request.verifier.map fun v =>
      { s with request := { s.request with verifier := some { v with
          startEvent := startEvent, waitingForAccept := waitingForAccept
          expectedEvent := expectedEvent, waiting := waiting } } }
  | .finished =>
    match s.request.verifier with
    | some v =>
      if v.promised = true then
        if v.settled then some s
        else
          let request := s.request.onVerifierFinished ctx
          some (s.told { request with verifier := some { v with settled := true } })
      else none
    | none => none
  | .failed =>
    match s.request.verifier with
    | some v => if v.promised = true then some (s.cancelVerifier ctx v) else none
    | none => none

def requestSystem (ctx : RequestContext) (otherUserId : Option String) :
    System RequestRun RequestStep where
  init := ⟨.new otherUserId, [], [], none, 0, 0⟩
  step s e :=
    match s.running, e with
    | some call, .setPhase => some { s.setPhase call with running := none }
    | some _, _ => none
    | none, e => s.step ctx e

/-! ## When the events lead on -/

namespace Phase

def rank : Phase → ℕ
  | .unsent => 0
  | .requested => 1
  | .ready => 2
  | .started => 3
  | .cancelled => 4
  | .done => 4

/-- The first phase is the second, or comes before it. -/
def Forward (a b : Phase) : Prop := a = b ∨ a.rank < b.rank

theorem Forward.refl (a : Phase) : Forward a a := .inl rfl

theorem Forward.trans {a b c : Phase} (hab : Forward a b) (hbc : Forward b c) : Forward a c := by
  rcases hab with rfl | hab
  · exact hbc
  · rcases hbc with rfl | hbc
    · exact .inr hab
    · exact .inr (Nat.lt_trans hab hbc)

theorem forward_of_unsent (b : Phase) : Forward .unsent b := by
  cases b with
  | unsent => exact .refl _
  | _ => exact .inr (by decide)

end Phase

namespace EventLog

variable {canCreateFromStart : Bool} {log : EventLog}

theorem phaseOf_append (transitions : List PhaseTransition) (transition : PhaseTransition) :
    phaseOf (transitions ++ [transition]) = transition.phase := by
  rw [phaseOf, List.getLast?_concat]

theorem readyEvent_of_requestEvent (h : log.requestEvent = none) : log.readyEvent = none := by
  rw [readyEvent, h]
  rfl

theorem phaseOf_addReady : phaseOf (log.addReady (log.addRequested [⟨.unsent, none⟩])) =
    if log.readyEvent.isSome then .ready
    else if log.requestEvent.isSome then .requested else .unsent := by
  rw [addReady, addRequested]
  cases hrequest : log.requestEvent with
  | none =>
    rw [readyEvent_of_requestEvent hrequest]
    rfl
  | some request =>
    cases log.readyEvent with
    | none => rfl
    | some ready => rfl

variable (canCreateFromStart log) in

/-- A start event counts. -/
def Starts : Prop :=
  ∃ event, log.startEvent = some event ∧
    (log.readyEvent.isSome ∨
      log.requestEvent.isSome ∧ log.requestEvent.map VerificationEvent.sender ≠ some event.sender ∨
        log.requestEvent = none ∧ canCreateFromStart = true)

variable (canCreateFromStart log) in

/-- The verification is over: our done event is there, and a start event that counts, or else the
verifier has finished. -/
def Completes : Prop :=
  log.verifierHasFinished = true ∨
    (log.eventsByUs.get .done).isSome ∧ log.Starts canCreateFromStart

variable (log) in

def IsCancelled : Prop := log.cancelled = true ∨ (log.getEventByEither .cancel).isSome

theorem phaseOf_addStarted :
    (log.Starts canCreateFromStart → phaseOf (log.addStarted canCreateFromStart
        (log.addReady (log.addRequested [⟨.unsent, none⟩]))) = .started) ∧
      (¬ log.Starts canCreateFromStart → phaseOf (log.addStarted canCreateFromStart
        (log.addReady (log.addRequested [⟨.unsent, none⟩]))) =
          phaseOf (log.addReady (log.addRequested [⟨.unsent, none⟩]))) := by
  have hcond : ∀ event, log.startEvent = some event →
      ((phaseOf (log.addReady (log.addRequested [⟨.unsent, none⟩])) = .requested ∧
          log.requestEvent.map VerificationEvent.sender ≠ some event.sender ∨
        phaseOf (log.addReady (log.addRequested [⟨.unsent, none⟩])) = .ready ∨
        phaseOf (log.addReady (log.addRequested [⟨.unsent, none⟩])) = .unsent ∧
          canCreateFromStart = true) ↔ log.Starts canCreateFromStart) := by
    intro event hevent
    rw [phaseOf_addReady]
    have hstarts : log.Starts canCreateFromStart ↔ (log.readyEvent.isSome ∨
        log.requestEvent.isSome ∧
          log.requestEvent.map VerificationEvent.sender ≠ some event.sender ∨
        log.requestEvent = none ∧ canCreateFromStart = true) := by
      constructor
      · rintro ⟨event', hevent', h⟩
        obtain rfl := Option.some.inj (hevent.symm.trans hevent')
        exact h
      · exact fun h => ⟨event, hevent, h⟩
    rw [hstarts]
    cases hrequest : log.requestEvent with
    | none =>
      rw [readyEvent_of_requestEvent hrequest]
      simp
    | some request =>
      cases log.readyEvent with
      | none => simp
      | some ready => simp
  rw [addStarted]
  cases hevent : log.startEvent with
  | none =>
    refine ⟨?_, fun _ => rfl⟩
    rintro ⟨event, hstart, -⟩
    exact nomatch hevent.symm.trans hstart
  | some event =>
    dsimp only
    constructor
    · intro h
      rw [if_pos ((hcond event hevent).2 h), phaseOf_append]
    · intro h
      rw [if_neg (mt (hcond event hevent).1 h)]

/-- How far the events lead. -/
theorem lastPhase_of_completes (h : log.Completes canCreateFromStart) :
    log.lastPhase canCreateFromStart = .done := by
  have hdone : phaseOf (log.addDone (log.addStarted canCreateFromStart
      (log.addReady (log.addRequested [⟨.unsent, none⟩])))) = .done := by
    rw [addDone, if_pos, phaseOf_append]
    rcases h with h | ⟨hdone, hstarts⟩
    · exact .inl h
    · exact .inr ⟨hdone, phaseOf_addStarted.1 hstarts⟩
  rw [lastPhase, calculatePhaseTransitions, addCancelled, if_neg (fun h => h.2 hdone), hdone]

theorem addDone_of_not_completes (h : ¬ log.Completes canCreateFromStart) :
    log.addDone (log.addStarted canCreateFromStart
        (log.addReady (log.addRequested [⟨.unsent, none⟩]))) =
      log.addStarted canCreateFromStart (log.addReady (log.addRequested [⟨.unsent, none⟩])) := by
  refine if_neg ?_
  rintro (hfinished | ⟨hdone, hphase⟩)
  · exact h (.inl hfinished)
  · refine h (.inr ⟨hdone, ?_⟩)
    by_contra hstarts
    rw [phaseOf_addStarted.2 hstarts, phaseOf_addReady] at hphase
    split at hphase
    · exact nomatch hphase
    · split at hphase
      · exact nomatch hphase
      · exact nomatch hphase

theorem phaseOf_addStarted_ne_done : phaseOf (log.addStarted canCreateFromStart
    (log.addReady (log.addRequested [⟨.unsent, none⟩]))) ≠ .done := by
  intro hdone
  by_cases hstarts : log.Starts canCreateFromStart
  · exact nomatch (phaseOf_addStarted.1 hstarts).symm.trans hdone
  · rw [phaseOf_addStarted.2 hstarts, phaseOf_addReady] at hdone
    split at hdone
    · exact nomatch hdone
    · split at hdone
      · exact nomatch hdone
      · exact nomatch hdone

theorem lastPhase_of_isCancelled (h : ¬ log.Completes canCreateFromStart) (hc : log.IsCancelled) :
    log.lastPhase canCreateFromStart = .cancelled := by
  rw [lastPhase, calculatePhaseTransitions, addDone_of_not_completes h, addCancelled,
    if_pos ⟨hc, phaseOf_addStarted_ne_done⟩, phaseOf_append]

theorem lastPhase_of_starts (h : ¬ log.Completes canCreateFromStart) (hc : ¬ log.IsCancelled)
    (hs : log.Starts canCreateFromStart) : log.lastPhase canCreateFromStart = .started := by
  rw [lastPhase, calculatePhaseTransitions, addDone_of_not_completes h, addCancelled,
    if_neg fun hcond => hc hcond.1]
  exact phaseOf_addStarted.1 hs

theorem lastPhase_of_not_starts (h : ¬ log.Completes canCreateFromStart) (hc : ¬ log.IsCancelled)
    (hs : ¬ log.Starts canCreateFromStart) : log.lastPhase canCreateFromStart =
      if log.readyEvent.isSome then .ready
      else if log.requestEvent.isSome then .requested else .unsent := by
  rw [lastPhase, calculatePhaseTransitions, addDone_of_not_completes h, addCancelled,
    if_neg (fun hcond => hc hcond.1), phaseOf_addStarted.2 hs, phaseOf_addReady]

theorem rank_of_not_starts (h : ¬ log.Completes canCreateFromStart) (hc : ¬ log.IsCancelled)
    (hs : ¬ log.Starts canCreateFromStart) : (log.lastPhase canCreateFromStart).rank ≤ 2 := by
  rw [lastPhase_of_not_starts h hc hs]
  split
  · exact Nat.le_refl 2
  · split
    · exact Nat.le_succ 1
    · exact Nat.zero_le 2

theorem rank_of_not_final (h : ¬ log.Completes canCreateFromStart) (hc : ¬ log.IsCancelled) :
    (log.lastPhase canCreateFromStart).rank ≤ 3 := by
  by_cases hs : log.Starts canCreateFromStart
  · rw [lastPhase_of_starts h hc hs]
    exact Nat.le_refl 3
  · exact Nat.le_succ_of_le (rank_of_not_starts h hc hs)

end EventLog

namespace EventLog

variable {canCreateFromStart : Bool} {log log' : EventLog}

/-- The second log has every event of the first, and the same requests. -/
structure Grows (log log' : EventLog) : Prop where
  byUs : ∀ type event, log.eventsByUs.get type = some event →
    log'.eventsByUs.get type = some event
  byThem : ∀ type event, log.eventsByThem.get type = some event →
    log'.eventsByThem.get type = some event
  requestByUs : log'.eventsByUs.get .request = log.eventsByUs.get .request
  requestByThem : log'.eventsByThem.get .request = log.eventsByThem.get .request
  finished : log.verifierHasFinished = true → log'.verifierHasFinished = true
  cancelled : log.cancelled = true → log'.cancelled = true

namespace Grows

theorem hasRequestByThem (h : log.Grows log') : log'.hasRequestByThem = log.hasRequestByThem := by
  rw [EventLog.hasRequestByThem, EventLog.hasRequestByThem, h.requestByThem]

theorem requestEvent (h : log.Grows log') : log'.requestEvent = log.requestEvent := by
  rw [EventLog.requestEvent, EventLog.requestEvent, h.hasRequestByThem, getEventBy, getEventBy,
    h.requestByThem, h.requestByUs]

theorem getEventBy (h : log.Grows log') {type : VerificationType} {byThem : Bool}
    {event : VerificationEvent} (hevent : log.getEventBy type byThem = some event) :
    log'.getEventBy type byThem = some event := by
  cases byThem with
  | true => exact h.byThem type event hevent
  | false => exact h.byUs type event hevent

theorem readyEvent (h : log.Grows log') (hready : log.readyEvent.isSome) :
    log'.readyEvent.isSome := by
  obtain ⟨event, hevent⟩ := Option.isSome_iff_exists.1 hready
  rw [EventLog.readyEvent] at hevent
  rw [EventLog.readyEvent, h.requestEvent, h.hasRequestByThem]
  split at hevent
  next hrequest =>
    rw [if_pos hrequest, h.getEventBy hevent]
    rfl
  · exact nomatch hevent

/-- Some start event is there if any party may have sent one. -/
theorem startEvent_isSome (h : log'.readyEvent.isSome || log'.requestEvent.isNone)
    {byThem : Bool} {event : VerificationEvent}
    (hevent : log'.getEventBy .start byThem = some event) : log'.startEvent.isSome := by
  rw [EventLog.startEvent, if_pos h]
  cases byThem with
  | true =>
    have htheirs : log'.eventsByThem.get .start = some event := hevent
    rw [htheirs]
    cases log'.eventsByUs.get .start with
    | none => rfl
    | some ours =>
      dsimp only
      split
      · rfl
      · rfl
  | false =>
    have hours : log'.eventsByUs.get .start = some event := hevent
    rw [hours]
    cases log'.eventsByThem.get .start with
    | none => rfl
    | some theirs =>
      dsimp only
      split
      · rfl
      · rfl

/-- A start event that counts is one of the two. -/
theorem exists_start (h : log.startEvent.isSome) :
    ∃ byThem event, log.getEventBy .start byThem = some event := by
  rw [EventLog.startEvent] at h
  split at h
  · cases htheirs : log.eventsByThem.get .start with
    | some theirs => exact ⟨true, theirs, htheirs⟩
    | none =>
      rw [htheirs] at h
      obtain ⟨event, hevent⟩ := Option.isSome_iff_exists.1 h
      exact ⟨false, event, hevent⟩
  · obtain ⟨event, hevent⟩ := Option.isSome_iff_exists.1 h
    exact ⟨_, event, hevent⟩

/-- A start event goes on to count. -/
theorem starts (h : log.Grows log') (hstarts : log.Starts canCreateFromStart) :
    log'.Starts canCreateFromStart := by
  obtain ⟨event, hevent, hcounts⟩ := hstarts
  obtain ⟨byThem, start, hstart⟩ := exists_start (show log.startEvent.isSome by rw [hevent]; rfl)
  by_cases hready : log'.readyEvent.isSome
  · obtain ⟨event', hevent'⟩ := Option.isSome_iff_exists.1
      (startEvent_isSome (by rw [hready]; rfl) (h.getEventBy hstart))
    exact ⟨event', hevent', .inl hready⟩
  · rcases hcounts with hcounts | ⟨hrequest, hsender⟩ | ⟨hnone, hcan⟩
    · exact absurd (h.readyEvent hcounts) hready
    · -- as before, it is the start event of the side that has not sent the request
      have hnotReady : log.readyEvent.isSome = false :=
        Bool.eq_false_iff.2 fun hcontra => hready (h.readyEvent hcontra)
      have hisSome : log.requestEvent.isNone = false := by
        obtain ⟨request, hrequest⟩ := Option.isSome_iff_exists.1 hrequest
        rw [hrequest]
        rfl
      rw [EventLog.startEvent, hnotReady, hisSome] at hevent
      refine ⟨event, ?_, .inr (.inl ⟨h.requestEvent ▸ hrequest, h.requestEvent ▸ hsender⟩)⟩
      rw [EventLog.startEvent, Bool.eq_false_iff.2 hready, h.requestEvent, hisSome,
        h.hasRequestByThem]
      exact h.getEventBy hevent
    · have hnone' : log'.requestEvent = none := h.requestEvent.trans hnone
      obtain ⟨event', hevent'⟩ := Option.isSome_iff_exists.1
        (startEvent_isSome (by rw [hnone', Option.isNone_none, Bool.or_true])
          (h.getEventBy hstart))
      exact ⟨event', hevent', .inr (.inr ⟨hnone', hcan⟩)⟩

theorem completes (h : log.Grows log') (hcompletes : log.Completes canCreateFromStart) :
    log'.Completes canCreateFromStart := by
  rcases hcompletes with hfinished | ⟨hdone, hstarts⟩
  · exact .inl (h.finished hfinished)
  · obtain ⟨event, hevent⟩ := Option.isSome_iff_exists.1 hdone
    exact .inr ⟨by rw [h.byUs _ _ hevent]; rfl, h.starts hstarts⟩

theorem isCancelled (h : log.Grows log') (hcancelled : log.IsCancelled) : log'.IsCancelled := by
  rcases hcancelled with hcancelled | hevent
  · exact .inl (h.cancelled hcancelled)
  · refine .inr ?_
    rw [getEventByEither, Option.isSome_or, Bool.or_eq_true] at hevent ⊢
    rcases hevent with hevent | hevent
    · obtain ⟨event, hevent⟩ := Option.isSome_iff_exists.1 hevent
      exact .inl (by rw [h.byThem _ _ hevent]; rfl)
    · obtain ⟨event, hevent⟩ := Option.isSome_iff_exists.1 hevent
      exact .inr (by rw [h.byUs _ _ hevent]; rfl)

/-- **More events lead further**, unless they complete what has been cancelled. -/
theorem forward (h : log.Grows log')
    (hcancel : log.IsCancelled → log'.Completes canCreateFromStart →
      log.Completes canCreateFromStart) :
    Phase.Forward (log.lastPhase canCreateFromStart) (log'.lastPhase canCreateFromStart) := by
  by_cases hcompletes : log.Completes canCreateFromStart
  · rw [lastPhase_of_completes hcompletes, lastPhase_of_completes (h.completes hcompletes)]
    exact .refl _
  · by_cases hcancelled : log.IsCancelled
    · have hnot : ¬ log'.Completes canCreateFromStart :=
        fun hcontra => hcompletes (hcancel hcancelled hcontra)
      rw [lastPhase_of_isCancelled hcompletes hcancelled,
        lastPhase_of_isCancelled hnot (h.isCancelled hcancelled)]
      exact .refl _
    · by_cases hcompletes' : log'.Completes canCreateFromStart
      · rw [lastPhase_of_completes hcompletes']
        exact .inr (Nat.lt_succ_of_le (rank_of_not_final hcompletes hcancelled))
      · by_cases hcancelled' : log'.IsCancelled
        · rw [lastPhase_of_isCancelled hcompletes' hcancelled']
          exact .inr (Nat.lt_succ_of_le (rank_of_not_final hcompletes hcancelled))
        · by_cases hstarts : log.Starts canCreateFromStart
          · rw [lastPhase_of_starts hcompletes hcancelled hstarts,
              lastPhase_of_starts hcompletes' hcancelled' (h.starts hstarts)]
            exact .refl _
          · by_cases hstarts' : log'.Starts canCreateFromStart
            · rw [lastPhase_of_starts hcompletes' hcancelled' hstarts']
              exact .inr (Nat.lt_succ_of_le (rank_of_not_starts hcompletes hcancelled hstarts))
            · -- neither has a start event that counts
              rw [lastPhase_of_not_starts hcompletes hcancelled hstarts,
                lastPhase_of_not_starts hcompletes' hcancelled' hstarts', h.requestEvent]
              by_cases hready : log.readyEvent.isSome
              · rw [if_pos hready, if_pos (h.readyEvent hready)]
                exact .refl _
              · rw [if_neg hready]
                by_cases hready' : log'.readyEvent.isSome
                · rw [if_pos hready']
                  refine .inr ?_
                  split
                  · decide
                  · decide
                · rw [if_neg hready']
                  exact .refl _

end Grows

end EventLog

namespace EventLog

variable {canCreateFromStart : Bool} {log log' : EventLog} {otherUserId : Option String}
  {type : VerificationType} {event : VerificationEvent} {isSentByUs : Bool}

/-- Events of other types do not count. -/
theorem lastPhase_congr
    (hus : ∀ type : VerificationType, type.movesPhase = true →
      log'.eventsByUs.get type = log.eventsByUs.get type)
    (hthem : ∀ type : VerificationType, type.movesPhase = true →
      log'.eventsByThem.get type = log.eventsByThem.get type)
    (hfinished : log'.verifierHasFinished = log.verifierHasFinished)
    (hcancelled : log'.cancelled = log.cancelled) :
    log'.lastPhase canCreateFromStart = log.lastPhase canCreateFromStart := by
  have hby : ∀ (type : VerificationType) (byThem : Bool), type.movesPhase = true →
      log'.getEventBy type byThem = log.getEventBy type byThem := by
    intro type byThem htype
    rw [getEventBy, getEventBy, hus type htype, hthem type htype]
  have hrequestByThem : log'.hasRequestByThem = log.hasRequestByThem := by
    rw [hasRequestByThem, hasRequestByThem, hthem .request rfl]
  have hrequest : log'.requestEvent = log.requestEvent := by
    rw [requestEvent, requestEvent, hrequestByThem, hby .request _ rfl]
  have hready : log'.readyEvent = log.readyEvent := by
    rw [readyEvent, readyEvent, hrequest, hrequestByThem, hby .ready _ rfl]
  have hstart : log'.startEvent = log.startEvent := by
    rw [startEvent, startEvent, hready, hrequest, hrequestByThem, hby .start _ rfl,
      hus .start rfl, hthem .start rfl]
  have hcancel : log'.getEventByEither .cancel = log.getEventByEither .cancel := by
    rw [getEventByEither, getEventByEither, hus .cancel rfl, hthem .cancel rfl]
  have haddRequested : log'.addRequested = log.addRequested := by
    funext transitions
    rw [addRequested, addRequested, hrequest]
  have haddReady : log'.addReady = log.addReady := by
    funext transitions
    rw [addReady, addReady, hready]
  have haddStarted : log'.addStarted canCreateFromStart = log.addStarted canCreateFromStart := by
    funext transitions
    rw [addStarted, addStarted, hstart, hrequest]
  have haddDone : log'.addDone = log.addDone := by
    funext transitions
    rw [addDone, addDone, hfinished, hus .done rfl]
  have haddCancelled : log'.addCancelled = log.addCancelled := by
    funext transitions
    rw [addCancelled, addCancelled, hcancelled, hcancel]
  rw [lastPhase, lastPhase, calculatePhaseTransitions, calculatePhaseTransitions, haddRequested,
    haddReady, haddStarted, haddDone, haddCancelled]

theorem addEvent_of_ne (h : type ≠ .request) :
    log.addEvent otherUserId type event isSentByUs =
      if isSentByUs then { log with eventsByUs := log.eventsByUs.set type event }
      else { log with eventsByThem := log.eventsByThem.set type event } :=
  if_neg h

/-- An event that is no request adds to the events. -/
theorem grows_addEvent (h : type ≠ .request)
    (hnew : (if isSentByUs then (log.eventsByUs.get type).isSome
      else (log.eventsByThem.get type).isSome) = false) :
    log.Grows (log.addEvent otherUserId type event isSentByUs) := by
  have hset : ∀ (events : JsObject VerificationType VerificationEvent),
      (events.get type).isSome = false → ∀ type' event', events.get type' = some event' →
        (events.set type event).get type' = some event' := by
    intro events hnone type' event' hget
    rw [JsObject.get_set_ne, hget]
    rintro rfl
    rw [hget] at hnone
    exact nomatch hnone
  rw [addEvent_of_ne h]
  cases isSentByUs with
  | true =>
    exact ⟨hset _ hnew, fun _ _ => id, JsObject.get_set_ne h.symm, rfl, id, id⟩
  | false =>
    exact ⟨fun _ _ => id, hset _ hnew, rfl, JsObject.get_set_ne h.symm, id, id⟩

theorem lastPhase_addEvent_of_not_moves (h : type.movesPhase = false) :
    (log.addEvent otherUserId type event isSentByUs).lastPhase canCreateFromStart =
      log.lastPhase canCreateFromStart := by
  have hne : ∀ type' : VerificationType, type'.movesPhase = true → type' ≠ type := by
    rintro type' hmoves rfl
    exact nomatch hmoves.symm.trans h
  rw [addEvent_of_ne (hne .request rfl).symm]
  cases isSentByUs with
  | true =>
    exact lastPhase_congr (fun type' ht => JsObject.get_set_ne (hne type' ht)) (fun _ _ => rfl)
      rfl rfl
  | false =>
    exact lastPhase_congr (fun _ _ => rfl) (fun type' ht => JsObject.get_set_ne (hne type' ht))
      rfl rfl

/-- There is a request as long as the events lead past the first phase, or else a start event
does without one. -/
theorem requestEvent_isSome_of_requested (h : log.lastPhase canCreateFromStart = .requested) :
    log.requestEvent.isSome := by
  by_cases hcompletes : log.Completes canCreateFromStart
  · exact nomatch (lastPhase_of_completes hcompletes).symm.trans h
  · by_cases hcancelled : log.IsCancelled
    · exact nomatch (lastPhase_of_isCancelled hcompletes hcancelled).symm.trans h
    · by_cases hstarts : log.Starts canCreateFromStart
      · exact nomatch (lastPhase_of_starts hcompletes hcancelled hstarts).symm.trans h
      · rw [lastPhase_of_not_starts hcompletes hcancelled hstarts] at h
        split at h
        · exact nomatch h
        · split at h
          next hrequest => exact hrequest
          · exact nomatch h

theorem forward_requested (h : log.requestEvent.isSome) :
    Phase.Forward .requested (log.lastPhase canCreateFromStart) := by
  by_cases hcompletes : log.Completes canCreateFromStart
  · rw [lastPhase_of_completes hcompletes]
    exact .inr (by decide)
  · by_cases hcancelled : log.IsCancelled
    · rw [lastPhase_of_isCancelled hcompletes hcancelled]
      exact .inr (by decide)
    · by_cases hstarts : log.Starts canCreateFromStart
      · rw [lastPhase_of_starts hcompletes hcancelled hstarts]
        exact .inr (by decide)
      · rw [lastPhase_of_not_starts hcompletes hcancelled hstarts, if_pos h]
        split
        · exact .inr (by decide)
        · exact .refl _

/-- A request event leads on if the events have led no further than to another one. -/
theorem forward_addRequest (hnew : (if isSentByUs then (log.eventsByUs.get .request).isSome
      else (log.eventsByThem.get .request).isSome) = false)
    (h : log.lastPhase canCreateFromStart = .unsent ∨
      log.lastPhase canCreateFromStart = .requested) :
    Phase.Forward (log.lastPhase canCreateFromStart)
      ((log.addEvent otherUserId .request event isSentByUs).lastPhase canCreateFromStart) := by
  rcases h with h | h
  · rw [h]
    exact Phase.forward_of_unsent _
  · rw [h]
    refine forward_requested ?_
    have hrequest := requestEvent_isSome_of_requested h
    -- our request stays, whether it is the new one or not
    have hours : ∀ log' : EventLog, (log'.eventsByUs.get .request).isSome →
        log'.requestEvent.isSome := by
      intro log' hours
      rw [requestEvent, hasRequestByThem, getEventBy]
      split
      next htheirs => exact htheirs
      · exact hours
    refine hours _ ?_
    cases isSentByUs with
    | true =>
      show ((log.eventsByUs.set .request event).get .request).isSome
      rw [JsObject.get_set_self]
      rfl
    | false =>
      show (log.eventsByUs.get .request).isSome
      rw [requestEvent, hasRequestByThem, getEventBy] at hrequest
      rw [if_neg (by exact fun hcontra => nomatch hcontra.symm.trans hnew)] at hrequest
      exact hrequest

end EventLog

end MatrixSdk.Crypto
