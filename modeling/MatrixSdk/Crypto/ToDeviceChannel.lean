/-
The channel of a verification over to-device messages: `ToDeviceChannel` in
`crypto/verification/request/ToDeviceChannel.js`.

A request goes to several devices of a user. The channel adopts the first of them that answers, and
turns the others away. Whatever it tells them is made by `completeContent(type, content)`, and the
two calls in `handleEvent` leave out the type: what was to be the content is taken for the type, and
the cancellation that goes out has neither a code nor a reason. So the channel does as it should
only when there is nobody to tell, [`answersRight_iff`].

`handleEvent` awaits the one of the request, [`RequestRun.handleEvent`], before it looks at the
phase again; a call that waits is a [`ChannelTask`].
-/
import MatrixSdk.Crypto.VerificationRequest

set_option autoImplicit false

namespace MatrixSdk.Crypto

open MatrixSdk.Lib

/-! ## Messages -/

/-- What a field of a content holds. -/
inductive ContentValue
  | text (value : String)
  | number (value : ℕ)
  | list (values : List String)
  deriving DecidableEq

abbrev VerificationContent := JsObject String ContentValue

namespace VerificationContent

variable (content : VerificationContent)

def text (field : String) : Option String :=
  match content.get field with
  | some (.text value) => some value
  | _ => none

def list (field : String) : List String :=
  match content.get field with
  | some (.list values) => values
  | _ => []

end VerificationContent

/-- What `newVerificationError` and `errorFromEvent` of `Error.js` make of a code and a reason. -/
def errorContent (code reason : String) : VerificationContent :=
  (JsObject.empty.set "code" (.text code)).set "reason" (.text reason)

def newUnexpectedMessageError : VerificationContent :=
  errorContent "m.unexpected_message" "Unexpected message"

/-- A call of `sendToDevice` of the client. -/
structure SentToDevice where
  type : VerificationType
  userId : String
  /-- The contents by the ids of the devices. -/
  messages : JsObject String VerificationContent

/-- A to-device event, with what is checked and read of it. -/
structure VerificationMessage where
  type : VerificationType
  event : VerificationEvent
  /-- `isCancelled()` -/
  flagged : Bool
  transaction_id : Option String
  /-- The timestamp is a finite number. -/
  hasTimestamp : Bool
  /-- There is a list of methods. -/
  hasMethods : Bool
  /-- The time that its timestamp leaves is almost over. -/
  expiring : Bool

/-- The types of the events by which a device takes part. -/
def VerificationType.hasDevice (type : VerificationType) : Bool :=
  type = .request ∨ type = .ready ∨ type = .start

/-! ## The channel -/

structure ToDeviceChannel where
  userId : String
  devices : List String
  transactionId : Option String
  deviceId : Option String

namespace ToDeviceChannel

variable (c : ToDeviceChannel)

/-- `completeContent(type, content)`. Some callers hand over a content only, as the type. -/
def completeContent (ownDeviceId : String) (now : ℕ) (type : VerificationType ⊕ VerificationContent)
    (content : Option VerificationContent) : VerificationContent :=
  -- make a copy
  let content := content.getD .empty
  let content := match c.transactionId with
    | some transactionId => content.set "transaction_id" (.text transactionId)
    | none => content
  match type with
  | .inl type =>
    let content := if type.hasDevice then content.set "from_device" (.text ownDeviceId) else content
    if type = .request then content.set "timestamp" (.number now) else content
  | .inr _ => content

/-- `_sendToDevices` -/
def sendToDevices (type : VerificationType) (content : VerificationContent)
    (devices : List String) : List SentToDevice :=
  if devices = [] then []
  else [⟨type, c.userId, devices.foldl (fun messages deviceId => messages.set deviceId content)
    .empty⟩]

/-- The transaction id is taken over if there is none yet, and so is the id of a device that the
request went to. -/
def adopt (message : VerificationMessage) : ToDeviceChannel :=
  { c with
    transactionId := c.transactionId.or message.transaction_id
    deviceId := c.deviceId.or (message.event.from_device.filter (c.devices.contains ·)) }

/-- `validateEvent`, with the one of `VerificationRequest.js`. -/
def validateEvent (ctx : RequestContext) (message : VerificationMessage) : Bool :=
  let fromUs := message.event.sender = ctx.userId ∧ message.event.from_device = some ctx.deviceId
  let isKnown := match message.type with
    | .other name => name.startsWith "m.key.verification."
    | _ => true
  !message.flagged && message.transaction_id.any (· ≠ "") &&
    (message.type ≠ .request || message.hasTimestamp && !fromUs) && isKnown &&
    (message.type ≠ .request && message.type ≠ .ready || message.hasMethods) &&
    (!message.type.hasDevice || message.event.from_device.any (· ≠ ""))

end ToDeviceChannel

/-! ## Calls under way -/

/-- A call of `handleEvent` of the channel, and what it remembers. -/
structure ChannelCall where
  type : VerificationType
  wasStarted : Bool
  deriving DecidableEq

inductive ChannelTask
  /-- An event of ours is on its way. Its echo is handled afterwards. -/
  | sending (type : VerificationType) (echo : VerificationEvent)
  /-- `handleEvent` of the request waits for `_cancelOnError`. -/
  | checking (call : HandleCall) (caller : Option ChannelCall)
  /-- It waits for the QR code. -/
  | creating (phase : Phase) (caller : Option ChannelCall)
  /-- It has got to its end. -/
  | returned (caller : ChannelCall)

/-- The channel and its request. -/
structure ChannelRun where
  channel : ToDeviceChannel
  request : RequestState
  tasks : List ChannelTask
  sent : List SentToDevice

/-- A request none of whose calls is under way. -/
def RequestState.alone (s : RequestState) : RequestRun := ⟨s, [], [], none, 0, 0⟩

namespace ChannelRun

variable (ctx : RequestContext) (s : ChannelRun)

def addTask (task : ChannelTask) : ChannelRun := { s with tasks := s.tasks ++ [task] }

def returnTo : Option ChannelCall → ChannelRun
  | some caller => s.addTask (.returned caller)
  | none => s

/-- A call of the request has come to `run`: it waits, or it sets the phase and returns. -/
def proceed (run : RequestRun) (caller : Option ChannelCall) : ChannelRun :=
  let s := { s with request := run.request }
  match run.checking, run.creating, run.running with
  | call :: _, _, _ => s.addTask (.checking call caller)
  | [], call :: _, _ => s.addTask (.creating call.phase caller)
  | [], [], some call => { s with request := (run.setPhase call).request }.returnTo caller
  | [], [], none => s.returnTo caller

/-- `request.phase === PHASE_STARTED || request.phase === PHASE_READY` -/
def isStarted : Bool := s.request.phase = .started ∨ s.request.phase = .ready

def sendToDevices (type : VerificationType) (content : VerificationContent)
    (devices : List String) : ChannelRun :=
  { s with sent := s.sent ++ s.channel.sendToDevices type content devices }

/-- `handleEvent`, when it hands over to the request. -/
def handOver (message : VerificationMessage) : ChannelRun :=
  s.proceed (s.request.alone.handleEvent ctx
    ⟨message.type, message.event, true, false, false, message.expiring⟩)
    (some ⟨message.type, s.isStarted⟩)

/-- `handleEvent`, up to the end of the call of the request. -/
def handleEvent (now : ℕ) (message : VerificationMessage) : ChannelRun :=
  if message.type.hasDevice then
    let s := { s with channel := s.channel.adopt message }
    let deviceId := message.event.from_device
    if s.channel.deviceId.isNone || s.channel.deviceId ≠ deviceId then
      let cancelContent :=
        s.channel.completeContent ctx.deviceId now (.inr newUnexpectedMessageError) none
      s.sendToDevices .cancel cancelContent [deviceId.getD "undefined"]
    else s.handOver ctx message
  else s.handOver ctx message

/-- `handleEvent` after the call of the request has returned: the other devices are told. -/
def resume (now : ℕ) (caller : ChannelCall) : ChannelRun :=
  let isAcceptingEvent := caller.type = .start ∨ caller.type = .ready
  if isAcceptingEvent ∧ !caller.wasStarted ∧ s.isStarted ∧ s.channel.deviceId.isSome then
    let nonChosenDevices := s.channel.devices.filter fun d => s.channel.deviceId ≠ some d
    let message := s.channel.completeContent ctx.deviceId now
      (.inr (errorContent "m.accepted" "Verification request accepted by another device")) none
    s.sendToDevices .cancel message nonChosenDevices
  else s

/-- The faked echo of an event of ours. It has no id. -/
def remoteEchoEvent (content : VerificationContent) : VerificationEvent where
  id := ""
  sender := ctx.userId
  from_device := content.text "from_device"
  methods := content.list "methods"
  method := content.text "method"

/-- `sendCompleted`, up to the end of the sending. Where no device has been adopted the message is
for one whose id is "null". -/
def sendCompleted (type : VerificationType) (content : VerificationContent) : ChannelRun :=
  let devices := if type = .request then s.channel.devices else [s.channel.deviceId.getD "null"]
  (s.sendToDevices type content devices).addTask (.sending type (remoteEchoEvent ctx content))

/-- `send`. The transaction id is made up if there is none. -/
def send (now : ℕ) (newTransactionId : String) (type : VerificationType)
    (uncompletedContent : VerificationContent) : ChannelRun :=
  let s := if (type = .request ∨ type = .start) ∧ s.channel.transactionId.isNone then
      { s with channel := { s.channel with transactionId := some newTransactionId } }
    else s
  s.sendCompleted ctx type (s.channel.completeContent ctx.deviceId now (.inl type)
    (some uncompletedContent))

/-- `requestVerification` of `crypto/index.js`, up to the sending of the request. -/
def requestVerification (now : ℕ) (userId : String) (devices : List String)
    (transactionId : String) : ChannelRun :=
  let s : ChannelRun := ⟨⟨userId, devices, some transactionId, none⟩, .new (some userId), [], []⟩
  s.send ctx now "" .request (JsObject.empty.set "methods" (.list ctx.verificationMethods))

/-- `_onKeyVerificationMessage` of `crypto/index.js`. The requests are kept by the user and the
transaction id; this is the only one with ours. -/
def onKeyVerificationMessage (now : ℕ) (message : VerificationMessage) : ChannelRun :=
  if ToDeviceChannel.validateEvent ctx message && message.event.sender = s.channel.userId &&
      message.transaction_id = s.channel.transactionId then
    s.handleEvent ctx now message
  else s

end ChannelRun

/-! ## The runs of the channel -/

inductive ChannelStep
  /-- A to-device event comes in. -/
  | receive (now : ℕ) (message : VerificationMessage)
  /-- `_cancelOnError` returns. -/
  | checked (i : ℕ)
  /-- The QR code has been made, or an error is thrown. -/
  | qrCode (i : ℕ) (created : Bool)
  /-- The call of the request has returned, or thrown an error. -/
  | resume (now : ℕ) (i : ℕ) (returns : Bool)
  /-- The request or its verifier sends an event. -/
  | send (now : ℕ) (newTransactionId : String) (type : VerificationType)
      (content : VerificationContent)
  | sendCompleted (type : VerificationType) (content : VerificationContent)
  /-- An event of ours has been sent, or not. -/
  | sent (i : ℕ) (delivered expiring : Bool)
  /-- The application or the verifier does something to the request. -/
  | request (e : RequestStep)

def ChannelRun.step (ctx : RequestContext) (s : ChannelRun) : ChannelStep → Option ChannelRun
  | .receive now message => some (s.onKeyVerificationMessage ctx now message)
  | .checked i =>
    match s.tasks[i]? with
    | some (.checking call caller) =>
      some (({ s with tasks := s.tasks.eraseIdx i } : ChannelRun).proceed
        (s.request.alone.process ctx call) caller)
    | _ => none
  | .qrCode i created =>
    match s.tasks[i]? with
    | some (.creating phase caller) =>
      let s := { s with tasks := s.tasks.eraseIdx i }
      some (if created then
          { s with request := (s.request.setupTimeout phase).setPhase phase }.returnTo caller
        else s)
    | _ => none
  | .resume now i returns =>
    match s.tasks[i]? with
    | some (.returned caller) =>
      let s := { s with tasks := s.tasks.eraseIdx i }
      some (if returns then s.resume ctx now caller else s)
    | _ => none
  | .send now newTransactionId type content => some (s.send ctx now newTransactionId type content)
  | .sendCompleted type content => some (s.sendCompleted ctx type content)
  | .sent i delivered expiring =>
    match s.tasks[i]? with
    | some (.sending type echo) =>
      let s := { s with tasks := s.tasks.eraseIdx i }
      some (if delivered then
          s.proceed (s.request.alone.handleEvent ctx ⟨type, echo, true, true, true, expiring⟩) none
        else s)
    | _ => none
  | .request (.handleEvent _) => none
  | .request e => (s.request.alone.step ctx e).map fun run => { s with request := run.request }

/-- A request of ours to devices of a user. -/
def channelSystem (ctx : RequestContext) (now : ℕ) (userId : String) (devices : List String)
    (transactionId : String) : System ChannelRun ChannelStep where
  init := ChannelRun.requestVerification ctx now userId devices transactionId
  step := ChannelRun.step ctx

/-! ## What a run should be like -/

/-- The event is one by which a device takes part in our request. -/
def VerificationMessage.Answers (ctx : RequestContext) (userId transactionId : String)
    (message : VerificationMessage) : Prop :=
  ToDeviceChannel.validateEvent ctx message = true ∧ message.event.sender = userId ∧
    message.transaction_id = some transactionId ∧ message.type.hasDevice = true
  deriving Decidable

/-- The contents of the cancellations for a device. -/
def cancellationsTo (deviceId : String) (sent : List SentToDevice) : List VerificationContent :=
  sent.filterMap fun m => if m.type = .cancel then m.messages.get deviceId else none

/-- There is exactly one cancellation for the device, with the transaction id and a code. -/
def ToldOnce (transactionId deviceId : String) (sent : List SentToDevice) : Prop :=
  ∃ content, cancellationsTo deviceId sent = [content] ∧
    content.text "transaction_id" = some transactionId ∧ (content.text "code").isSome

/-- The channel deals with the answers as it should. -/
structure AnswersRight (ctx : RequestContext) (devices : List String) (transactionId : String)
    (tr : List (ChannelRun × ChannelStep)) (s : ChannelRun) : Prop where
  /-- At most one device is ever adopted. -/
  adoptsOne : ∃ d, System.HoldsAlong
    (fun s => s.channel.deviceId = none ∨ s.channel.deviceId = some d) tr s
  /-- What another device sends changes nothing about the request. -/
  ignoresOthers : ∀ p ∈ tr, ∀ now message s' d, p.2 = .receive now message →
    p.1.step ctx p.2 = some s' → message.type.hasDevice = true →
    message.event.from_device = some d → s'.channel.deviceId ≠ some d →
    s'.request = p.1.request ∧ s'.tasks = p.1.tasks
  /-- After the adoption every other device is told. -/
  tellsOthers : ∀ p ∈ tr, ∀ s' d, p.1.step ctx p.2 = some s' → p.1.channel.deviceId = none →
    s'.channel.deviceId = some d → ∀ other ∈ devices, other ≠ d →
    ToldOnce transactionId other (s.sent.drop p.1.sent.length)

/-- A device of the list that answers is the only one there is. -/
def NobodyToTell (ctx : RequestContext) (userId : String) (devices : List String)
    (transactionId : String) : ChannelStep → Prop
  | .receive _ message => message.Answers ctx userId transactionId →
    ∀ d ∈ devices, message.event.from_device = some d → ∀ other ∈ devices, other = d
  | _ => True

instance (ctx : RequestContext) (userId : String) (devices : List String) (transactionId : String)
    (e : ChannelStep) : Decidable (NobodyToTell ctx userId devices transactionId e) := by
  unfold NobodyToTell
  split <;> infer_instance

/-! ## What is sent -/

/-- A cancellation has no code, except perhaps for the device that has been adopted. -/
def SentToDevice.TellsNoCode (adopted : String) (m : SentToDevice) : Prop :=
  m.type = .cancel → ∀ d content, d ≠ adopted → m.messages.get d = some content →
    content.text "code" = none

theorem get_messages {content content' : VerificationContent} {d : String} {devices : List String}
    {messages : JsObject String VerificationContent}
    (h : (devices.foldl (fun messages deviceId => messages.set deviceId content) messages).get d =
      some content') : d ∈ devices ∧ content' = content ∨ messages.get d = some content' := by
  induction devices generalizing messages with
  | nil => exact .inr h
  | cons deviceId devices ih =>
    rcases ih h with ⟨hmem, heq⟩ | hget
    · exact .inl ⟨List.mem_cons_of_mem _ hmem, heq⟩
    · rw [JsObject.get_set] at hget
      split at hget
      next hd =>
        exact .inl ⟨hd ▸ List.mem_cons_self, (Option.some.inj hget).symm⟩
      · exact .inr hget

namespace ToDeviceChannel

variable {c : ToDeviceChannel}

theorem mem_sendToDevices {type : VerificationType} {content content' : VerificationContent}
    {devices : List String} {m : SentToDevice} {d : String}
    (hm : m ∈ c.sendToDevices type content devices) (hget : m.messages.get d = some content') :
    m.type = type ∧ d ∈ devices ∧ content' = content := by
  rw [sendToDevices] at hm
  split at hm
  · exact absurd hm List.not_mem_nil
  · obtain rfl := List.mem_singleton.1 hm
    rcases get_messages hget with ⟨hd, heq⟩ | hnone
    · exact ⟨rfl, hd, heq⟩
    · exact nomatch hnone

/-- **The slip**: where the content is handed over as the type, it is lost. -/
theorem completeContent_noCode (ownDeviceId : String) (now : ℕ) (content : VerificationContent) :
    (c.completeContent ownDeviceId now (.inr content) none).text "code" = none := by
  unfold completeContent VerificationContent.text
  cases c.transactionId with
  | none => rfl
  | some transactionId => rfl

end ToDeviceChannel

/-- The channel stays as it is, and whatever is sent has no code for those not adopted. -/
structure ChannelRun.Follows (s s' : ChannelRun) : Prop where
  channel : s'.channel = s.channel
  sent : ∃ new, s'.sent = s.sent ++ new ∧
    ∀ adopted, s.channel.deviceId = some adopted → ∀ m ∈ new, m.TellsNoCode adopted

namespace ChannelRun

variable {ctx : RequestContext} {s s' s'' : ChannelRun}

theorem Follows.of_eq (hchannel : s'.channel = s.channel) (hsent : s'.sent = s.sent) :
    Follows s s' :=
  ⟨hchannel, [], hsent.trans (List.append_nil _).symm, fun _ _ _ hm => absurd hm List.not_mem_nil⟩

theorem Follows.trans (h : Follows s s') (h' : Follows s' s'') : Follows s s'' := by
  obtain ⟨hchannel, new, hnew, hcode⟩ := h
  obtain ⟨hchannel', new', hnew', hcode'⟩ := h'
  refine ⟨hchannel'.trans hchannel, new ++ new', by rw [hnew', hnew, List.append_assoc], ?_⟩
  intro adopted hadopted m hm
  rcases List.mem_append.1 hm with hm | hm
  · exact hcode adopted hadopted m hm
  · exact hcode' adopted (hchannel ▸ hadopted) m hm

theorem Follows.returnTo (h : Follows s s') (caller : Option ChannelCall) :
    Follows s (s'.returnTo caller) := by
  cases caller with
  | none => exact h
  | some caller => exact ⟨h.channel, h.sent⟩

/-- To go on with the request is to send nothing. -/
theorem proceed_frame (run : RequestRun) (caller : Option ChannelCall) :
    (s.proceed run caller).channel = s.channel ∧ (s.proceed run caller).sent = s.sent := by
  have hreturn : ∀ t : ChannelRun, t.channel = s.channel ∧ t.sent = s.sent →
      (t.returnTo caller).channel = s.channel ∧ (t.returnTo caller).sent = s.sent := by
    intro t ht
    cases caller with
    | none => exact ht
    | some caller => exact ht
  rw [proceed]
  split
  · exact ⟨rfl, rfl⟩
  · exact ⟨rfl, rfl⟩
  · exact hreturn _ ⟨rfl, rfl⟩
  · exact hreturn _ ⟨rfl, rfl⟩

theorem follows_proceed (run : RequestRun) (caller : Option ChannelCall) :
    Follows s (s.proceed run caller) :=
  .of_eq (proceed_frame run caller).1 (proceed_frame run caller).2

theorem follows_cancellation {now : ℕ} {content : VerificationContent} {devices : List String} :
    Follows s (s.sendToDevices .cancel
      (s.channel.completeContent ctx.deviceId now (.inr content) none) devices) := by
  refine ⟨rfl, _, rfl, fun adopted _ m hm _ d content' _ hget => ?_⟩
  rw [(ToDeviceChannel.mem_sendToDevices hm hget).2.2]
  exact ToDeviceChannel.completeContent_noCode _ _ _

theorem Follows.resume (h : Follows s s') (now : ℕ) (caller : ChannelCall) :
    Follows s (s'.resume ctx now caller) := by
  unfold ChannelRun.resume
  dsimp only
  split
  · exact h.trans follows_cancellation
  · exact h

/-- What the request or its verifier sends is for the adopted device, except a request. -/
theorem follows_sendCompleted (type : VerificationType) (content : VerificationContent) :
    Follows s (s.sendCompleted ctx type content) := by
  refine ⟨rfl, _, rfl, fun adopted hadopted m hm hcancel d content' hne hget => ?_⟩
  obtain ⟨htype, hd, -⟩ := ToDeviceChannel.mem_sendToDevices hm hget
  rw [if_neg (by rw [← htype, hcancel]; exact nofun), hadopted] at hd
  exact absurd (List.mem_singleton.1 hd) hne

theorem follows_send (hid : s.channel.transactionId.isSome) (now : ℕ) (newTransactionId : String)
    (type : VerificationType) (content : VerificationContent) :
    Follows s (s.send ctx now newTransactionId type content) := by
  unfold send
  have hnot : ¬ ((type = .request ∨ type = .start) ∧ s.channel.transactionId.isNone) := by
    rintro ⟨-, hnone⟩
    exact Option.isSome_iff_ne_none.1 hid (Option.isNone_iff_eq_none.1 hnone)
  rw [if_neg hnot]
  exact follows_sendCompleted _ _

end ChannelRun

/-! ## Who is adopted -/

namespace ToDeviceChannel

variable {c : ToDeviceChannel}

/-- The channel stays as it is, or it adopts a device of the list that has sent the message. -/
theorem adopt_cases (hid : c.transactionId.isSome) (message : VerificationMessage) :
    c.adopt message = c ∨
    c.deviceId = none ∧ ∃ d ∈ c.devices, message.event.from_device = some d ∧
      c.adopt message = { c with deviceId := some d } := by
  obtain ⟨userId, devices, transactionId, deviceId⟩ := c
  obtain ⟨id, rfl⟩ := Option.isSome_iff_exists.1 hid
  cases deviceId with
  | some d => exact .inl rfl
  | none =>
    cases hfrom : message.event.from_device with
    | none =>
      refine .inl ?_
      rw [adopt, hfrom]
      rfl
    | some d =>
      by_cases hd : d ∈ devices
      · refine .inr ⟨rfl, d, hd, rfl, ?_⟩
        rw [adopt, hfrom, Option.filter_some, if_pos (List.contains_iff_mem.2 hd)]
        rfl
      · refine .inl ?_
        rw [adopt, hfrom, Option.filter_some,
          if_neg (fun hc => hd (List.contains_iff_mem.1 hc))]
        rfl

end ToDeviceChannel

/-- A device of the list that answers is adopted. -/
structure ChannelRun.Adopts (s s' : ChannelRun) (message : VerificationMessage) (d : String) :
    Prop where
  noneBefore : s.channel.deviceId = none
  hasDevice : message.type.hasDevice = true
  from_device : message.event.from_device = some d
  mem : d ∈ s.channel.devices
  channel : s'.channel = { s.channel with deviceId := some d }
  sent : s'.sent = s.sent

namespace ChannelRun

variable {ctx : RequestContext} {s s' : ChannelRun} {now : ℕ} {message : VerificationMessage}
  {e : ChannelStep} {p : ChannelRun × ChannelStep}

variable (ctx now message) in

theorem handleEvent_cases (hid : s.channel.transactionId.isSome) :
    Follows s (s.handleEvent ctx now message) ∨
      ∃ d, Adopts s (s.handleEvent ctx now message) message d := by
  unfold handleEvent
  split
  next hdevice =>
    dsimp only
    rcases ToDeviceChannel.adopt_cases hid message with
      hsame | ⟨hnone, d, hd, hfrom, hadopt⟩
    · rw [hsame]
      refine .inl ?_
      split
      · exact follows_cancellation
      · exact follows_proceed _ _
    · rw [hadopt, hfrom, if_neg (by simp)]
      exact .inr ⟨d, hnone, hdevice, hfrom, hd, (proceed_frame _ _).1, (proceed_frame _ _).2⟩
  · exact .inl (follows_proceed _ _)

/-- **Another device is turned away**: what it sends gets no further than the channel. -/
theorem handleEvent_ignores {d : String} (hdevice : message.type.hasDevice = true)
    (hfrom : message.event.from_device = some d)
    (hother : (s.handleEvent ctx now message).channel.deviceId ≠ some d) :
    (s.handleEvent ctx now message).request = s.request ∧
      (s.handleEvent ctx now message).tasks = s.tasks := by
  unfold handleEvent at hother ⊢
  rw [if_pos hdevice] at hother ⊢
  dsimp only at hother ⊢
  split
  · exact ⟨rfl, rfl⟩
  next hsame =>
    rw [if_neg hsame] at hother
    refine absurd ?_ hother
    rw [handOver, (proceed_frame _ _).1]
    simp only [Bool.or_eq_true, decide_eq_true_eq, not_or, not_not] at hsame
    exact hsame.2.trans hfrom

theorem step_request {e : RequestStep} (h : ∀ call, e ≠ .handleEvent call) :
    s.step ctx (.request e) =
      (s.request.alone.step ctx e).map fun run => { s with request := run.request } := by
  cases e with
  | handleEvent call => exact absurd rfl (h call)
  | _ => rfl

/-- **One step**: the channel stays as it is, or it adopts the device of a message that is an answer
to our request. -/
theorem step_cases {userId transactionId : String} (huser : s.channel.userId = userId)
    (hid : s.channel.transactionId = some transactionId) (hstep : s.step ctx e = some s') :
    Follows s s' ∨ ∃ now message d, e = .receive now message ∧
      message.Answers ctx userId transactionId ∧ Adopts s s' message d := by
  have hsome : s.channel.transactionId.isSome := by
    rw [hid]
    rfl
  cases e with
  | receive now message =>
    obtain rfl := Option.some.inj hstep
    rw [onKeyVerificationMessage]
    split
    next hours =>
      simp only [Bool.and_eq_true, decide_eq_true_eq] at hours
      rcases handleEvent_cases ctx now message hsome with hfollows | ⟨d, hadopts⟩
      · exact .inl hfollows
      · exact .inr ⟨now, message, d, rfl,
          ⟨hours.1.1, hours.1.2.trans huser, hours.2.trans hid, hadopts.hasDevice⟩, hadopts⟩
    · exact .inl (.of_eq rfl rfl)
  | checked i =>
    refine .inl ?_
    rw [step] at hstep
    split at hstep
    · obtain rfl := Option.some.inj hstep
      exact .of_eq (proceed_frame _ _).1 (proceed_frame _ _).2
    · exact nomatch hstep
  | qrCode i created =>
    refine .inl ?_
    rw [step] at hstep
    split at hstep
    next phase caller _ =>
      obtain rfl := Option.some.inj hstep
      split
      · refine Follows.returnTo ?_ caller
        exact .of_eq rfl rfl
      · exact .of_eq rfl rfl
    · exact nomatch hstep
  | resume now i returns =>
    refine .inl ?_
    rw [step] at hstep
    split at hstep
    next caller _ =>
      obtain rfl := Option.some.inj hstep
      split
      · refine Follows.resume ?_ now caller
        exact .of_eq rfl rfl
      · exact .of_eq rfl rfl
    · exact nomatch hstep
  | send now newTransactionId type content =>
    obtain rfl := Option.some.inj hstep
    exact .inl (follows_send hsome now newTransactionId type content)
  | sendCompleted type content =>
    obtain rfl := Option.some.inj hstep
    exact .inl (follows_sendCompleted type content)
  | sent i delivered expiring =>
    refine .inl ?_
    rw [step] at hstep
    split at hstep
    · obtain rfl := Option.some.inj hstep
      split
      · exact .of_eq (proceed_frame _ _).1 (proceed_frame _ _).2
      · exact .of_eq rfl rfl
    · exact nomatch hstep
  | request e =>
    refine .inl ?_
    by_cases hcall : ∃ call, e = .handleEvent call
    · obtain ⟨call, rfl⟩ := hcall
      exact nomatch hstep
    · rw [step_request fun call heq => hcall ⟨call, heq⟩] at hstep
      obtain ⟨run, -, rfl⟩ := Option.map_eq_some_iff.1 hstep
      exact .of_eq rfl rfl

/-! ## Runs -/

/-- What the channel never changes. -/
structure Kept (userId : String) (devices : List String) (transactionId : String)
    (s : ChannelRun) : Prop where
  userId : s.channel.userId = userId
  devices : s.channel.devices = devices
  transactionId : s.channel.transactionId = some transactionId

variable {userId : String} {devices : List String} {transactionId : String}

theorem Kept.step (h : Kept userId devices transactionId s) (hstep : s.step ctx e = some s') :
    Kept userId devices transactionId s' := by
  rcases step_cases h.userId h.transactionId hstep with hfollows | ⟨_, _, _, -, -, hadopts⟩
  · exact ⟨hfollows.channel ▸ h.userId, hfollows.channel ▸ h.devices,
      hfollows.channel ▸ h.transactionId⟩
  · refine ⟨?_, ?_, ?_⟩ <;> rw [hadopts.channel]
    · exact h.userId
    · exact h.devices
    · exact h.transactionId

variable {tr : List (ChannelRun × ChannelStep)} {adopted : String}

theorem kept_of_trace (h : (channelSystem ctx now userId devices transactionId).Trace tr s) :
    Kept userId devices transactionId s := by
  have hreachable : (channelSystem ctx now userId devices transactionId).Reachable s := ⟨tr, h⟩
  exact hreachable.invariant ⟨rfl, rfl, rfl⟩ fun _ _ _ hkept hstep => hkept.step hstep

theorem kept_of_mem (h : (channelSystem ctx now userId devices transactionId).Trace tr s)
    (hp : p ∈ tr) : Kept userId devices transactionId p.1 := by
  induction h with
  | start => exact absurd hp List.not_mem_nil
  | snoc htr _ ih =>
    rcases List.mem_append.1 hp with hp | hp
    · exact ih hp
    · obtain rfl := List.mem_singleton.1 hp
      exact kept_of_trace htr

/-- A device that has been adopted stays, and no other one is told a code. -/
def Since (adopted : String) (s s' : ChannelRun) : Prop :=
  s'.channel.deviceId = some adopted ∧
    ∃ new, s'.sent = s.sent ++ new ∧ ∀ m ∈ new, m.TellsNoCode adopted

theorem Since.step {s₀ : ChannelRun} (h : Since adopted s₀ s)
    (hkept : Kept userId devices transactionId s) (hstep : s.step ctx e = some s') :
    Since adopted s₀ s' := by
  obtain ⟨hadopted, new, hnew, hcode⟩ := h
  rcases step_cases hkept.userId hkept.transactionId hstep with
    ⟨hchannel, new', hnew', hcode'⟩ | ⟨_, _, _, -, -, hadopts⟩
  · refine ⟨hchannel ▸ hadopted, new ++ new', by rw [hnew', hnew, List.append_assoc], ?_⟩
    intro m hm
    rcases List.mem_append.1 hm with hm | hm
    · exact hcode m hm
    · exact hcode' adopted hadopted m hm
  · exact nomatch hadopted.symm.trans hadopts.noneBefore

/-- A step by which a device is adopted. -/
structure Adoption (ctx : RequestContext) (userId transactionId : String)
    (p : ChannelRun × ChannelStep) (adopted : String) : Prop where
  noneBefore : p.1.channel.deviceId = none
  step : ∃ s', p.1.step ctx p.2 = some s' ∧ s'.channel.deviceId = some adopted ∧
    s'.sent = p.1.sent
  answers : ∃ now message, p.2 = .receive now message ∧
    message.Answers ctx userId transactionId ∧ message.event.from_device = some adopted
  mem : adopted ∈ p.1.channel.devices

/-- A step that adopts a device is an answer of this device. -/
theorem adoption_of_step (hkept : Kept userId devices transactionId s)
    (hstep : s.step ctx e = some s') (hnone : s.channel.deviceId = none)
    (hsome : s'.channel.deviceId = some adopted) :
    Adoption ctx userId transactionId (s, e) adopted := by
  rcases step_cases hkept.userId hkept.transactionId hstep with
    hfollows | ⟨now, message, d, he, hanswers, hadopts⟩
  · rw [hfollows.channel, hnone] at hsome
    exact nomatch hsome
  · rw [hadopts.channel] at hsome
    obtain rfl := Option.some.inj hsome
    refine ⟨hnone, ⟨s', hstep, ?_, hadopts.sent⟩, ⟨now, message, he, hanswers, hadopts.from_device⟩,
      hadopts.mem⟩
    rw [hadopts.channel]

/-- An answer of a device of the list leads to its adoption if there was none. -/
theorem adopted_of_answers (hkept : Kept userId devices transactionId s) {d : String}
    (hanswers : message.Answers ctx userId transactionId) (hd : d ∈ s.channel.devices)
    (hfrom : message.event.from_device = some d) (hnone : s.channel.deviceId = none) :
    (s.onKeyVerificationMessage ctx now message).channel.deviceId = some d := by
  obtain ⟨hvalid, hsender, hid, hdevice⟩ := hanswers
  have hours : (ToDeviceChannel.validateEvent ctx message &&
      message.event.sender = s.channel.userId &&
      message.transaction_id = s.channel.transactionId) = true := by
    rw [hvalid, hkept.userId, hkept.transactionId]
    simp only [hsender, hid, decide_true, Bool.and_self]
  have hadopt : (s.channel.adopt message).deviceId = some d := by
    rw [ToDeviceChannel.adopt, hnone, hfrom, Option.filter_some,
      if_pos (List.contains_iff_mem.2 hd)]
    rfl
  rw [onKeyVerificationMessage, if_pos hours]
  unfold handleEvent
  rw [if_pos hdevice]
  dsimp only
  rw [hadopt, hfrom, if_neg (by simp), handOver, (proceed_frame _ _).1]
  exact hadopt

/-- What follows an adoption. -/
theorem since_adoption (h : (channelSystem ctx now userId devices transactionId).Trace tr s)
    (hp : p ∈ tr) (hadoption : Adoption ctx userId transactionId p adopted) :
    Since adopted p.1 s := by
  induction h with
  | start => exact absurd hp List.not_mem_nil
  | snoc htr hstep ih =>
    rcases List.mem_append.1 hp with hp | hp
    · exact (ih hp).step (kept_of_trace htr) hstep
    · obtain rfl := List.mem_singleton.1 hp
      obtain ⟨s', hs', hadopted, hsent⟩ := hadoption.step
      obtain rfl := Option.some.inj (hs'.symm.trans hstep)
      exact ⟨hadopted, [], by rw [hsent, List.append_nil],
        fun _ hm => absurd hm List.not_mem_nil⟩

/-- Where a device has been adopted, there was an adoption. -/
theorem exists_adoption (h : (channelSystem ctx now userId devices transactionId).Trace tr s)
    (hadopted : s.channel.deviceId = some adopted) :
    ∃ p ∈ tr, Adoption ctx userId transactionId p adopted := by
  induction h with
  | start => exact nomatch hadopted
  | @snoc tr s s' e htr hstep ih =>
    cases hbefore : s.channel.deviceId with
    | none =>
      exact ⟨(s, e), List.mem_append_right _ List.mem_cons_self,
        adoption_of_step (kept_of_trace htr) hstep hbefore hadopted⟩
    | some d =>
      have hsame : Since d s s' :=
        Since.step ⟨hbefore, [], (List.append_nil _).symm,
          fun _ hm => absurd hm List.not_mem_nil⟩ (kept_of_trace htr) hstep
      obtain rfl := Option.some.inj (hsame.1.symm.trans hadopted)
      obtain ⟨p, hp, hadoption⟩ := ih hbefore
      exact ⟨p, List.mem_append_left _ hp, hadoption⟩

/-- Until a device is adopted there is none, and from then on it is this one. -/
theorem adopted_along (h : (channelSystem ctx now userId devices transactionId).Trace tr s) :
    System.HoldsAlong
      (fun t => t.channel.deviceId = none ∨ t.channel.deviceId = s.channel.deviceId) tr s := by
  induction h with
  | start => exact ⟨fun p hp => absurd hp List.not_mem_nil, .inr rfl⟩
  | @snoc tr s s' e htr hstep ih =>
    refine System.holdsAlong_snoc.2 ⟨?_, .inr rfl⟩
    cases hbefore : s.channel.deviceId with
    | none =>
      rw [hbefore] at ih
      exact ⟨fun p hp => .inl ((ih.1 p hp).elim id id), .inl hbefore⟩
    | some d =>
      have hsame : Since d s s' :=
        Since.step ⟨hbefore, [], (List.append_nil _).symm,
          fun _ hm => absurd hm List.not_mem_nil⟩ (kept_of_trace htr) hstep
      rw [hsame.1, ← hbefore]
      exact ih

/-- **Nobody is told as it should be**: the cancellations after an adoption have no code. -/
theorem Since.not_toldOnce {other : String} {s₀ : ChannelRun} (h : Since adopted s₀ s)
    (hne : other ≠ adopted) : ¬ ToldOnce transactionId other (s.sent.drop s₀.sent.length) := by
  rintro ⟨content, hcancellations, -, hcode⟩
  obtain ⟨-, new, hnew, hnocode⟩ := h
  rw [hnew, List.drop_left] at hcancellations
  have hmem : content ∈ cancellationsTo other new := by
    rw [hcancellations]
    exact List.mem_cons_self
  obtain ⟨m, hm, hget⟩ := List.mem_filterMap.1 hmem
  obtain ⟨hcancel, hget⟩ := Option.ite_none_right_eq_some.1 hget
  rw [hnocode m hm hcancel other content hne hget] at hcode
  exact nomatch hcode

/-- The same for whatever comes in. -/
theorem ignores_of_receive {d : String} (hstep : s.step ctx (.receive now message) = some s')
    (hdevice : message.type.hasDevice = true) (hfrom : message.event.from_device = some d)
    (hother : s'.channel.deviceId ≠ some d) : s'.request = s.request ∧ s'.tasks = s.tasks := by
  obtain rfl := Option.some.inj hstep
  rw [onKeyVerificationMessage] at hother ⊢
  split
  next hours =>
    rw [if_pos hours] at hother
    exact handleEvent_ignores hdevice hfrom hother
  · exact ⟨rfl, rfl⟩

/-- **When the answers are dealt with as they should be**: when a device that answers is the only
one of the list. At most one device is adopted and the others are ignored in every run; but where
there is another device to tell, it is never told with a code. -/
theorem answersRight_iff (h : (channelSystem ctx now userId devices transactionId).Trace tr s) :
    AnswersRight ctx devices transactionId tr s ↔
      System.Meets (fun _ e => NobodyToTell ctx userId devices transactionId e) tr := by
  constructor
  · rintro ⟨-, -, htells⟩ ⟨s₀, e⟩ hp
    -- there is no other device once one is adopted
    have honly : ∀ p ∈ tr, ∀ adopted, Adoption ctx userId transactionId p adopted →
        ∀ other ∈ devices, other = adopted := by
      intro p hp adopted hadoption other hother
      by_contra hne
      obtain ⟨s', hstep, hsome, -⟩ := hadoption.step
      exact (since_adoption h hp hadoption).not_toldOnce hne
        (htells p hp s' adopted hstep hadoption.noneBefore hsome other hother hne)
    cases e with
    | receive now message =>
      intro hanswers d hd hfrom other hother
      have hkept := kept_of_mem h hp
      obtain ⟨p, hp, adopted, hadoption⟩ : ∃ p ∈ tr, ∃ adopted,
          Adoption ctx userId transactionId p adopted := by
        cases hbefore : s₀.channel.deviceId with
        | none =>
          exact ⟨_, hp, d, adoption_of_step hkept rfl hbefore
            (adopted_of_answers hkept hanswers (hkept.devices.symm ▸ hd) hfrom hbefore)⟩
        | some adopted =>
          have hlast : s.channel.deviceId = some adopted := by
            rcases (adopted_along h).1 _ hp with hnone | hlast
            · exact nomatch hbefore.symm.trans hnone
            · exact hlast.symm.trans hbefore
          obtain ⟨p, hp, hadoption⟩ := exists_adoption h hlast
          exact ⟨p, hp, adopted, hadoption⟩
      rw [honly p hp adopted hadoption other hother, honly p hp adopted hadoption d hd]
    | _ => trivial
  · intro hmeets
    refine ⟨?_, ?_, ?_⟩
    · have halong := adopted_along h
      cases hadopted : s.channel.deviceId with
      | none =>
        rw [hadopted] at halong
        exact ⟨"", fun p hp => .inl ((halong.1 p hp).elim id id), .inl hadopted⟩
      | some d =>
        rw [hadopted] at halong
        exact ⟨d, halong⟩
    · rintro ⟨s₀, e⟩ hp now message s' d rfl hstep hdevice hfrom hother
      exact ignores_of_receive hstep hdevice hfrom hother
    · intro p hp s' d hstep hnone hsome other hmem hne
      have hadoption := adoption_of_step (kept_of_mem h hp) hstep hnone hsome
      obtain ⟨now, message, he, hanswers, hfrom⟩ := hadoption.answers
      have honly := hmeets p hp
      rw [he] at honly
      have hdevices : d ∈ devices := (kept_of_mem h hp).devices ▸ hadoption.mem
      exact absurd (honly hanswers d hdevices hfrom other hmem) hne

/-- Alice's client, for verifications over to-device messages. -/
def aliceToDevice : RequestContext := ⟨"@alice:hs", "TABLET", [SAS_NAME], true, false⟩

/-- The request is sent, and Bob's phone is ready. -/
def phoneIsReady : List ChannelStep :=
  [.sent 0 true false,
    .receive 1 ⟨.ready, ⟨"", "@bob:hs", some "PHONE", [SAS_NAME], none⟩, false, some "txn", false,
      true, false⟩,
    .checked 0, .resume 1 0 true]

def bobsDevices (devices : List String) : System ChannelRun ChannelStep :=
  channelSystem aliceToDevice 0 "@bob:hs" devices "txn"

theorem phoneIsReady_runs : ((bobsDevices ["PHONE"]).run phoneIsReady).isSome := by decide +kernel

/-- His only device. -/
theorem answersRight_iff_phoneIsReady :
    AnswersRight aliceToDevice ["PHONE"] "txn" ((bobsDevices ["PHONE"]).steps phoneIsReady)
      (((bobsDevices ["PHONE"]).run phoneIsReady).get phoneIsReady_runs) :=
  (answersRight_iff (System.trace_get phoneIsReady_runs)).2 (by decide +kernel)

theorem phoneIsReady_runs_laptop :
    ((bobsDevices ["PHONE", "LAPTOP"]).run phoneIsReady).isSome := by decide +kernel

theorem phoneIsReady_length :
    1 < ((bobsDevices ["PHONE", "LAPTOP"]).steps phoneIsReady).length := by decide +kernel

/-- The step that adopts the phone. -/
def adoptsPhone : ChannelRun × ChannelStep :=
  ((bobsDevices ["PHONE", "LAPTOP"]).steps phoneIsReady).get ⟨1, phoneIsReady_length⟩

theorem adoptsPhone_steps : (adoptsPhone.1.step aliceToDevice adoptsPhone.2).isSome := by
  decide +kernel

/-- His laptop is told nothing but the transaction id. -/
theorem answersRight_fails : ¬ ∀ (ctx : RequestContext) (now : ℕ) (userId : String)
    (devices : List String) (transactionId : String) (tr : List (ChannelRun × ChannelStep))
    (s : ChannelRun), (channelSystem ctx now userId devices transactionId).Trace tr s →
      s.tasks = [] → AnswersRight ctx devices transactionId tr s := by
  intro h
  have hlaw := h _ _ _ _ _ _ _ (System.trace_get phoneIsReady_runs_laptop)
    (List.isEmpty_iff.1 (by decide +kernel))
  obtain ⟨content, hcancellations, -, hcode⟩ := hlaw.tellsOthers adoptsPhone
    (List.get_mem _ _) _ "PHONE" (Option.some_get adoptsPhone_steps).symm (by decide +kernel)
    (by decide +kernel) "LAPTOP" (by decide) (by decide)
  have hcodes : (cancellationsTo "LAPTOP" ((((bobsDevices ["PHONE", "LAPTOP"]).run
      phoneIsReady).get phoneIsReady_runs_laptop).sent.drop adoptsPhone.1.sent.length)).map
      (fun content => content.text "code") = [none] := by decide +kernel
  rw [show cancellationsTo "LAPTOP" _ = [content] from hcancellations, List.map_singleton] at hcodes
  rw [List.singleton_inj.1 hcodes] at hcode
  exact nomatch hcode

end ChannelRun

end MatrixSdk.Crypto
