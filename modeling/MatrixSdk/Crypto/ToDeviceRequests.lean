/-
The verification requests over to-device messages: `ToDeviceRequests` in
`crypto/verification/request/ToDeviceChannel.js`, and `requestVerification` of `crypto/index.js`.

Whoever asks for a verification that is under way is to get the request that there is. Whether a
request is to the devices asked for is decided by their `deviceId`, but the devices are given by
their ids: a string has no such property, and any two of them are the same. What is compared is the
number of devices, and a request to one device is taken for one to another
([`requestVerification_iff`]).

The channel of a request and what becomes of it are those of `ToDeviceChannel.lean`.
-/
import MatrixSdk.Crypto.ToDeviceChannel
import MatrixSdk.Lib.NestedObject

set_option autoImplicit false

namespace MatrixSdk.Crypto

open MatrixSdk.Lib ChannelRun

/-! ## Devices of a request -/

/-- `device.deviceId` of a device that is given by its id. -/
def deviceIdProperty (_device : String) : Option String := none

namespace ToDeviceChannel

/-- `isToDevices` -/
def isToDevices (c : ToDeviceChannel) (devices : List String) : Bool :=
  if devices.length = c.devices.length then
    devices.all fun device =>
      match c.devices.find? fun d => deviceIdProperty d = deviceIdProperty device with
      | some d => d ≠ ""
      | none => false
  else false

end ToDeviceChannel

namespace ChannelRun

/-- `pending` of the request. -/
def pending (r : ChannelRun) : Bool :=
  !r.request.observeOnly && r.request.phase ≠ .done && r.request.phase ≠ .cancelled

/-- `new VerificationRequest` with a channel. -/
def newRequest (channel : ToDeviceChannel) : ChannelRun :=
  ⟨channel, .new (some channel.userId), [], []⟩

/-- `beginKeyVerification` of the request, where the device is known. -/
def beginKeyVerification (ctx : RequestContext) (method : String) (r : ChannelRun) : ChannelRun :=
  { r with request := (r.request.alone.beginKeyVerification ctx method true).request }

/-- The request itself has not been sent yet. -/
def isSendingRequest (r : ChannelRun) : Bool :=
  r.tasks.any fun
    | .sending .request _ => true
    | _ => false

end ChannelRun

/-! ## The requests -/

/-- A call of `requestVerification` that waits for its request to be sent. -/
structure RequestCall where
  userId : String
  devices : List String
  /-- The request, by its place among all requests. -/
  request : ℕ
  deriving DecidableEq

/-- All requests as they were made, and where they are found by user and transaction id. -/
structure VerificationRequests where
  requests : List ChannelRun
  requestsByUserId : JsObject String (JsObject String ℕ)
  waiting : List RequestCall

/-- What `requestVerification` gets: a request that there is, or a new one. -/
inductive RequestAnswer
  | existing (i : ℕ)
  | new (r : ChannelRun)

namespace VerificationRequests

variable (ctx : RequestContext) (s : VerificationRequests)

def getRequestBySenderAndTxnId (sender txnId : String) : Option ℕ :=
  s.requestsByUserId.getIn sender txnId

/-- A request is added, under a user and a transaction id. -/
def addRequest (sender txnId : String) (r : ChannelRun) : VerificationRequests :=
  { s with
    requests := s.requests ++ [r]
    requestsByUserId := s.requestsByUserId.setIn sender txnId s.requests.length }

/-- A request goes on. -/
def update (i : ℕ) (r : ChannelRun) : VerificationRequests :=
  { s with requests := s.requests.set i r }

/-- `requestsByTxnId.values()`, each with its place. -/
def requestsOf (userId : String) : List (ℕ × ChannelRun) :=
  (s.requestsByUserId.get userId).elim [] fun requestsByTxnId =>
    requestsByTxnId.entries.filterMap fun e => s.requests[e.2]?.map fun r => (e.2, r)

/-- `findRequestInProgress` -/
def findRequestInProgress (userId : String) (devices : List String) : Option ℕ :=
  ((s.requestsOf userId).find? fun e => e.2.pending && e.2.channel.isToDevices devices).map
    Prod.fst

/-- `getRequestsInProgress` -/
def getRequestsInProgress (userId : String) : List ChannelRun :=
  ((s.requestsOf userId).filter fun e => e.2.pending).map Prod.snd

/-- What `requestVerification` answers with, when it has the devices. -/
def answer (now : ℕ) (userId : String) (devices : List String) (transactionId : String) :
    RequestAnswer :=
  match s.findRequestInProgress userId devices with
  | some i => .existing i
  | none => .new (ChannelRun.requestVerification ctx now userId devices transactionId)

/-- `requestVerification`, up to the sending of the request. -/
def requestVerification (now : ℕ) (userId : String) (devices : List String)
    (transactionId : String) : VerificationRequests :=
  match s.answer ctx now userId devices transactionId with
  | .existing _ => s
  | .new r =>
    { s.addRequest userId transactionId r with
      waiting := s.waiting ++ [⟨userId, devices, s.requests.length⟩] }

/-- The request that `_requestVerificationWithChannel` returns in the end: "don't replace the
request created by a racing remote echo". -/
def returned (call : RequestCall) : ℕ :=
  let racingRequest := s.requests[call.request]?.bind fun r =>
    r.channel.transactionId.bind (s.getRequestBySenderAndTxnId r.channel.userId)
  racingRequest.getD call.request

/-- `beginKeyVerification` of `crypto/index.js`. -/
def beginKeyVerification (method userId deviceId : String) (transactionId : Option String)
    (newTransactionId : String) : VerificationRequests :=
  match transactionId with
  | some transactionId =>
    match s.getRequestBySenderAndTxnId userId transactionId with
    | some i =>
      match s.requests[i]? with
      | some r => s.update i (r.beginKeyVerification ctx method)
      | none => s
    -- an error is thrown
    | none => s
  | none =>
    let channel : ToDeviceChannel := ⟨userId, [deviceId], some newTransactionId, some deviceId⟩
    s.addRequest userId newTransactionId
      ((ChannelRun.newRequest channel).beginKeyVerification ctx method)

/-- `canCreateRequest` of the channel. -/
def canCreateRequest (type : VerificationType) : Bool := type = .request ∨ type = .start

/-- `_onKeyVerificationMessage`, with `_handleVerificationEvent`. -/
def onKeyVerificationMessage (now : ℕ) (message : VerificationMessage) : VerificationRequests :=
  let sender := message.event.sender
  match ToDeviceChannel.validateEvent ctx message, message.transaction_id with
  | true, some txnId =>
    match s.getRequestBySenderAndTxnId sender txnId with
    | some i =>
      match s.requests[i]? with
      | some r => s.update i (r.handleEvent ctx now message)
      | none => s
    | none =>
      match canCreateRequest message.type, message.event.from_device.filter (· ≠ "") with
      | true, some deviceId =>
        let channel : ToDeviceChannel := ⟨sender, [deviceId], none, none⟩
        s.addRequest sender txnId ((ChannelRun.newRequest channel).handleEvent ctx now message)
      | _, _ => s
  | _, _ => s

end VerificationRequests

/-! ## Their runs -/

inductive VerificationStep
  /-- The application asks for a verification. `stored` are the devices that are known, if any. -/
  | requestVerification (now : ℕ) (userId : String) (devices stored : Option (List String))
      (transactionId : String)
  /-- A request has been sent, and the call returns. -/
  | returns (k : ℕ)
  | beginKeyVerification (method userId deviceId : String) (transactionId : Option String)
      (newTransactionId : String)
  /-- A to-device event comes in. -/
  | receive (now : ℕ) (message : VerificationMessage)
  /-- Something else happens to a request. -/
  | request (i : ℕ) (e : ChannelStep)

namespace VerificationRequests

/-- A transaction id that is made up is a new one. -/
def IsNew (s : VerificationRequests) (userId transactionId : String) : Prop :=
  s.getRequestBySenderAndTxnId userId transactionId = none

instance (s : VerificationRequests) (userId transactionId : String) :
    Decidable (s.IsNew userId transactionId) :=
  inferInstanceAs (Decidable (_ = none))

def step (ctx : RequestContext) (s : VerificationRequests) :
    VerificationStep → Option VerificationRequests
  | .requestVerification now userId devices stored transactionId =>
    if s.IsNew userId transactionId then
      match devices.or stored with
      | some devices => some (s.requestVerification ctx now userId devices transactionId)
      -- the keys of `undefined`: an error is thrown
      | none => some s
    else none
  | .returns k =>
    match s.waiting[k]? with
    | some call =>
      if (s.requests[call.request]?.any ChannelRun.isSendingRequest) then none
      else some { s with waiting := s.waiting.eraseIdx k }
    | none => none
  | .beginKeyVerification method userId deviceId transactionId newTransactionId =>
    if s.IsNew userId newTransactionId then
      some (s.beginKeyVerification ctx method userId deviceId transactionId newTransactionId)
    else none
  | .receive now message => some (s.onKeyVerificationMessage ctx now message)
  | .request _ (.receive _ _) => none
  | .request i e =>
    match s.requests[i]? with
    | some r => (r.step ctx e).map (s.update i)
    | none => none

end VerificationRequests

def verificationSystem (ctx : RequestContext) : System VerificationRequests VerificationStep where
  init := ⟨[], .empty, []⟩
  step := VerificationRequests.step ctx

/-! ## What a call should get -/

/-- The same set of devices. -/
def SameDevices (devices devices' : List String) : Prop :=
  (∀ d ∈ devices, d ∈ devices') ∧ ∀ d ∈ devices', d ∈ devices

instance (devices devices' : List String) : Decidable (SameDevices devices devices') :=
  inferInstanceAs (Decidable (_ ∧ _))

/-- A pending request to a user, for exactly these devices. -/
def ChannelRun.IsPendingTo (r : ChannelRun) (userId : String) (devices : List String) : Prop :=
  r.pending = true ∧ r.channel.userId = userId ∧ SameDevices r.channel.devices devices

/-- The request has been sent to exactly these devices. -/
def ChannelRun.IsSentTo (r : ChannelRun) (userId : String) (devices : List String) : Prop :=
  (∀ m ∈ r.sent, m.type = .request ∧ m.userId = userId) ∧
    ∀ d, d ∈ devices ↔ ∃ m ∈ r.sent, (m.messages.get d).isSome

/-- **The right answer**: the request that is pending for exactly these devices, or a new one to
them. -/
structure RightAnswer (s : VerificationRequests) (userId : String) (devices : List String)
    (answer : RequestAnswer) : Prop where
  existing : (∃ i, answer = .existing i) ↔ ∃ r ∈ s.requests, r.IsPendingTo userId devices
  same : ∀ i, answer = .existing i → ∃ r, s.requests[i]? = some r ∧ r.IsPendingTo userId devices
  new : ∀ r, answer = .new r →
    r.channel.userId = userId ∧ r.channel.devices = devices ∧ r.IsSentTo userId devices

/-- A step by which a request is got is right: at once, or after it has been sent. -/
def VerificationStep.IsRight (ctx : RequestContext) (s : VerificationRequests) :
    VerificationStep → Prop
  | .requestVerification now userId devices stored transactionId =>
    ∀ devices', devices.or stored = some devices' →
      RightAnswer s userId devices' (s.answer ctx now userId devices' transactionId)
  | .returns k => ∀ call, s.waiting[k]? = some call →
    ∃ r, s.requests[s.returned call]? = some r ∧ r.channel.userId = call.userId ∧
      r.channel.devices = call.devices
  | _ => True

/-- A request to as many devices, the first of which has an id that is not empty. -/
def ChannelRun.LooksAlike (r : ChannelRun) (devices : List String) : Prop :=
  r.channel.devices.length = devices.length ∧ (devices ≠ [] → r.channel.devices.head? ≠ some "")

instance (r : ChannelRun) (devices : List String) : Decidable (r.LooksAlike devices) :=
  inferInstanceAs (Decidable (_ ∧ _))

/-- **No mix-up**: of the pending requests to the user, the first one to as many devices is to the
same devices. Where there is none to as many, there is none to the same either. -/
def VerificationRequests.Unmistakable (s : VerificationRequests) (userId : String)
    (devices : List String) : Prop :=
  match (s.getRequestsInProgress userId).find? fun r => r.LooksAlike devices with
  | some r => SameDevices r.channel.devices devices
  | none => ∀ r ∈ s.getRequestsInProgress userId, ¬ SameDevices r.channel.devices devices

instance (s : VerificationRequests) (userId : String) (devices : List String) :
    Decidable (s.Unmistakable userId devices) := by
  unfold VerificationRequests.Unmistakable
  split <;> infer_instance

/-- So for the devices of a call. -/
def VerificationStep.Unmistakable (s : VerificationRequests) : VerificationStep → Prop
  | .requestVerification _ userId devices stored _ =>
    ∀ devices' ∈ devices.or stored, s.Unmistakable userId devices'
  | _ => True

instance (s : VerificationRequests) : (e : VerificationStep) → Decidable (e.Unmistakable s)
  | .requestVerification _ userId devices stored _ =>
    inferInstanceAs (Decidable (∀ devices' ∈ devices.or stored, s.Unmistakable userId devices'))
  | .returns _ | .beginKeyVerification .. | .receive .. | .request .. => .isTrue trivial

/-! ## The comparison of devices -/

/-- **The slip**: no id has a `deviceId`, so only the numbers are compared. -/
theorem ChannelRun.isToDevices_iff {r : ChannelRun} {devices : List String} :
    r.channel.isToDevices devices = true ↔ r.LooksAlike devices := by
  unfold ToDeviceChannel.isToDevices ChannelRun.LooksAlike
  by_cases hlength : devices.length = r.channel.devices.length
  · rw [if_pos hlength]
    have hfind : ∀ device, (r.channel.devices.find? fun d =>
        deviceIdProperty d = deviceIdProperty device) = r.channel.devices.head? := by
      intro device
      cases r.channel.devices <;> rfl
    simp only [hfind, List.all_eq_true, hlength, true_and]
    constructor
    · intro hall hne hhead
      obtain ⟨device, hdevice⟩ := List.exists_mem_of_ne_nil _ hne
      have h := hall device hdevice
      rw [hhead] at h
      exact nomatch h
    · intro hhead device hdevice
      cases hdevices : r.channel.devices with
      | nil =>
        rw [hdevices, List.length_nil, List.length_eq_zero_iff] at hlength
        rw [hlength] at hdevice
        exact absurd hdevice List.not_mem_nil
      | cons d rest =>
        have hne := hhead (List.ne_nil_of_mem hdevice)
        rw [hdevices, List.head?_cons] at hne
        exact decide_eq_true fun hempty => hne (congrArg some hempty)
  · rw [if_neg hlength]
    exact iff_of_false Bool.false_ne_true fun h => hlength h.1.symm

/-- A new request is sent to the devices that it is for. -/
theorem isSentTo_requestVerification (ctx : RequestContext) (now : ℕ) (userId : String)
    (devices : List String) (transactionId : String) :
    (requestVerification ctx now userId devices transactionId).IsSentTo userId
      devices := by
  unfold requestVerification send sendCompleted
    ChannelRun.IsSentTo addTask sendToDevices ToDeviceChannel.sendToDevices
  simp only [Option.isNone_some, and_false, Bool.false_eq_true, if_false, if_true, List.nil_append]
  by_cases hnil : devices = []
  · rw [if_pos hnil, hnil]
    simp
  · rw [if_neg hnil]
    refine ⟨fun m hm => ?_, fun d => ?_⟩
    · obtain rfl := List.mem_singleton.1 hm
      exact ⟨rfl, rfl⟩
    · have hget := fun content => JsObject.get_setAll (V := VerificationContent) .empty devices
        content d
      unfold JsObject.setAll at hget
      simp only [List.mem_singleton, exists_eq_left, hget]
      split
      next hd => exact iff_of_true hd rfl
      next hd => exact iff_of_false hd Bool.false_ne_true

namespace ChannelRun

variable {ctx : RequestContext} {s : ChannelRun} {userId transactionId : String}
  {devices : List String}

/-- An event that comes in does not change whom the channel is for. -/
theorem Kept.handleEvent (h : Kept userId devices transactionId s) (now : ℕ)
    (message : VerificationMessage) :
    Kept userId devices transactionId (s.handleEvent ctx now message) := by
  have hid : s.channel.transactionId.isSome := by
    rw [h.transactionId]
    rfl
  rcases handleEvent_cases ctx now message hid with hfollows | ⟨d, hadopts⟩
  · exact ⟨hfollows.channel ▸ h.userId, hfollows.channel ▸ h.devices,
      hfollows.channel ▸ h.transactionId⟩
  · refine ⟨?_, ?_, ?_⟩ <;> rw [hadopts.channel]
    · exact h.userId
    · exact h.devices
    · exact h.transactionId

/-- A request that an event makes is for the device that has sent it, under its transaction id. -/
theorem kept_newRequest {now : ℕ} {message : VerificationMessage} {deviceId : String}
    (hdevice : message.type.hasDevice = true) (hfrom : message.event.from_device = some deviceId)
    (hid : message.transaction_id = some transactionId) :
    Kept userId [deviceId] transactionId
      ((newRequest ⟨userId, [deviceId], none, none⟩).handleEvent ctx now message) := by
  have hadopt : (ToDeviceChannel.mk userId [deviceId] none none).adopt message =
      ⟨userId, [deviceId], some transactionId, some deviceId⟩ := by
    unfold ToDeviceChannel.adopt
    rw [hfrom, hid, Option.filter_some, if_pos (List.contains_iff_mem.2 List.mem_cons_self)]
    rfl
  unfold handleEvent newRequest
  rw [if_pos hdevice]
  rw [hadopt, hfrom, if_neg (by simp), handOver]
  refine ⟨?_, ?_, ?_⟩ <;> rw [(proceed_frame _ _).1]

end ChannelRun

/-! ## Where the requests are found -/

namespace VerificationRequests

/-- **Every request is found under its user and its transaction id**, and nothing else is. A call
waits for a request of its own. -/
structure Indexed (s : VerificationRequests) : Prop where
  found : ∀ i r, s.requests[i]? = some r → ∃ txnId, r.channel.transactionId = some txnId ∧
    s.getRequestBySenderAndTxnId r.channel.userId txnId = some i
  kept : ∀ userId txnId i, s.getRequestBySenderAndTxnId userId txnId = some i →
    ∃ r, s.requests[i]? = some r ∧ r.channel.userId = userId
  waiting : ∀ call ∈ s.waiting, ∃ r, s.requests[call.request]? = some r ∧
    r.channel.userId = call.userId ∧ r.channel.devices = call.devices

variable {ctx : RequestContext} {s s' : VerificationRequests} {userId : String} {r : ChannelRun}

/-- The requests to a user are those of the map. -/
theorem Indexed.mem_requestsOf (h : s.Indexed) {i : ℕ} :
    (i, r) ∈ s.requestsOf userId ↔ s.requests[i]? = some r ∧ r.channel.userId = userId := by
  have hmem : (i, r) ∈ s.requestsOf userId ↔
      (∃ txnId, s.getRequestBySenderAndTxnId userId txnId = some i) ∧
        s.requests[i]? = some r := by
    unfold requestsOf getRequestBySenderAndTxnId JsObject.getIn
    cases s.requestsByUserId.get userId with
    | none => simp
    | some requestsByTxnId =>
      simp only [Option.elim_some, List.mem_filterMap, Prod.exists, JsObject.mem_entries,
        Option.map_eq_some_iff, Prod.mk.injEq, Option.bind_some]
      constructor
      · rintro ⟨txnId, j, hget, r', hr', rfl, rfl⟩
        exact ⟨⟨txnId, hget⟩, hr'⟩
      · rintro ⟨⟨txnId, hget⟩, hr⟩
        exact ⟨txnId, i, hget, r, hr, rfl, rfl⟩
  rw [hmem]
  constructor
  · rintro ⟨⟨txnId, hget⟩, hr⟩
    obtain ⟨r', hr', huser⟩ := h.kept userId txnId i hget
    obtain rfl := Option.some.inj (hr.symm.trans hr')
    exact ⟨hr, huser⟩
  · rintro ⟨hr, rfl⟩
    obtain ⟨txnId, -, hget⟩ := h.found i r hr
    exact ⟨⟨txnId, hget⟩, hr⟩

theorem Indexed.mem_getRequestsInProgress (h : s.Indexed) :
    r ∈ s.getRequestsInProgress userId ↔
      r ∈ s.requests ∧ r.pending = true ∧ r.channel.userId = userId := by
  unfold getRequestsInProgress
  simp only [List.mem_map, List.mem_filter, Prod.exists, exists_eq_right]
  constructor
  · rintro ⟨i, hmem, hpending⟩
    obtain ⟨hr, huser⟩ := h.mem_requestsOf.1 hmem
    exact ⟨List.mem_of_getElem? hr, hpending, huser⟩
  · rintro ⟨hr, hpending, huser⟩
    obtain ⟨i, hi⟩ := List.mem_iff_getElem?.1 hr
    exact ⟨i, h.mem_requestsOf.2 ⟨hi, huser⟩, hpending⟩

/-- What is found in progress is the first that looks alike. -/
theorem find_getRequestsInProgress (userId : String) (devices : List String) :
    ((s.getRequestsInProgress userId).find? fun r => r.LooksAlike devices) =
      ((s.requestsOf userId).find? fun e =>
        e.2.pending && e.2.channel.isToDevices devices).map Prod.snd := by
  unfold getRequestsInProgress
  rw [List.find?_map, List.find?_filter]
  congr 2
  funext e
  by_cases hlooks : e.2.LooksAlike devices
  · rw [isToDevices_iff.2 hlooks, Bool.and_true]
    simp [hlooks]
  · rw [Bool.eq_false_iff.2 fun h => hlooks (isToDevices_iff.1 h), Bool.and_false]
    simp [hlooks]

/-- **When a call gets the right answer.** -/
theorem Indexed.rightAnswer_iff (h : s.Indexed) (now : ℕ) (userId : String)
    (devices : List String) (transactionId : String) :
    RightAnswer s userId devices (s.answer ctx now userId devices transactionId) ↔
      s.Unmistakable userId devices := by
  unfold Unmistakable answer findRequestInProgress
  rw [find_getRequestsInProgress]
  cases hfind : (s.requestsOf userId).find? fun e =>
      e.2.pending && e.2.channel.isToDevices devices with
  | none =>
    dsimp only [Option.map_none]
    constructor
    · intro hright r hr hsame
      obtain ⟨hmem, hpending, huser⟩ := h.mem_getRequestsInProgress.1 hr
      obtain ⟨i, hi⟩ := hright.existing.2 ⟨r, hmem, hpending, huser, hsame⟩
      exact nomatch hi
    · intro hnone
      refine ⟨iff_of_false ?_ ?_, fun i hi => (nomatch hi), fun r hr => ?_⟩
      · rintro ⟨i, hi⟩
        exact nomatch hi
      · rintro ⟨r, hmem, hpending, huser, hsame⟩
        exact hnone r (h.mem_getRequestsInProgress.2 ⟨hmem, hpending, huser⟩) hsame
      · obtain rfl := RequestAnswer.new.inj hr
        exact ⟨rfl, rfl, isSentTo_requestVerification ctx now userId devices transactionId⟩
  | some e =>
    obtain ⟨i, r⟩ := e
    dsimp only [Option.map_some]
    obtain ⟨hr, huser⟩ := h.mem_requestsOf.1 (List.mem_of_find?_eq_some hfind)
    have hfound := List.find?_some hfind
    have hpending : r.pending = true := (Bool.and_eq_true_iff.1 hfound).1
    constructor
    · intro hright
      obtain ⟨r', hr', hpendingTo⟩ := hright.same i rfl
      obtain rfl := Option.some.inj (hr.symm.trans hr')
      exact hpendingTo.2.2
    · intro hsame
      have hpendingTo : r.IsPendingTo userId devices := ⟨hpending, huser, hsame⟩
      refine ⟨iff_of_true ⟨i, rfl⟩ ⟨r, List.mem_of_getElem? hr, hpendingTo⟩, fun j hj => ?_,
        fun r' hr' => nomatch hr'⟩
      obtain rfl := RequestAnswer.existing.inj hj
      exact ⟨r, hr, hpendingTo⟩

/-- A call that returns has its own request. -/
theorem Indexed.returned_eq (h : s.Indexed) {call : RequestCall} (hcall : call ∈ s.waiting) :
    s.returned call = call.request := by
  obtain ⟨r, hr, -, -⟩ := h.waiting call hcall
  obtain ⟨txnId, hid, hget⟩ := h.found call.request r hr
  unfold returned
  rw [hr, Option.bind_some, hid, Option.bind_some, hget, Option.getD_some]

/-! ## Runs -/

/-- A request goes on without a change of whom it is for. -/
theorem Indexed.update (h : s.Indexed) {i : ℕ} {r' : ChannelRun} (hr : s.requests[i]? = some r)
    (hkept : ∀ txnId, r.channel.transactionId = some txnId →
      ChannelRun.Kept r.channel.userId r.channel.devices txnId r') : (s.update i r').Indexed := by
  obtain ⟨txnId, hid, hget⟩ := h.found i r hr
  have hr' := hkept txnId hid
  have hlt : i < s.requests.length := (List.getElem?_eq_some_iff.1 hr).1
  have hset : ∀ j, (s.update i r').requests[j]? =
      if j = i then some r' else s.requests[j]? := by
    intro j
    unfold VerificationRequests.update
    rw [List.getElem?_set]
    by_cases hj : j = i
    · rw [if_pos hj.symm, if_pos hj, if_pos hlt]
    · rw [if_neg fun h => hj h.symm, if_neg hj]
  refine ⟨fun j rj hj => ?_, fun userId txnId' j hj => ?_, fun call hcall => ?_⟩
  · rw [hset] at hj
    split at hj
    next heq =>
      obtain rfl := Option.some.inj hj
      rw [heq, hr'.userId]
      exact ⟨txnId, hr'.transactionId, hget⟩
    next => exact h.found j rj hj
  · obtain ⟨rj, hrj, huser⟩ := h.kept userId txnId' j hj
    rw [hset]
    split
    next heq =>
      subst heq
      obtain rfl := Option.some.inj (hr.symm.trans hrj)
      exact ⟨r', rfl, hr'.userId.trans huser⟩
    next => exact ⟨rj, hrj, huser⟩
  · obtain ⟨rc, hrc, huser, hdevices⟩ := h.waiting call hcall
    rw [hset]
    split
    next heq =>
      subst heq
      obtain rfl := Option.some.inj (hr.symm.trans hrc)
      exact ⟨r', rfl, hr'.userId.trans huser, hr'.devices.trans hdevices⟩
    next => exact ⟨rc, hrc, huser, hdevices⟩

/-- A request is added under its own user and transaction id. -/
theorem Indexed.addRequest (h : s.Indexed) {sender txnId : String} (hnew : s.IsNew sender txnId)
    {devices : List String} (hr : ChannelRun.Kept sender devices txnId r) :
    (s.addRequest sender txnId r).Indexed := by
  have hget : ∀ userId txnId', (s.addRequest sender txnId r).getRequestBySenderAndTxnId userId
      txnId' = if userId = sender ∧ txnId' = txnId then some s.requests.length
        else s.getRequestBySenderAndTxnId userId txnId' := fun userId txnId' =>
    JsObject.getIn_setIn s.requestsByUserId sender userId txnId txnId' s.requests.length
  have hold : ∀ {i : ℕ} {r' : ChannelRun}, s.requests[i]? = some r' →
      (s.requests ++ [r])[i]? = some r' := by
    intro i r' hi
    rw [List.getElem?_append_left (List.getElem?_eq_some_iff.1 hi).1]
    exact hi
  refine ⟨fun i r' hi => ?_, fun userId txnId' i hi => ?_, fun call hcall => ?_⟩
  · rcases Nat.lt_or_ge i s.requests.length with hlt | hge
    · rw [show (s.addRequest sender txnId r).requests = s.requests ++ [r] from rfl,
        List.getElem?_append_left hlt] at hi
      obtain ⟨txnId', hid, hfound⟩ := h.found i r' hi
      refine ⟨txnId', hid, ?_⟩
      rw [hget, if_neg, hfound]
      -- the place was free
      rintro ⟨huser, rfl⟩
      rw [huser, hnew] at hfound
      exact nomatch hfound
    · rw [show (s.addRequest sender txnId r).requests = s.requests ++ [r] from rfl,
        List.getElem?_append_right hge, List.getElem?_singleton] at hi
      split at hi
      next hzero =>
        obtain rfl := Option.some.inj hi
        refine ⟨txnId, hr.transactionId, ?_⟩
        rw [hget, hr.userId, if_pos ⟨rfl, rfl⟩]
        exact congrArg some (by omega)
      next => exact nomatch hi
  · rw [hget] at hi
    split at hi
    next heq =>
      obtain rfl := Option.some.inj hi
      exact ⟨r, List.getElem?_concat_length, hr.userId.trans heq.1.symm⟩
    next =>
      obtain ⟨r', hr', huser⟩ := h.kept userId txnId' i hi
      exact ⟨r', hold hr', huser⟩
  · obtain ⟨r', hr', huser, hdevices⟩ := h.waiting call hcall
    exact ⟨r', hold hr', huser, hdevices⟩

theorem Indexed.requestVerification (h : s.Indexed) {now : ℕ} {devices : List String}
    {transactionId : String} (hnew : s.IsNew userId transactionId) :
    (s.requestVerification ctx now userId devices transactionId).Indexed := by
  unfold VerificationRequests.requestVerification
  split
  next => exact h
  next r hanswer =>
    have hr : ChannelRun.Kept userId devices transactionId r := by
      unfold answer at hanswer
      split at hanswer
      next => exact nomatch hanswer
      next =>
        obtain rfl := RequestAnswer.new.inj hanswer
        exact ⟨rfl, rfl, rfl⟩
    obtain ⟨hfound, hkept, hwaiting⟩ := h.addRequest hnew hr
    refine ⟨hfound, hkept, fun call hcall => ?_⟩
    rcases List.mem_append.1 hcall with hcall | hcall
    · exact hwaiting call hcall
    · obtain rfl := List.mem_singleton.1 hcall
      exact ⟨r, List.getElem?_concat_length, hr.userId, hr.devices⟩

theorem Indexed.beginKeyVerification (h : s.Indexed) {method deviceId : String}
    {transactionId : Option String} {newTransactionId : String}
    (hnew : s.IsNew userId newTransactionId) :
    (s.beginKeyVerification ctx method userId deviceId transactionId newTransactionId).Indexed := by
  unfold VerificationRequests.beginKeyVerification
  split
  next =>
    split
    next =>
      split
      next r hr => exact h.update hr fun txnId hid => ⟨rfl, rfl, hid⟩
      next => exact h
    next => exact h
  next =>
    have hr : ChannelRun.Kept userId [deviceId] newTransactionId
        ((newRequest ⟨userId, [deviceId], some newTransactionId,
          some deviceId⟩).beginKeyVerification ctx method) := ⟨rfl, rfl, rfl⟩
    exact h.addRequest hnew hr

theorem Indexed.onKeyVerificationMessage (h : s.Indexed) (now : ℕ)
    (message : VerificationMessage) : (s.onKeyVerificationMessage ctx now message).Indexed := by
  unfold VerificationRequests.onKeyVerificationMessage
  dsimp only
  split
  next txnId _ hid =>
    split
    next i hi =>
      split
      next r hr => exact h.update hr fun txnId hid =>
        ChannelRun.Kept.handleEvent ⟨rfl, rfl, hid⟩ now message
      next => exact h
    next hnone =>
      split
      next deviceId hcreate hfrom =>
        obtain ⟨hfrom, -⟩ := Option.filter_eq_some_iff.1 hfrom
        have hdevice : message.type.hasDevice = true := by
          unfold canCreateRequest at hcreate
          unfold VerificationType.hasDevice
          rw [decide_eq_true_eq] at hcreate ⊢
          rcases hcreate with hrequest | hstart
          · exact .inl hrequest
          · exact .inr (.inr hstart)
        exact h.addRequest hnone (kept_newRequest hdevice hfrom hid)
      next => exact h
  next => exact h

/-- What happens to a request happens to its channel. -/
theorem step_request {i : ℕ} {e : ChannelStep} (hstep : s.step ctx (.request i e) = some s') :
    ∃ r r', s.requests[i]? = some r ∧ r.step ctx e = some r' ∧ s.update i r' = s' := by
  have hmatch : (match s.requests[i]? with
      | some r => (r.step ctx e).map (s.update i)
      | none => none) = some s' := by
    cases e with
    | receive now message => exact nomatch hstep
    | _ => exact hstep
  split at hmatch
  next r hr =>
    obtain ⟨r', hr', heq⟩ := Option.map_eq_some_iff.1 hmatch
    exact ⟨r, r', hr, hr', heq⟩
  next => exact nomatch hmatch

/-- **One step.** -/
theorem Indexed.step (h : s.Indexed) {e : VerificationStep} (hstep : s.step ctx e = some s') :
    s'.Indexed := by
  cases e with
  | requestVerification now userId devices stored transactionId =>
    rw [VerificationRequests.step] at hstep
    split at hstep
    next hnew =>
      split at hstep
      next =>
        obtain rfl := Option.some.inj hstep
        exact h.requestVerification hnew
      next =>
        obtain rfl := Option.some.inj hstep
        exact h
    next => exact nomatch hstep
  | returns k =>
    rw [VerificationRequests.step] at hstep
    split at hstep
    next =>
      split at hstep
      next => exact nomatch hstep
      next =>
        obtain rfl := Option.some.inj hstep
        exact ⟨h.found, h.kept, fun call hcall =>
          h.waiting call (List.mem_of_mem_eraseIdx hcall)⟩
    next => exact nomatch hstep
  | beginKeyVerification method userId deviceId transactionId newTransactionId =>
    rw [VerificationRequests.step] at hstep
    split at hstep
    next hnew =>
      obtain rfl := Option.some.inj hstep
      exact h.beginKeyVerification hnew
    next => exact nomatch hstep
  | receive now message =>
    obtain rfl := Option.some.inj hstep
    exact h.onKeyVerificationMessage now message
  | request i e =>
    obtain ⟨r, r', hr, hr', rfl⟩ := step_request hstep
    exact h.update hr fun txnId hid => ChannelRun.Kept.step ⟨rfl, rfl, hid⟩ hr'

theorem indexed_of_reachable (h : (verificationSystem ctx).Reachable s) : s.Indexed :=
  h.invariant ⟨fun _ _ h => (nomatch h), fun _ _ _ h => (nomatch h),
    fun _ h => absurd h List.not_mem_nil⟩ fun _ _ _ hs hstep => hs.step hstep

/-- A step is right when it cannot be mistaken. -/
theorem Indexed.isRight_iff (h : s.Indexed) (e : VerificationStep) :
    e.IsRight ctx s ↔ e.Unmistakable s := by
  cases e with
  | requestVerification now userId devices stored transactionId =>
    exact forall₂_congr fun devices' _ => h.rightAnswer_iff now userId devices' transactionId
  | returns k =>
    refine iff_of_true (fun call hcall => ?_) trivial
    have hmem : call ∈ s.waiting := List.mem_of_getElem? hcall
    rw [h.returned_eq hmem]
    exact h.waiting call hmem
  | _ => exact Iff.rfl

end VerificationRequests

/-- **When every call gets the right request**, in a run. -/
theorem requestVerification_iff {ctx : RequestContext}
    {tr : List (VerificationRequests × VerificationStep)} {s : VerificationRequests}
    (h : (verificationSystem ctx).Trace tr s) :
    System.Meets (fun s e => e.IsRight ctx s) tr ↔
      System.Meets (fun s e => e.Unmistakable s) tr := by
  induction h with
  | start =>
    refine iff_of_true ?_ ?_ <;> exact fun p hp => absurd hp List.not_mem_nil
  | snoc htr _ ih =>
    rw [System.meets_snoc, System.meets_snoc, ih]
    have hindexed := VerificationRequests.indexed_of_reachable ⟨_, htr⟩
    exact and_congr_right fun _ => hindexed.isRight_iff _

/-! ## One device for another -/

/-- Alice's client asks for Bob's phone, and the request is sent. -/
def phoneRequested : List VerificationStep :=
  [.requestVerification 0 "@bob:hs" (some ["PHONE"]) none "txn",
    .request 0 (.sent 0 true false), .returns 0]

def alicesRequests : System VerificationRequests VerificationStep :=
  verificationSystem ChannelRun.aliceToDevice

/-- Then it asks for a device of his. -/
def askFor (deviceId : String) : VerificationStep :=
  .requestVerification 1 "@bob:hs" (some [deviceId]) none "txn2"

theorem askFor_runs (deviceId : String) (hdevice : deviceId = "PHONE" ∨ deviceId = "LAPTOP") :
    (alicesRequests.run (phoneRequested ++ [askFor deviceId])).isSome := by
  rcases hdevice with rfl | rfl <;> decide +kernel

/-- For the phone there is a request. -/
theorem requestVerification_iff_phone :
    System.Meets (fun s e => e.IsRight ChannelRun.aliceToDevice s)
      (alicesRequests.steps (phoneRequested ++ [askFor "PHONE"])) :=
  (requestVerification_iff (System.trace_get (askFor_runs "PHONE" (.inl rfl)))).2
    (by decide +kernel)

theorem phoneRequested_runs : (alicesRequests.run phoneRequested).isSome := by decide +kernel

/-- His laptop is asked for, and the request for the phone is returned. -/
theorem requestVerification_fails : ¬ ∀ (ctx : RequestContext)
    (tr : List (VerificationRequests × VerificationStep)) (s : VerificationRequests),
      (verificationSystem ctx).Trace tr s → System.Meets (fun s e => e.IsRight ctx s) tr := by
  intro h
  have htr := System.trace_get phoneRequested_runs
  have hsome : (alicesRequests.step ((alicesRequests.run phoneRequested).get phoneRequested_runs)
      (askFor "LAPTOP")).isSome := by decide +kernel
  obtain ⟨s', hstep⟩ := Option.isSome_iff_exists.1 hsome
  have hright := (System.meets_snoc.1 (h ChannelRun.aliceToDevice _ _ (htr.snoc hstep))).2
  have hindexed := VerificationRequests.indexed_of_reachable ⟨_, htr⟩
  exact absurd ((hindexed.isRight_iff _).1 hright) (by decide +kernel)

end MatrixSdk.Crypto
