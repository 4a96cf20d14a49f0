/-
Requests for room keys: `crypto/OutgoingRoomKeyRequestManager.js`, and the part of the crypto
store that it uses.

A request is a record that is stored, sent to other devices by a background loop, and cancelled
by another message with the same request id. The record goes from state to state by updates that
expect it in a given state. The server drops a message that has a transaction id it has seen, so
that a message that is sent twice arrives once.

What the recipients have received is compared with the records. In between are the messages that
are on their way or about to be sent ([`KeyRequestState.Outgoing`]); every record is such that
none of them can do harm ([`KeyRequestState.RecordOk`]), as long as no step takes it away while
they are ([`KeyRequestState.Careful`]).

Transaction ids are numbers, and `makeTxnId` counts. The recipients of a request never change and
get each message together, so they are not told apart.
-/
import MatrixSdk.Lib.System
import Mathlib.Data.Nat.Notation

set_option autoImplicit false

namespace MatrixSdk.Crypto

open MatrixSdk.Lib

/-! ## Records and messages -/

/-- `ROOM_KEY_REQUEST_STATES`. A request that is to be cancelled has the `cancellationTxnId` with
it, which is set together with the state. -/
inductive KeyRequestStatus
  | unsent
  | sent
  | cancellationPending (cancellationTxnId : ℕ)
  | cancellationPendingAndWillResend (cancellationTxnId : ℕ)
  deriving DecidableEq

/-- A record of the store. -/
structure KeyRequest (Body : Type) where
  requestBody : Body
  requestId : ℕ
  requestTxnId : Option ℕ
  state : KeyRequestStatus

/-- The action of a message. -/
inductive KeyRequestAction (Body : Type)
  | request (body : Body)
  | requestCancellation
  deriving DecidableEq

/-- A message of type `m.room_key_request`. -/
structure KeyRequestMessage (Body : Type) where
  requestId : ℕ
  action : KeyRequestAction Body
  deriving DecidableEq

/-- Where a call of `sendToDevice` is. -/
inductive SendPhase
  | inFlight
  /-- The server has it. -/
  | received
  /-- The response is there, and the record is yet to be updated. -/
  | succeeded
  deriving DecidableEq

/-- A message that is sent. After a cancellation the request is sent again if `andResend`. -/
structure KeyRequestSend (Body : Type) where
  message : KeyRequestMessage Body
  txnId : ℕ
  andResend : Bool
  phase : SendPhase

/-- A call of `queueRoomKeyRequest` or `cancelRoomKeyRequest`. -/
inductive KeyRequestCall (Body : Type)
  | queue (body : Body) (resend : Bool)
  | queueFound (body : Body) (resend : Bool) (req : Option (KeyRequest Body))
  | cancel (body : Body)
  | cancelFound (req : Option (KeyRequest Body))
  /-- The record has been updated, and the cancellation is about to be sent. -/
  | send (send : KeyRequestSend Body)
  | sending (send : KeyRequestSend Body)

/-- `_sendOutgoingRoomKeyRequests`, and the timer before it. -/
inductive KeyRequestLoop (Body : Type)
  | off
  | scheduled
  /-- It looks for a record. -/
  | reading
  /-- It has found one that has this to send. -/
  | found (send : KeyRequestSend Body)
  | sending (send : KeyRequestSend Body)

/-- The manager, the store, and the server with the transaction ids it has seen and the messages
the recipients have got. -/
structure KeyRequestState (Body : Type) where
  requests : List (KeyRequest Body)
  nextTxnId : ℕ
  calls : List (KeyRequestCall Body)
  loop : KeyRequestLoop Body
  clientRunning : Bool
  seen : List ℕ
  received : List (KeyRequestMessage Body)

section Model

variable {Body : Type} [DecidableEq Body]

namespace KeyRequestStatus

def isUnsent : KeyRequestStatus → Bool
  | .unsent => true
  | _ => false

def isSent : KeyRequestStatus → Bool
  | .sent => true
  | _ => false

def isCancellationPending : KeyRequestStatus → Bool
  | .cancellationPending _ => true
  | _ => false

def willResend : KeyRequestStatus → Bool
  | .cancellationPendingAndWillResend _ => true
  | _ => false

def cancellationTxnId : KeyRequestStatus → Option ℕ
  | .cancellationPending txnId | .cancellationPendingAndWillResend txnId => some txnId
  | _ => none

variable {state : KeyRequestStatus}

theorem eq_unsent (h : state.isUnsent = true) : state = .unsent := by
  cases state <;> first | rfl | cases h

theorem eq_sent (h : state.isSent = true) : state = .sent := by
  cases state <;> first | rfl | cases h

theorem eq_cancellationPending (h : state.isCancellationPending = true) :
    ∃ txnId, state = .cancellationPending txnId := by
  cases state <;> first | exact ⟨_, rfl⟩ | cases h

theorem eq_willResend (h : state.willResend = true) :
    ∃ txnId, state = .cancellationPendingAndWillResend txnId := by
  cases state <;> first | exact ⟨_, rfl⟩ | cases h

end KeyRequestStatus

namespace KeyRequest

/-- `req.requestTxnId || req.requestId`. -/
def txnId (req : KeyRequest Body) : ℕ := req.requestTxnId.getD req.requestId

/-- The message of `_sendOutgoingRoomKeyRequest`. -/
def request (req : KeyRequest Body) : KeyRequestMessage Body :=
  ⟨req.requestId, .request req.requestBody⟩

/-- The message of `_sendOutgoingRoomKeyRequestCancellation`. -/
def cancellation (req : KeyRequest Body) : KeyRequestMessage Body :=
  ⟨req.requestId, .requestCancellation⟩

/-- What a record has to send. -/
def send? (req : KeyRequest Body) : Option (KeyRequestSend Body) :=
  match req.state with
  | .unsent => some ⟨req.request, req.txnId, false, .inFlight⟩
  | .sent => none
  | .cancellationPending txnId => some ⟨req.cancellation, txnId, false, .inFlight⟩
  | .cancellationPendingAndWillResend txnId => some ⟨req.cancellation, txnId, true, .inFlight⟩

end KeyRequest

namespace KeyRequestState

def empty : KeyRequestState Body := ⟨[], 0, [], .off, false, [], []⟩

/-! ## The store -/

/-- `getOutgoingRoomKeyRequest`. -/
def getRequest (s : KeyRequestState Body) (body : Body) : Option (KeyRequest Body) :=
  s.requests.find? fun req => req.requestBody = body

/-- `updateOutgoingRoomKeyRequest`: the record afterwards, if it is in the expected state. -/
def updateRequest (s : KeyRequestState Body) (requestId : ℕ) (expected : KeyRequestStatus → Bool)
    (update : KeyRequest Body → KeyRequest Body) :
    Option (KeyRequest Body × KeyRequestState Body) :=
  match s.requests.find? fun req => req.requestId = requestId with
  | none => none
  | some req =>
    if expected req.state then
      let requests := s.requests.map fun req => if req.requestId = requestId then update req else req
      some (update req, { s with requests := requests })
    else none

/-- `deleteOutgoingRoomKeyRequest`. -/
def deleteRequest (s : KeyRequestState Body) (requestId : ℕ) (expected : KeyRequestStatus → Bool) :
    KeyRequestState Body :=
  match s.requests.find? fun req => req.requestId = requestId with
  | none => s
  | some req =>
    if expected req.state then
      { s with requests := s.requests.filter fun req => req.requestId ≠ requestId }
    else s

/-! ## Calls -/

/-- A call goes on, or is over. -/
def setCall (s : KeyRequestState Body) (i : ℕ) (call : Option (KeyRequestCall Body)) :
    KeyRequestState Body :=
  match call with
  | none => { s with calls := s.calls.eraseIdx i }
  | some call => { s with calls := s.calls.set i call }

/-- `_startTimer`. -/
def startTimer (s : KeyRequestState Body) : KeyRequestState Body :=
  match s.loop with
  | .off => { s with loop := .scheduled }
  | _ => s

/-- `queueRoomKeyRequest`, after the record has been looked up. -/
def queueFound (s : KeyRequestState Body) (i : ℕ) (body : Body) (resend : Bool)
    (req : Option (KeyRequest Body)) : KeyRequestState Body :=
  let txnId := s.nextTxnId
  match req with
  | none =>
    let s := { s.setCall i none with nextTxnId := txnId + 1 }
    if (s.getRequest body).isSome then s
    else { s with requests := s.requests ++ [⟨body, txnId, none, .unsent⟩] }
  | some req =>
    match req.state with
    -- "nothing to do here, since we're going to send a request anyways"
    | .cancellationPendingAndWillResend _ => s.setCall i none
    | .unsent => s.setCall i none
    | .cancellationPending _ =>
      let state := if resend then .cancellationPendingAndWillResend txnId else .sent
      let s := { s.setCall i none with nextTxnId := txnId + 1 }
      match s.updateRequest req.requestId (·.isCancellationPending) ({ · with state := state }) with
      | none => s
      | some (_, s) => s
    | .sent =>
      if resend then
        let state := .cancellationPendingAndWillResend txnId
        let s := { s with nextTxnId := txnId + 2 }
        -- "need to use a new transaction ID so that the request gets sent"
        match s.updateRequest req.requestId (·.isSent)
            ({ · with state := state, requestTxnId := some (txnId + 1) }) with
        | none => s.setCall i (some (.queue body resend))
        | some (updatedReq, s) => s.setCall i (updatedReq.send?.map .send)
      else s.setCall i none

/-- `cancelRoomKeyRequest`, after the record has been looked up. -/
def cancelFound (s : KeyRequestState Body) (i : ℕ) (req : Option (KeyRequest Body)) :
    KeyRequestState Body :=
  let txnId := s.nextTxnId
  match req with
  | none => s.setCall i none
  | some req =>
    match req.state with
    | .cancellationPending _ => s.setCall i none
    | .cancellationPendingAndWillResend _ => s.setCall i none
    -- "just delete it"
    | .unsent => (s.setCall i none).deleteRequest req.requestId (·.isUnsent)
    | .sent =>
      let s := { s with nextTxnId := txnId + 1 }
      match s.updateRequest req.requestId (·.isSent)
          ({ · with state := .cancellationPending txnId }) with
      | none => s.setCall i none
      | some (updatedReq, s) => s.setCall i (updatedReq.send?.map .send)

/-- A call goes on to its next `await`. -/
def proceed (s : KeyRequestState Body) (i : ℕ) : Option (KeyRequestState Body) :=
  match s.calls[i]? with
  | none => none
  | some (.queue body resend) => some (s.setCall i (some (.queueFound body resend (s.getRequest body))))
  | some (.queueFound body resend req) => some (s.queueFound i body resend req)
  | some (.cancel body) => some (s.setCall i (some (.cancelFound (s.getRequest body))))
  | some (.cancelFound req) => some (s.cancelFound i req)
  | some (.send send) => some (s.setCall i (some (.sending send)))
  | some (.sending _) => none

/-! ## Sending -/

/-- The message that is being sent by the loop, or by a call. -/
def sending (s : KeyRequestState Body) : Option ℕ → Option (KeyRequestSend Body)
  | none =>
    match s.loop with
    | .sending send => some send
    | _ => none
  | some i =>
    match s.calls[i]? with
    | some (.sending send) => some send
    | _ => none

def setSending (s : KeyRequestState Body) (sender : Option ℕ) (send : KeyRequestSend Body) :
    KeyRequestState Body :=
  match sender with
  | none => { s with loop := .sending send }
  | some i => s.setCall i (some (.sending send))

/-- The server gets a message. -/
def receive (s : KeyRequestState Body) (send : KeyRequestSend Body) : KeyRequestState Body :=
  if send.txnId ∈ s.seen then s
  else { s with seen := send.txnId :: s.seen, received := s.received ++ [send.message] }

/-- `_sendOutgoingRoomKeyRequests`, unless the client has been stopped. -/
def loopAgain (s : KeyRequestState Body) : KeyRequestState Body :=
  { s with loop := if s.clientRunning then .reading else .off }

/-- A send has failed. The loop stops, and a call, if it is one of `cancelRoomKeyRequest`, starts
the timer: it does not resend. -/
def failed (s : KeyRequestState Body) (sender : Option ℕ) (send : KeyRequestSend Body) :
    KeyRequestState Body :=
  match sender with
  | none => { s with loop := .off }
  | some i => if send.andResend then s.setCall i none else (s.setCall i none).startTimer

/-- The record is updated, or deleted, after a message has been sent. -/
def afterSend (s : KeyRequestState Body) (send : KeyRequestSend Body) : KeyRequestState Body :=
  let id := send.message.requestId
  match send.message.action with
  | .request _ =>
    match s.updateRequest id (·.isUnsent) ({ · with state := .sent }) with
    | none => s
    | some (_, s) => s
  | .requestCancellation =>
    if send.andResend then
      match s.updateRequest id (·.willResend) ({ · with state := .unsent }) with
      | none => s
      | some (_, s) => s
    else s.deleteRequest id (·.isCancellationPending)

end KeyRequestState

/-! ## The system -/

inductive KeyRequestStep (Body : Type)
  | queueRoomKeyRequest (body : Body) (resend : Bool)
  | cancelRoomKeyRequest (body : Body)
  | sendQueuedRequests
  | start
  | stop
  /-- A call goes on. -/
  | proceed (i : ℕ)
  | timerFires
  /-- The loop finds a record that has something to send: which one is up to the store. -/
  | find (j : ℕ)
  | findNothing
  | loopSend
  /-- The server gets the message of the loop, or of a call; the response arrives, or the send
  fails, whether the server has got the message or not; the record is updated. -/
  | receive (sender : Option ℕ)
  | succeed (sender : Option ℕ)
  | fail (sender : Option ℕ)
  | update (sender : Option ℕ)

/-- The requests for room keys of a device. -/
def keyRequestSystem : System (KeyRequestState Body) (KeyRequestStep Body) where
  init := .empty
  step s
    | .queueRoomKeyRequest body resend => some { s with calls := s.calls ++ [.queue body resend] }
    | .cancelRoomKeyRequest body => some { s with calls := s.calls ++ [.cancel body] }
    | .sendQueuedRequests => some s.startTimer
    | .start => some { s with clientRunning := true }
    | .stop => some { s with clientRunning := false }
    | .proceed i => s.proceed i
    | .timerFires =>
      match s.loop with
      | .scheduled => some s.loopAgain
      | _ => none
    | .find j =>
      match s.loop, s.requests[j]?.bind (·.send?) with
      | .reading, some send => some { s with loop := .found send }
      | _, _ => none
    | .findNothing =>
      match s.loop with
      | .reading =>
        if s.requests.all fun req => req.send?.isNone then some { s with loop := .off } else none
      | _ => none
    | .loopSend =>
      match s.loop with
      | .found send => some { s with loop := .sending send }
      | _ => none
    | .receive sender =>
      match s.sending sender with
      | some ⟨message, txnId, andResend, .inFlight⟩ =>
        let send : KeyRequestSend Body := ⟨message, txnId, andResend, .received⟩
        some ((s.setSending sender send).receive send)
      | _ => none
    | .succeed sender =>
      match s.sending sender with
      | some ⟨message, txnId, andResend, .received⟩ =>
        some (s.setSending sender ⟨message, txnId, andResend, .succeeded⟩)
      | _ => none
    | .fail sender =>
      match s.sending sender with
      | some ⟨_, _, _, .succeeded⟩ => none
      | some send => some (s.failed sender send)
      | none => none
    | .update sender =>
      match s.sending sender with
      | some ⟨message, txnId, andResend, .succeeded⟩ =>
        let s := s.afterSend ⟨message, txnId, andResend, .succeeded⟩
        match sender with
        | none => some s.loopAgain
        | some i => some (s.setCall i none)
      | _ => none

/-! ## What is on its way -/

def KeyRequestLoop.send? : KeyRequestLoop Body → Option (KeyRequestSend Body)
  | .found send | .sending send => some send
  | _ => none

def KeyRequestCall.send? : KeyRequestCall Body → Option (KeyRequestSend Body)
  | .send outgoing | .sending outgoing => some outgoing
  | _ => none

/-- A record names the transaction ids of its messages. -/
def KeyRequest.Names (req : KeyRequest Body) (message : KeyRequestMessage Body) (txnId : ℕ) : Prop :=
  (message = req.request ∧ txnId = req.txnId) ∨
    (message = req.cancellation ∧ req.state.cancellationTxnId = some txnId)

omit [DecidableEq Body] in
theorem KeyRequest.request_ne_cancellation (req req' : KeyRequest Body) :
    req.request ≠ req'.cancellation := by
  intro heq
  have haction : KeyRequestAction.request req.requestBody = .requestCancellation :=
    congrArg KeyRequestMessage.action heq
  cases haction

namespace KeyRequestState

/-- Some call is sending the message, or is about to. -/
def Calling (s : KeyRequestState Body) (send : KeyRequestSend Body) : Prop :=
  ∃ call ∈ s.calls, call.send? = some send

/-- **The messages that the server may still get**, and those it has got already and whose sender
waits for the response. -/
def Outgoing (s : KeyRequestState Body) (send : KeyRequestSend Body) : Prop :=
  s.loop.send? = some send ∨ s.Calling send

/-- The last message for a request that the recipients have got. -/
def lastReceived (s : KeyRequestState Body) (requestId : ℕ) : Option (KeyRequestAction Body) :=
  (s.received.filter fun message => message.requestId = requestId).getLast?.map (·.action)

/-- The recipients have got the request, and no cancellation after it. -/
def Outstanding (s : KeyRequestState Body) (requestId : ℕ) : Prop :=
  ∃ body, s.lastReceived requestId = some (.request body)

/-- No message on its way can do harm to the record. -/
structure RecordOk (s : KeyRequestState Body) (req : KeyRequest Body) : Prop where
  cancellation : ∀ send, s.Outgoing send → send.message = req.cancellation →
    send.txnId ∈ s.seen ∨ req.state.cancellationTxnId = some send.txnId
  unsent : req.state = .unsent → (s.Outstanding req.requestId ↔ req.txnId ∈ s.seen)
  sent : req.state = .sent → s.Outstanding req.requestId
  pending : ∀ txnId, req.state.cancellationTxnId = some txnId →
    (s.Outstanding req.requestId ↔ txnId ∉ s.seen)
  resend : req.state.willResend = true → req.txnId ∉ s.seen

/-- A message that is on its way, or may be sent for a record. -/
def Names (s : KeyRequestState Body) (message : KeyRequestMessage Body) (txnId : ℕ) : Prop :=
  (∃ send, s.Outgoing send ∧ send.message = message ∧ send.txnId = txnId) ∨
    ∃ req ∈ s.requests, req.Names message txnId

/-- What holds along the runs. -/
structure Inv (s : KeyRequestState Body) : Prop where
  unique : ∀ req ∈ s.requests, ∀ req' ∈ s.requests, req.requestId = req'.requestId → req = req'
  fresh : ∀ message txnId, s.Names message txnId → txnId < s.nextTxnId
  names : ∀ message message' txnId, s.Names message txnId → s.Names message' txnId →
    message = message'
  ids : ∀ req ∈ s.requests, req.requestId < s.nextTxnId
  outgoingIds : ∀ send, s.Outgoing send → send.message.requestId < s.nextTxnId
  seen : ∀ txnId ∈ s.seen, txnId < s.nextTxnId
  received : ∀ message ∈ s.received, message.requestId < s.nextTxnId
  bodies : ∀ message ∈ s.received, ∀ body, message.action = .request body →
    ∀ req ∈ s.requests, req.requestId = message.requestId → req.requestBody = body
  phase : ∀ send, s.Outgoing send → send.phase ≠ .inFlight → send.txnId ∈ s.seen
  calls : ∀ send, s.Calling send → send.message.action = .requestCancellation
  loop : ∀ send, s.loop.send? = some send → send.message.action ≠ .requestCancellation →
    ∃ req ∈ s.requests, req.state = .unsent ∧ send.message = req.request ∧ send.txnId = req.txnId
  record : ∀ req ∈ s.requests, s.RecordOk req
  gone : ∀ requestId, (∀ req ∈ s.requests, req.requestId ≠ requestId) → ¬ s.Outstanding requestId

/-- Nothing is sent, nor will be without a further call. -/
structure Quiescent (s : KeyRequestState Body) : Prop where
  calls : s.calls = []
  loop : s.loop = .off

/-- **The records agree with what the recipients have got.** -/
structure Agrees (s : KeyRequestState Body) : Prop where
  sent : ∀ req ∈ s.requests, req.state = .sent →
    s.lastReceived req.requestId = some (.request req.requestBody)
  absent : ∀ body, s.getRequest body = none →
    ∀ requestId, s.lastReceived requestId ≠ some (.request body)

/-- What the steps have to mind. A record is deleted as unsent only if the recipients have not got
the request and it is not being sent. A record is no longer to be cancelled only if it is not to be
resent either, and the cancellation has not arrived and is not being sent. The cancellation after
which a record is updated is the one that the record has. -/
def Careful (s : KeyRequestState Body) : KeyRequestStep Body → Prop
  | .proceed i => ∀ call ∈ s.calls[i]?,
      match call with
      | .cancelFound (some found) => found.state = .unsent →
          ∀ req ∈ s.requests, req.requestId = found.requestId → req.state = .unsent →
            ¬ s.Outstanding req.requestId ∧
              ∀ send, s.loop.send? = some send → send.message ≠ req.request
      | .queueFound _ resend (some found) => found.state.isCancellationPending = true →
          ∀ req ∈ s.requests, req.requestId = found.requestId →
            ∀ txnId, req.state = .cancellationPending txnId →
              resend = false ∧ txnId ∉ s.seen ∧
                ∀ send, s.Outgoing send → send.message = req.cancellation → send.txnId ∈ s.seen
      | _ => True
  | .update sender => ∀ send ∈ s.sending sender, send.message.action = .requestCancellation →
      ∀ req ∈ s.requests, req.requestId = send.message.requestId →
        req.state.willResend = send.andResend →
          ∀ txnId, req.state.cancellationTxnId = some txnId → send.txnId = txnId
  | _ => True

variable {s s' : KeyRequestState Body} {send : KeyRequestSend Body}
  {next : Option (KeyRequestCall Body)} {req : KeyRequest Body}
  {update : KeyRequest Body → KeyRequest Body}

section

omit [DecidableEq Body]

/-- Every message has one sender, which is the loop or a call. -/
theorem sending_outgoing {sender : Option ℕ} (h : s.sending sender = some send) :
    (sender = none ∧ s.loop = .sending send) ∨
      ∃ i, sender = some i ∧ s.calls[i]? = some (.sending send) := by
  unfold sending at h
  split at h
  · split at h
    next hloop =>
      obtain rfl := Option.some.inj h
      exact .inl ⟨rfl, hloop⟩
    · cases h
  next i =>
    split at h
    next hcall =>
      obtain rfl := Option.some.inj h
      exact .inr ⟨i, rfl, hcall⟩
    · cases h

theorem Outgoing.of_sending {sender : Option ℕ} (h : s.sending sender = some send) :
    s.Outgoing send := by
  rcases sending_outgoing h with ⟨-, hloop⟩ | ⟨i, -, hcall⟩
  · left
    rw [hloop]
    rfl
  · exact .inr ⟨_, List.mem_of_getElem? hcall, rfl⟩

/-- The calls are those there were, and the one that goes on. -/
theorem setCall_calls {i : ℕ} {call : KeyRequestCall Body} (h : call ∈ (s.setCall i next).calls) :
    call ∈ s.calls ∨ next = some call := by
  cases next with
  | none => exact .inl (List.mem_of_mem_eraseIdx h)
  | some next => exact (List.mem_or_eq_of_mem_set h).imp_right fun heq => congrArg some heq.symm

theorem setCall_same (s : KeyRequestState Body) (i : ℕ) (next : Option (KeyRequestCall Body)) :
    (s.setCall i next).requests = s.requests ∧ (s.setCall i next).seen = s.seen ∧
      (s.setCall i next).received = s.received ∧ (s.setCall i next).nextTxnId = s.nextTxnId ∧
      (s.setCall i next).loop = s.loop := by
  cases next with
  | none => exact ⟨rfl, rfl, rfl, rfl, rfl⟩
  | some next => exact ⟨rfl, rfl, rfl, rfl, rfl⟩

end

/-- A message is the one that was on its way, and the server has it if it is said to. -/
structure Covers (s : KeyRequestState Body) (old new : KeyRequestSend Body) : Prop where
  message : new.message = old.message
  txnId : new.txnId = old.txnId
  phase : new.phase ≠ .inFlight → old.phase ≠ .inFlight ∨ new.txnId ∈ s.seen

section

omit [DecidableEq Body]

/-- Steps that leave the records and the server alone, and send nothing new. -/
theorem Inv.frame (h : s.Inv) (hrequests : s'.requests = s.requests) (hseen : s'.seen = s.seen)
    (hreceived : s'.received = s.received) (hnext : s.nextTxnId ≤ s'.nextTxnId)
    (hloop : ∀ send, s'.loop.send? = some send → ∃ old, s.loop.send? = some old ∧ s.Covers old send)
    (hcalls : ∀ send, s'.Calling send → ∃ old, s.Calling old ∧ s.Covers old send) : s'.Inv := by
  have hout : ∀ send, s'.Outgoing send → ∃ old, s.Outgoing old ∧ s.Covers old send := by
    rintro send (hsend | hsend)
    · obtain ⟨old, hold, hcovers⟩ := hloop send hsend
      exact ⟨old, .inl hold, hcovers⟩
    · obtain ⟨old, hold, hcovers⟩ := hcalls send hsend
      exact ⟨old, .inr hold, hcovers⟩
  have hnames : ∀ message txnId, s'.Names message txnId → s.Names message txnId := by
    rintro message txnId (⟨send, hsend, rfl, rfl⟩ | ⟨req, hreq, hname⟩)
    · obtain ⟨old, hold, hcovers⟩ := hout send hsend
      exact .inl ⟨old, hold, hcovers.message.symm, hcovers.txnId.symm⟩
    · exact .inr ⟨req, hrequests ▸ hreq, hname⟩
  have hlast : ∀ requestId, s'.Outstanding requestId ↔ s.Outstanding requestId := by
    intro requestId
    rw [Outstanding, lastReceived, hreceived, Outstanding, lastReceived]
  refine
    { unique := hrequests ▸ h.unique
      fresh := fun message txnId hname => Nat.lt_of_lt_of_le (h.fresh _ _ (hnames _ _ hname)) hnext
      names := fun message message' txnId hname hname' =>
        h.names _ _ _ (hnames _ _ hname) (hnames _ _ hname')
      ids := fun req hreq => Nat.lt_of_lt_of_le (h.ids req (hrequests ▸ hreq)) hnext
      outgoingIds := fun send hsend => ?_
      seen := fun txnId hmem => Nat.lt_of_lt_of_le (h.seen txnId (hseen ▸ hmem)) hnext
      received := fun message hmem => Nat.lt_of_lt_of_le (h.received message (hreceived ▸ hmem)) hnext
      bodies := by
        rw [hreceived, hrequests]
        exact h.bodies
      phase := fun send hsend hphase => ?_
      calls := fun send hsend => ?_
      loop := fun send hsend haction => ?_
      record := fun req hreq => ?_
      gone := fun requestId hgone => ?_ }
  · obtain ⟨old, hold, hcovers⟩ := hout send hsend
    rw [hcovers.message]
    exact Nat.lt_of_lt_of_le (h.outgoingIds old hold) hnext
  · obtain ⟨old, hold, hcovers⟩ := hout send hsend
    rw [hseen]
    rcases hcovers.phase hphase with hphase | hmem
    · exact hcovers.txnId ▸ h.phase old hold hphase
    · exact hmem
  · obtain ⟨old, hold, hcovers⟩ := hcalls send hsend
    rw [hcovers.message]
    exact h.calls old hold
  · obtain ⟨old, hold, hcovers⟩ := hloop send hsend
    rw [hcovers.message] at haction
    rw [hrequests, hcovers.message, hcovers.txnId]
    exact h.loop old hold haction
  · have hok := h.record req (hrequests ▸ hreq)
    refine ⟨fun send hsend hmessage => ?_, ?_, ?_, ?_, ?_⟩
    · obtain ⟨old, hold, hcovers⟩ := hout send hsend
      rw [hseen, hcovers.txnId]
      exact hok.cancellation old hold (hcovers.message.symm.trans hmessage)
    · rw [hlast, hseen]
      exact hok.unsent
    · rw [hlast]
      exact hok.sent
    · rw [hlast, hseen]
      exact hok.pending
    · rw [hseen]
      exact hok.resend
  · rw [hlast]
    exact h.gone requestId (hrequests ▸ hgone)

/-- What a record has to send, by its state. -/
theorem send?_cases (h : req.send? = some send) :
    send.phase = .inFlight ∧ req.Names send.message send.txnId ∧
      ((req.state = .unsent ∧ send.message = req.request ∧ send.txnId = req.txnId) ∨
        (send.message = req.cancellation ∧ req.state.cancellationTxnId = some send.txnId)) := by
  unfold KeyRequest.send? at h
  split at h
  next hstate =>
    obtain rfl := Option.some.inj h
    exact ⟨rfl, .inl ⟨rfl, rfl⟩, .inl ⟨hstate, rfl, rfl⟩⟩
  · cases h
  all_goals
    rename_i txnId hstate
    obtain rfl := Option.some.inj h
    have htxn : req.state.cancellationTxnId = some txnId := by
      rw [hstate]
      rfl
    exact ⟨rfl, .inr ⟨rfl, htxn⟩, .inr ⟨rfl, htxn⟩⟩

theorem RecordOk.congr (h : s.RecordOk req)
    (hout : ∀ send, s'.Outgoing send → send.message = req.cancellation →
      s.Outgoing send ∨ req.state.cancellationTxnId = some send.txnId) (hseen : s'.seen = s.seen)
    (hreceived : s'.received = s.received) : s'.RecordOk req := by
  have hlast : s'.Outstanding req.requestId ↔ s.Outstanding req.requestId := by
    rw [Outstanding, lastReceived, hreceived, Outstanding, lastReceived]
  refine ⟨fun send hsend hmessage => ?_, ?_, ?_, ?_, ?_⟩
  · rw [hseen]
    rcases hout send hsend hmessage with hold | htxn
    · exact h.cancellation send hold hmessage
    · exact .inr htxn
  · rw [hlast, hseen]
    exact h.unsent
  · rw [hlast]
    exact h.sent
  · rw [hlast, hseen]
    exact h.pending
  · rw [hseen]
    exact h.resend

/-- The loop, or a call, is about to send what a record has to send. -/
theorem Inv.addSend (h : s.Inv) (hreq : req ∈ s.requests) (hsend : req.send? = some send)
    (hrequests : s'.requests = s.requests) (hseen : s'.seen = s.seen)
    (hreceived : s'.received = s.received) (hnext : s'.nextTxnId = s.nextTxnId)
    (hloop : ∀ x, s'.loop.send? = some x → s.loop.send? = some x ∨ x = send)
    (hcalls : ∀ x, s'.Calling x → s.Calling x ∨ (x = send ∧ req.state ≠ .unsent)) : s'.Inv := by
  obtain ⟨hphase, hnamed, hcases⟩ := send?_cases hsend
  have hout : ∀ x, s'.Outgoing x → s.Outgoing x ∨ x = send := by
    rintro x (hx | hx)
    · exact (hloop x hx).imp_left .inl
    · exact (hcalls x hx).imp .inr And.left
  have hnames : ∀ message txnId, s'.Names message txnId → s.Names message txnId := by
    rintro message txnId (⟨x, hx, rfl, rfl⟩ | ⟨req', hreq', hname⟩)
    · rcases hout x hx with hold | rfl
      · exact .inl ⟨x, hold, rfl, rfl⟩
      · exact .inr ⟨req, hreq, hnamed⟩
    · exact .inr ⟨req', hrequests ▸ hreq', hname⟩
  refine
    { unique := hrequests ▸ h.unique
      fresh := fun message txnId hname => hnext ▸ h.fresh _ _ (hnames _ _ hname)
      names := fun message message' txnId hname hname' =>
        h.names _ _ _ (hnames _ _ hname) (hnames _ _ hname')
      ids := by
        rw [hrequests, hnext]
        exact h.ids
      outgoingIds := fun x hx => ?_
      seen := by
        rw [hseen, hnext]
        exact h.seen
      received := by
        rw [hreceived, hnext]
        exact h.received
      bodies := by
        rw [hreceived, hrequests]
        exact h.bodies
      phase := fun x hx hphase' => ?_
      calls := fun x hx => ?_
      loop := fun x hx haction => ?_
      record := fun req' hreq' => ?_
      gone := fun requestId hgone => ?_ }
  · rw [hnext]
    rcases hout x hx with hold | rfl
    · exact h.outgoingIds x hold
    · rcases hcases with ⟨-, hmessage, -⟩ | ⟨hmessage, -⟩
      all_goals
        rw [hmessage]
        exact h.ids req hreq
  · rw [hseen]
    rcases hout x hx with hold | rfl
    · exact h.phase x hold hphase'
    · exact absurd hphase hphase'
  · rcases hcalls x hx with hold | ⟨rfl, hne⟩
    · exact h.calls x hold
    · obtain ⟨hmessage, -⟩ := hcases.resolve_left fun hunsent => hne hunsent.1
      rw [hmessage]
      rfl
  · rw [hrequests]
    rcases hloop x hx with hold | rfl
    · exact h.loop x hold haction
    · refine ⟨req, hreq, hcases.resolve_right ?_⟩
      rintro ⟨hmessage, -⟩
      exact haction (by rw [hmessage]; rfl)
  · rw [hrequests] at hreq'
    refine (h.record req' hreq').congr (fun x hx hmessage => ?_) hseen hreceived
    rcases hout x hx with hold | rfl
    · exact .inl hold
    · rcases hcases with ⟨-, hrequest, -⟩ | ⟨hcancel, htxn⟩
      · rw [hrequest] at hmessage
        exact absurd hmessage (KeyRequest.request_ne_cancellation req req')
      · rw [hcancel] at hmessage
        have hsame := h.unique req hreq req' hreq' (congrArg KeyRequestMessage.requestId hmessage)
        exact .inr (hsame ▸ htxn)
  · rw [Outstanding, lastReceived, hreceived]
    exact h.gone requestId (hrequests ▸ hgone)

/-- The records become some of those there were and perhaps `new`, to which nothing on its way can
do harm. -/
theorem Inv.replaceRecord (h : s.Inv) {new : KeyRequest Body} {requests : List (KeyRequest Body)}
    {next : ℕ} (hnext : s.nextTxnId ≤ next) (hid : new.requestId < next)
    (hmem : ∀ r ∈ requests, r = new ∨ (r ∈ s.requests ∧ r.requestId ≠ new.requestId))
    (hbody : ∀ message ∈ s.received, ∀ body, message.action = .request body →
      new.requestId = message.requestId → new.requestBody = body)
    (hfresh : ∀ message txnId, new.Names message txnId →
      (s.Names message txnId ∨ s.nextTxnId ≤ txnId) ∧ txnId < next)
    (hinj : ∀ message message' txnId, new.Names message txnId → new.Names message' txnId →
      message = message')
    (hloop : ∀ send, s.loop.send? = some send → ∀ r ∈ s.requests, send.message = r.request →
      r ∈ requests)
    (hok : s.RecordOk new)
    (hgone : ∀ requestId, (∀ r ∈ requests, r.requestId ≠ requestId) →
      ¬ s.Outstanding requestId) :
    ({ s with requests := requests, nextTxnId := next } : KeyRequestState Body).Inv := by
  -- a name is an old one, or a new one of the record
  have hnames : ∀ message txnId,
      ({ s with requests := requests, nextTxnId := next } : KeyRequestState Body).Names
        message txnId →
      s.Names message txnId ∨ (new.Names message txnId ∧ s.nextTxnId ≤ txnId) := by
    rintro message txnId (hout | ⟨r, hr, hname⟩)
    · exact .inl (.inl hout)
    · rcases hmem r hr with rfl | ⟨hr, -⟩
      · exact (hfresh _ _ hname).1.imp id fun hle => ⟨hname, hle⟩
      · exact .inl (.inr ⟨r, hr, hname⟩)
  refine
    { unique := fun r hr r' hr' hsame => ?_
      fresh := fun message txnId hname => ?_
      names := fun message message' txnId hname hname' => ?_
      ids := fun r hr => ?_
      outgoingIds := fun send hsend => Nat.lt_of_lt_of_le (h.outgoingIds send hsend) hnext
      seen := fun txnId hseen => Nat.lt_of_lt_of_le (h.seen txnId hseen) hnext
      received := fun message hrec => Nat.lt_of_lt_of_le (h.received message hrec) hnext
      bodies := fun message hrec body haction r hr hsame => ?_
      phase := h.phase
      calls := h.calls
      loop := fun send hsend haction => ?_
      record := fun r hr => ?_
      gone := hgone }
  · rcases hmem r hr with rfl | ⟨hr, hne⟩
    · rcases hmem r' hr' with rfl | ⟨-, hne'⟩
      · rfl
      · exact absurd hsame.symm hne'
    · rcases hmem r' hr' with rfl | ⟨hr', -⟩
      · exact absurd hsame hne
      · exact h.unique r hr r' hr' hsame
  · rcases hnames message txnId hname with hold | ⟨hnew, -⟩
    · exact Nat.lt_of_lt_of_le (h.fresh _ _ hold) hnext
    · exact (hfresh _ _ hnew).2
  · rcases hnames message txnId hname with hold | ⟨hnew, hle⟩
    · rcases hnames message' txnId hname' with hold' | ⟨-, hle⟩
      · exact h.names _ _ _ hold hold'
      · have hlt := h.fresh _ _ hold
        omega
    · rcases hnames message' txnId hname' with hold' | ⟨hnew', -⟩
      · have hlt := h.fresh _ _ hold'
        omega
      · exact hinj _ _ _ hnew hnew'
  · rcases hmem r hr with rfl | ⟨hr, -⟩
    · exact hid
    · exact Nat.lt_of_lt_of_le (h.ids r hr) hnext
  · rcases hmem r hr with rfl | ⟨hr, -⟩
    · exact hbody message hrec body haction hsame
    · exact h.bodies message hrec body haction r hr hsame
  · obtain ⟨r, hr, hstate, hmessage, htxn⟩ := h.loop send hsend haction
    exact ⟨r, hloop send hsend r hr hmessage, hstate, hmessage, htxn⟩
  · have hok' : s.RecordOk r := by
      rcases hmem r hr with rfl | ⟨hr, -⟩
      · exact hok
      · exact h.record r hr
    exact hok'.congr (fun send hsend _ => .inl hsend) rfl rfl

/-- A record is updated that is not being requested, to a state in which nothing on its way can do
harm to it. -/
theorem Inv.updateRecord (h : s.Inv) (hreq : req ∈ s.requests) {next : ℕ}
    (hnext : s.nextTxnId ≤ next) (hid : (update req).requestId = req.requestId)
    (hbody : (update req).requestBody = req.requestBody)
    (hloop : ∀ send, s.loop.send? = some send → send.message ≠ req.request)
    (hfresh : ∀ message txnId, (update req).Names message txnId →
      (req.Names message txnId ∨ s.nextTxnId ≤ txnId) ∧ txnId < next)
    (hinj : ∀ message message' txnId, (update req).Names message txnId →
      (update req).Names message' txnId → message = message') (hok : s.RecordOk (update req)) :
    ({ s with
      requests := s.requests.map fun r => if r.requestId = req.requestId then update r else r
      nextTxnId := next } : KeyRequestState Body).Inv := by
  have hkept : ∀ r ∈ s.requests, r.requestId ≠ req.requestId →
      r ∈ s.requests.map (fun r => if r.requestId = req.requestId then update r else r) :=
    fun r hr hne => List.mem_map.2 ⟨r, hr, if_neg hne⟩
  refine h.replaceRecord hnext ?_ (fun x hx => ?_) ?_ (fun message txnId hname => ?_) hinj ?_ hok ?_
  · rw [hid]
    exact Nat.lt_of_lt_of_le (h.ids req hreq) hnext
  · obtain ⟨r, hr, rfl⟩ := List.mem_map.1 hx
    split_ifs with hsame
    · rw [h.unique r hr req hreq hsame]
      exact .inl rfl
    · exact .inr ⟨hr, fun heq => hsame (heq.trans hid)⟩
  · rw [hid, hbody]
    exact fun message hrec body haction => h.bodies message hrec body haction req hreq
  · exact (hfresh _ _ hname).imp_left (Or.imp_left fun hold => .inr ⟨req, hreq, hold⟩)
  · refine fun send hsend r hr hmessage => hkept r hr fun hsame => hloop send hsend ?_
    rw [hmessage, h.unique r hr req hreq hsame]
  · refine fun requestId hgone => h.gone requestId fun r hr hsame => ?_
    by_cases hreqid : r.requestId = req.requestId
    · have hnew : update req ∈
          s.requests.map (fun r => if r.requestId = req.requestId then update r else r) :=
        List.mem_map.2 ⟨req, hreq, if_pos rfl⟩
      exact hgone _ hnew ((hid.trans hreqid.symm).trans hsame)
    · exact hgone r (hkept r hr hreqid) hsame

/-- A record goes whose request is neither outstanding nor being sent. -/
theorem Inv.deleteRecord (h : s.Inv) (hreq : req ∈ s.requests)
    (hgone : ¬ s.Outstanding req.requestId)
    (hloop : ∀ send, s.loop.send? = some send → send.message ≠ req.request) :
    ({ s with requests := s.requests.filter fun r => r.requestId ≠ req.requestId } :
      KeyRequestState Body).Inv := by
  have hmem : ∀ {r}, r ∈ s.requests.filter (fun r => r.requestId ≠ req.requestId) ↔
      r ∈ s.requests ∧ r.requestId ≠ req.requestId := by
    intro r
    rw [List.mem_filter, decide_eq_true_iff]
  have hname : ∀ {message txnId}, req.Names message txnId → s.Names message txnId :=
    fun hname => .inr ⟨req, hreq, hname⟩
  refine h.replaceRecord (Nat.le_refl _) (h.ids req hreq)
    (fun r hr => .inr (hmem.1 hr))
    (fun message hrec body haction => h.bodies message hrec body haction req hreq)
    (fun message txnId hreq' => ⟨.inl (hname hreq'), h.fresh _ _ (hname hreq')⟩)
    (fun message message' txnId hname₁ hname₂ => h.names _ _ _ (hname hname₁) (hname hname₂))
    (fun send hsend r hr hmessage => hmem.2 ⟨hr, fun hsame => hloop send hsend ?_⟩)
    (h.record req hreq) fun requestId hnone => ?_
  · rw [hmessage, h.unique r hr req hreq hsame]
  · by_cases hsame : requestId = req.requestId
    · rw [hsame]
      exact hgone
    · refine h.gone requestId fun r hr hid => hnone r (hmem.2 ⟨hr, fun hreqid => ?_⟩) hid
      exact hsame (hid.symm.trans hreqid)

theorem lastReceived_mem {requestId : ℕ} {action : KeyRequestAction Body}
    (h : s.lastReceived requestId = some action) :
    ∃ message ∈ s.received, message.requestId = requestId ∧ message.action = action := by
  obtain ⟨message, hlast, rfl⟩ := Option.map_eq_some_iff.1 h
  have hmem := List.mem_of_getLast? hlast
  rw [List.mem_filter, decide_eq_true_iff] at hmem
  exact ⟨message, hmem.1, hmem.2, rfl⟩

end

/-- A new record has a new id. -/
theorem Inv.addRecord (h : s.Inv) (body : Body) :
    ({ s with
      requests := s.requests ++ [⟨body, s.nextTxnId, none, .unsent⟩]
      nextTxnId := s.nextTxnId + 1 } : KeyRequestState Body).Inv := by
  generalize hnew : (⟨body, s.nextTxnId, none, .unsent⟩ : KeyRequest Body) = new
  have hid : new.requestId = s.nextTxnId := by rw [← hnew]
  have hstate : new.state = .unsent := by rw [← hnew]
  have htxn : new.txnId = s.nextTxnId := by rw [← hnew]; rfl
  have hname : ∀ {message txnId}, new.Names message txnId →
      message = new.request ∧ txnId = s.nextTxnId := by
    rintro message txnId (⟨hmessage, heq⟩ | ⟨-, hnone⟩)
    · exact ⟨hmessage, heq.trans htxn⟩
    · rw [hstate] at hnone
      cases hnone
  have hok : s.RecordOk new := by
    refine ⟨fun send hsend hmessage => ?_, fun _ => iff_of_false ?_ fun hseen => ?_,
      fun hsent => ?_, fun txnId hpending => ?_, fun hresend => ?_⟩
    · have hlt := h.outgoingIds send hsend
      have heq : send.message.requestId = new.requestId := congrArg _ hmessage
      omega
    · rintro ⟨body, hsome⟩
      obtain ⟨message, hrec, hsame, -⟩ := lastReceived_mem hsome
      have hlt := h.received message hrec
      omega
    · have hlt := h.seen _ hseen
      omega
    · rw [hstate] at hsent
      cases hsent
    · rw [hstate] at hpending
      cases hpending
    · rw [hstate] at hresend
      cases hresend
  refine h.replaceRecord (Nat.le_succ _) (by omega) (fun r hr => ?_)
    (fun message hrec _ _ hsame => ?_) (fun message txnId hnames => ?_)
    (fun message message' txnId hm hm' => (hname hm).1.trans (hname hm').1.symm)
    (fun _ _ r hr _ => List.mem_append_left _ hr) hok
    fun requestId hgone => h.gone requestId fun r hr => hgone r (List.mem_append_left _ hr)
  · rcases List.mem_append.1 hr with hr | hr
    · have hlt := h.ids r hr
      exact .inr ⟨hr, by omega⟩
    · exact .inl (List.mem_singleton.1 hr)
  · have hlt := h.received message hrec
    omega
  · have heq := (hname hnames).2
    exact ⟨.inr (by omega), by omega⟩

section

omit [DecidableEq Body]

theorem lastReceived_receive (hnew : send.txnId ∉ s.seen) (requestId : ℕ) :
    (s.receive send).lastReceived requestId =
      if send.message.requestId = requestId then some send.message.action
      else s.lastReceived requestId := by
  rw [receive, if_neg hnew, lastReceived, List.filter_append]
  split_ifs with hsame
  · rw [List.filter_singleton, decide_eq_true hsame, cond_true, List.getLast?_concat,
      Option.map_some]
  · rw [List.filter_singleton, decide_eq_false hsame, cond_false, List.append_nil, lastReceived]

theorem receive_new (hnew : send.txnId ∉ s.seen) : s.receive send =
      { s with seen := send.txnId :: s.seen, received := s.received ++ [send.message] } := by
  rw [KeyRequestState.receive, if_neg hnew]

/-- **What a message that arrives does to a record**: nothing, or it requests a record that is
unsent, or it is the cancellation that the record has. -/
theorem Inv.arrives (h : s.Inv) (hsend : s.Outgoing send) (hnew : send.txnId ∉ s.seen)
    (hreq : req ∈ s.requests) :
    send.message.requestId ≠ req.requestId ∨
    (send.message = req.request ∧ req.state = .unsent ∧ send.txnId = req.txnId) ∨
    (send.message = req.cancellation ∧ req.state.cancellationTxnId = some send.txnId) := by
  by_cases hid : send.message.requestId = req.requestId
  · right
    by_cases haction : send.message.action = .requestCancellation
    · have hmessage : send.message = req.cancellation := by
        rw [KeyRequest.cancellation, ← hid, ← haction]
      exact .inr ⟨hmessage, ((h.record req hreq).cancellation send hsend hmessage).resolve_left hnew⟩
    · -- calls send cancellations only
      have hloop : s.loop.send? = some send :=
        hsend.resolve_right fun hcall => haction (h.calls send hcall)
      obtain ⟨req', hreq', hstate, hmessage, htxn⟩ := h.loop send hloop haction
      have hid' : req'.requestId = req.requestId := by
        rw [← hid, hmessage]
        rfl
      obtain rfl := h.unique req' hreq' req hreq hid'
      exact .inl ⟨hmessage, hstate, htxn⟩
  · exact .inl hid

theorem Inv.record_receive (h : s.Inv) (hsend : s.Outgoing send) (hnew : send.txnId ∉ s.seen)
    (hreq : req ∈ s.requests) : (s.receive send).RecordOk req := by
  have hok := h.record req hreq
  have hseen : (s.receive send).seen = send.txnId :: s.seen := by rw [receive_new hnew]
  have hout : ∀ x, (s.receive send).Outgoing x → s.Outgoing x := by
    rw [receive_new hnew]
    exact fun x hx => hx
  have hcancellation : ∀ x, (s.receive send).Outgoing x → x.message = req.cancellation →
      x.txnId ∈ (s.receive send).seen ∨ req.state.cancellationTxnId = some x.txnId := by
    intro x hx hmessage
    rw [hseen]
    exact (hok.cancellation x (hout x hx) hmessage).imp_left (List.mem_cons_of_mem _)
  -- another name is seen if it was seen before
  have hother : ∀ message txnId, req.Names message txnId → message ≠ send.message →
      (txnId ∈ (s.receive send).seen ↔ txnId ∈ s.seen) := by
    intro message txnId hname hne
    rw [hseen, List.mem_cons, or_iff_right]
    rintro rfl
    exact hne (h.names _ _ _ (.inr ⟨req, hreq, hname⟩) (.inl ⟨send, hsend, rfl, rfl⟩))
  have hrequestName : req.Names req.request req.txnId := .inl ⟨rfl, rfl⟩
  have hlast := lastReceived_receive hnew req.requestId
  rcases h.arrives hsend hnew hreq with hid | ⟨hmessage, hstate, htxn⟩ | ⟨hmessage, htxn⟩
  · have hsame : (s.receive send).Outstanding req.requestId ↔ s.Outstanding req.requestId := by
      rw [Outstanding, hlast, if_neg hid, Outstanding]
    have hrequest : req.request ≠ send.message := fun heq => hid (heq ▸ rfl)
    have hcancel : req.cancellation ≠ send.message := fun heq => hid (heq ▸ rfl)
    refine ⟨hcancellation, fun hunsent => ?_, fun hsent => ?_, fun txnId hpending => ?_,
      fun hresend => ?_⟩
    · rw [hsame, hother _ _ hrequestName hrequest]
      exact hok.unsent hunsent
    · exact hsame.2 (hok.sent hsent)
    · rw [hsame, hother _ _ (.inr ⟨rfl, hpending⟩) hcancel]
      exact hok.pending txnId hpending
    · rw [hother _ _ hrequestName hrequest]
      exact hok.resend hresend
  · have hid : send.message.requestId = req.requestId := by
      rw [hmessage]
      rfl
    have houtstanding : (s.receive send).Outstanding req.requestId := by
      refine ⟨req.requestBody, ?_⟩
      rw [hlast, if_pos hid, hmessage]
      rfl
    refine ⟨hcancellation, fun _ => iff_of_true houtstanding ?_, fun _ => houtstanding,
      fun txnId hpending => ?_, fun hresend => ?_⟩
    · rw [hseen, ← htxn]
      exact List.mem_cons_self
    · rw [hstate] at hpending
      cases hpending
    · rw [hstate] at hresend
      cases hresend
  · have hid : send.message.requestId = req.requestId := by
      rw [hmessage]
      rfl
    have hcancelled : ¬ (s.receive send).Outstanding req.requestId := by
      rintro ⟨body, hsome⟩
      rw [hlast, if_pos hid, hmessage] at hsome
      cases hsome
    refine ⟨hcancellation, fun hunsent => ?_, fun hsent => ?_, fun txnId hpending => ?_,
      fun hresend => ?_⟩
    · rw [hunsent] at htxn
      cases htxn
    · rw [hsent] at htxn
      cases htxn
    · obtain rfl := Option.some.inj (htxn.symm.trans hpending)
      refine iff_of_false hcancelled (not_not.2 ?_)
      rw [hseen]
      exact List.mem_cons_self
    · rw [hother _ _ hrequestName (hmessage ▸ KeyRequest.request_ne_cancellation req req)]
      exact hok.resend hresend

/-- **The server gets a message.** What it does to a record is what the record waits for. -/
theorem Inv.receive (h : s.Inv) (hsend : s.Outgoing send) : (s.receive send).Inv := by
  by_cases hnew : send.txnId ∈ s.seen
  · rw [KeyRequestState.receive, if_pos hnew]
    exact h
  have hlast := lastReceived_receive hnew
  have hrecord : ∀ req ∈ s.requests, (s.receive send).RecordOk req :=
    fun req hreq => h.record_receive hsend hnew hreq
  rw [receive_new hnew] at hlast hrecord ⊢
  have hreceived : ∀ message ∈ s.received ++ [send.message],
      message ∈ s.received ∨ message = send.message := by
    intro message hmem
    rwa [List.mem_append, List.mem_singleton] at hmem
  refine
    { unique := h.unique
      fresh := h.fresh
      names := h.names
      ids := h.ids
      outgoingIds := h.outgoingIds
      seen := fun txnId hmem => ?_
      received := fun message hmem => ?_
      bodies := fun message hmem body haction req hreq hid => ?_
      phase := fun x hx hphase => List.mem_cons_of_mem _ (h.phase x hx hphase)
      calls := h.calls
      loop := h.loop
      record := hrecord
      gone := fun requestId hgone => ?_ }
  · rcases List.mem_cons.1 hmem with rfl | hmem
    · exact h.fresh send.message _ (.inl ⟨send, hsend, rfl, rfl⟩)
    · exact h.seen txnId hmem
  · rcases hreceived message hmem with hmem | rfl
    · exact h.received message hmem
    · exact h.outgoingIds send hsend
  · rcases hreceived message hmem with hmem | rfl
    · exact h.bodies message hmem body haction req hreq hid
    · rcases h.arrives hsend hnew hreq with hne | ⟨hmessage, -, -⟩ | ⟨hmessage, -⟩
      · exact absurd hid.symm hne
      · rw [hmessage] at haction
        exact KeyRequestAction.request.inj haction
      · rw [hmessage] at haction
        cases haction
  · rintro ⟨body, hsome⟩
    rw [hlast] at hsome
    split_ifs at hsome with hid
    · -- a request that arrives has a record
      have haction : send.message.action ≠ .requestCancellation := by
        rw [Option.some.inj hsome]
        exact (nomatch ·)
      have hloop : s.loop.send? = some send :=
        hsend.resolve_right fun hcall => haction (h.calls send hcall)
      obtain ⟨req, hreq, -, hmessage, -⟩ := h.loop send hloop haction
      refine hgone req hreq ?_
      rw [← hid, hmessage]
      rfl
    · exact h.gone requestId hgone ⟨body, hsome⟩

/-! ## Steps -/

/-- What an update that finds the record in the expected state does. -/
theorem updateRequest_eq_some {requestId : ℕ} {expected : KeyRequestStatus → Bool}
    {updatedReq : KeyRequest Body}
    (h : s.updateRequest requestId expected update = some (updatedReq, s')) :
    ∃ req ∈ s.requests, req.requestId = requestId ∧ expected req.state = true ∧
      updatedReq = update req ∧
      s' = { s with
        requests := s.requests.map fun r => if r.requestId = req.requestId then update r else r } := by
  unfold updateRequest at h
  split at h
  · cases h
  next req hfind =>
    split_ifs at h with hexpected
    obtain ⟨rfl, rfl⟩ := Prod.mk.inj (Option.some.inj h)
    have hid : req.requestId = requestId := by simpa using List.find?_some hfind
    exact ⟨req, List.mem_of_find?_eq_some hfind, hid, hexpected, rfl, by rw [hid]⟩

/-- To delete a record leaves everything alone, or the record goes. -/
theorem deleteRequest_cases (s : KeyRequestState Body) (requestId : ℕ)
    (expected : KeyRequestStatus → Bool) :
    s.deleteRequest requestId expected = s ∨
      ∃ req ∈ s.requests, req.requestId = requestId ∧ expected req.state = true ∧
        s.deleteRequest requestId expected =
          { s with requests := s.requests.filter fun r => r.requestId ≠ req.requestId } := by
  unfold deleteRequest
  split
  · exact .inl rfl
  next req hfind =>
    split_ifs with hexpected
    · have hid : req.requestId = requestId := by simpa using List.find?_some hfind
      exact .inr ⟨req, List.mem_of_find?_eq_some hfind, hid, hexpected, by rw [hid]⟩
    · exact .inl rfl

theorem Inv.setCall (h : s.Inv) (i : ℕ)
    (hnext : ∀ call, next = some call → ∀ send, call.send? = some send →
      ∃ old, s.Calling old ∧ s.Covers old send) : (s.setCall i next).Inv := by
  obtain ⟨hrequests, hseen, hreceived, htxn, hloop⟩ := setCall_same s i next
  refine h.frame hrequests hseen hreceived (Nat.le_of_eq htxn.symm) (fun send hsend => ?_)
    fun send ⟨call, hcall, hsend⟩ => ?_
  · rw [hloop] at hsend
    exact ⟨send, hsend, rfl, rfl, .inl⟩
  · rcases setCall_calls hcall with hold | hnew
    · exact ⟨send, ⟨call, hold, hsend⟩, rfl, rfl, .inl⟩
    · exact hnext call hnew send hsend

/-- A call is over, or has nothing to send. -/
theorem Inv.setCall_silent (h : s.Inv) (i : ℕ)
    (hsilent : ∀ call, next = some call → call.send? = none) : (s.setCall i next).Inv :=
  h.setCall i fun call hcall _ hsend => nomatch (hsilent call hcall).symm.trans hsend

theorem Inv.setLoop (h : s.Inv) {loop : KeyRequestLoop Body} (hloop : loop.send? = none) :
    ({ s with loop := loop } : KeyRequestState Body).Inv := by
  refine h.frame rfl rfl rfl (Nat.le_refl _) (fun send hsend => ?_) fun send hsend =>
    ⟨send, hsend, rfl, rfl, .inl⟩
  exact nomatch hloop.symm.trans hsend

theorem Inv.startTimer (h : s.Inv) : s.startTimer.Inv := by
  unfold KeyRequestState.startTimer
  split
  · exact h.setLoop rfl
  · exact h

theorem Inv.loopAgain (h : s.Inv) : s.loopAgain.Inv := by
  refine h.setLoop ?_
  split_ifs
  · rfl
  · rfl

theorem Inv.nextTxnId (h : s.Inv) {next : ℕ} (hnext : s.nextTxnId ≤ next) :
    ({ s with nextTxnId := next } : KeyRequestState Body).Inv :=
  h.frame rfl rfl rfl hnext (fun send hsend => ⟨send, hsend, rfl, rfl, .inl⟩) fun send hsend =>
    ⟨send, hsend, rfl, rfl, .inl⟩

/-- A record that is not unsent is not being requested. -/
theorem Inv.not_requested (h : s.Inv) (hreq : req ∈ s.requests) (hstate : req.state ≠ .unsent) :
    ∀ send, s.loop.send? = some send → send.message ≠ req.request := by
  intro send hsend hmessage
  have haction : send.message.action ≠ .requestCancellation := by
    rw [hmessage]
    exact (nomatch ·)
  obtain ⟨req', hreq', hstate', hmessage', -⟩ := h.loop send hsend haction
  have hid : req.requestId = req'.requestId :=
    congrArg KeyRequestMessage.requestId (hmessage.symm.trans hmessage')
  rw [h.unique req hreq req' hreq' hid] at hstate
  exact hstate hstate'

/-- **A request that has been sent is to be cancelled**, and perhaps to be sent again, with new
transaction ids. -/
theorem Inv.cancelSent (h : s.Inv) (hreq : req ∈ s.requests) (hstate : req.state = .sent) {next : ℕ}
    (hid : (update req).requestId = req.requestId)
    (hbody : (update req).requestBody = req.requestBody)
    (hcancel : (update req).state.cancellationTxnId = some s.nextTxnId) (hnext : s.nextTxnId < next)
    (htxn : (update req).txnId = req.txnId ∧ (update req).state.willResend = false ∨
      s.nextTxnId < (update req).txnId ∧ (update req).txnId < next) :
    ({ s with
      requests := s.requests.map fun r => if r.requestId = req.requestId then update r else r
      nextTxnId := next } : KeyRequestState Body).Inv := by
  have hok := h.record req hreq
  have hrequest : (update req).request = req.request := by
    rw [KeyRequest.request, KeyRequest.request, hid, hbody]
  have hfreshTxn := h.fresh req.request req.txnId (.inr ⟨req, hreq, .inl ⟨rfl, rfl⟩⟩)
  have hunsent : (update req).state ≠ .unsent := by
    intro hunsent
    rw [hunsent] at hcancel
    cases hcancel
  have hsent : (update req).state ≠ .sent := by
    intro hsent
    rw [hsent] at hcancel
    cases hcancel
  have hnotSeen : s.nextTxnId ∉ s.seen := fun hseen => by
    have hlt := h.seen _ hseen
    omega
  refine h.updateRecord hreq (Nat.le_of_lt hnext) hid hbody
    (h.not_requested hreq (by rw [hstate]; exact (nomatch ·))) ?_ ?_ ?_
  · rintro message txnId (⟨rfl, rfl⟩ | ⟨rfl, htxnId⟩)
    · rcases htxn with ⟨hsame, -⟩ | ⟨hlt, hlt'⟩
      · rw [hsame, hrequest]
        exact ⟨.inl (.inl ⟨rfl, rfl⟩), by omega⟩
      · exact ⟨.inr (by omega), hlt'⟩
    · obtain rfl := Option.some.inj (hcancel.symm.trans htxnId)
      exact ⟨.inr (Nat.le_refl _), hnext⟩
  · rintro message message' txnId (⟨rfl, hreqTxn⟩ | ⟨rfl, htxnId⟩) (⟨rfl, hreqTxn'⟩ | ⟨rfl, htxnId'⟩)
    · rfl
    · have heq := Option.some.inj (hcancel.symm.trans htxnId')
      omega
    · have heq := Option.some.inj (hcancel.symm.trans htxnId)
      omega
    · rfl
  · refine ⟨fun send hsend hmessage => ?_, fun hstate' => absurd hstate' hunsent,
      fun hstate' => absurd hstate' hsent, fun txnId htxnId => ?_, fun hresend hseen => ?_⟩
    · have hmessage' : send.message = req.cancellation := by
        rw [hmessage, KeyRequest.cancellation, hid, KeyRequest.cancellation]
      left
      refine (hok.cancellation send hsend hmessage').resolve_right fun hnone => ?_
      rw [hstate] at hnone
      cases hnone
    · obtain rfl := Option.some.inj (hcancel.symm.trans htxnId)
      rw [hid]
      exact iff_of_true (hok.sent hstate) hnotSeen
    · rcases htxn with ⟨-, hfalse⟩ | ⟨hlt, -⟩
      · rw [hfalse] at hresend
        cases hresend
      · have hlt' := h.seen _ hseen
        omega

/-- The call goes on with what the record that it has updated is to send. -/
theorem Inv.sendCall (h : s.Inv) (hreq : req ∈ s.requests) {txnId : ℕ}
    (htxn : req.state.cancellationTxnId = some txnId) (i : ℕ) :
    (s.setCall i (req.send?.map .send)).Inv := by
  cases hsend : req.send? with
  | none => exact h.setCall_silent i fun call hcall => nomatch hcall
  | some send =>
    obtain ⟨hrequests, hseen, hreceived, hnext, hloop⟩ :=
      setCall_same s i (some (KeyRequestCall.send send))
    refine h.addSend hreq hsend hrequests hseen hreceived hnext (fun x hx => ?_)
      fun x ⟨call, hcall, hx⟩ => ?_
    · rw [Option.map_some, hloop] at hx
      exact .inl hx
    · rcases setCall_calls hcall with hold | hnew
      · exact .inl ⟨call, hold, hx⟩
      · right
        obtain rfl := Option.some.inj hnew
        refine ⟨(Option.some.inj hx).symm, fun hunsent => ?_⟩
        rw [hunsent] at htxn
        cases htxn

end

/-- `queueRoomKeyRequest` preserves it, as long as it is careful. -/
theorem Inv.queueFound (h : s.Inv) (i : ℕ) (body : Body) (resend : Bool)
    (found : Option (KeyRequest Body))
    (hcareful : ∀ req' ∈ found, req'.state.isCancellationPending = true →
      ∀ req ∈ s.requests, req.requestId = req'.requestId →
        ∀ txnId, req.state = .cancellationPending txnId →
          resend = false ∧ txnId ∉ s.seen ∧
            ∀ send, s.Outgoing send → send.message = req.cancellation → send.txnId ∈ s.seen) :
    (s.queueFound i body resend found).Inv := by
  have hover : (s.setCall i none).Inv := h.setCall_silent i fun call hcall => nomatch hcall
  unfold KeyRequestState.queueFound
  dsimp only
  split
  · split_ifs
    · exact hover.nextTxnId (Nat.le_succ _)
    · exact hover.addRecord body
  next req' =>
    split
    · exact hover
    · exact hover
    next txnId hfound =>
      have hover' : ({ s.setCall i none with nextTxnId := s.nextTxnId + 1 } :
          KeyRequestState Body).Inv := hover.nextTxnId (Nat.le_succ _)
      split
      · exact hover'
      next updatedReq s' hupdate =>
        obtain ⟨req, hreq, hid, hexpected, -, rfl⟩ := updateRequest_eq_some hupdate
        -- the record is no longer to be cancelled
        obtain ⟨txnId', hstate⟩ := KeyRequestStatus.eq_cancellationPending hexpected
        have htxn : req.state.cancellationTxnId = some txnId' := by
          rw [hstate]
          rfl
        obtain ⟨rfl, hnew, hquiet⟩ :=
          hcareful req' rfl (by rw [hfound]; rfl) req hreq hid txnId' hstate
        have hok := h.record req hreq
        refine hover'.updateRecord hreq (Nat.le_refl _) rfl rfl
          (hover'.not_requested hreq (by rw [hstate]; exact (nomatch ·))) ?_ ?_ ?_
        · rintro message txn (⟨rfl, rfl⟩ | ⟨-, hnone⟩)
          · refine ⟨.inl (.inl ⟨rfl, rfl⟩), ?_⟩
            exact Nat.lt_succ_of_lt (h.fresh _ _ (.inr ⟨req, hreq, .inl ⟨rfl, rfl⟩⟩))
          · cases hnone
        · rintro message message' txn (⟨rfl, -⟩ | ⟨-, hnone⟩) (⟨rfl, -⟩ | ⟨-, hnone'⟩)
          · rfl
          · cases hnone'
          · cases hnone
          · cases hnone
        · refine ⟨fun send hsend hmessage => .inl (hquiet send ?_ hmessage), (nomatch ·), fun _ => ?_,
            fun txn hnone => (nomatch hnone), (nomatch ·)⟩
          · rcases hsend with hloop | ⟨call, hcall, hsend⟩
            · exact .inl hloop
            · exact .inr ⟨call, List.mem_of_mem_eraseIdx hcall, hsend⟩
          · exact (hok.pending txnId' htxn).2 hnew
    · split_ifs
      · split
        · exact (h.nextTxnId (Nat.le_add_right _ 2)).setCall_silent i fun call hcall => by
            obtain rfl := Option.some.inj hcall
            rfl
        next updatedReq s' hupdate =>
          obtain ⟨req, hreq, hid, hexpected, rfl, rfl⟩ := updateRequest_eq_some hupdate
          have hstate := KeyRequestStatus.eq_sent hexpected
          refine Inv.sendCall (h.cancelSent hreq hstate rfl rfl rfl (Nat.lt_add_of_pos_right
            Nat.two_pos) (.inr ⟨Nat.lt_succ_self _, Nat.lt_succ_self _⟩)) ?_ rfl i
          exact List.mem_map.2 ⟨req, hreq, if_pos rfl⟩
      · exact hover

omit [DecidableEq Body] in
/-- `cancelRoomKeyRequest` preserves it, as long as it is careful. -/
theorem Inv.cancelFound (h : s.Inv) (i : ℕ) (found : Option (KeyRequest Body))
    (hcareful : ∀ req' ∈ found, req'.state = .unsent →
      ∀ req ∈ s.requests, req.requestId = req'.requestId → req.state = .unsent →
        ¬ s.Outstanding req.requestId ∧
          ∀ send, s.loop.send? = some send → send.message ≠ req.request) :
    (s.cancelFound i found).Inv := by
  have hover : (s.setCall i none).Inv := h.setCall_silent i fun call hcall => nomatch hcall
  unfold KeyRequestState.cancelFound
  dsimp only
  split
  · exact hover
  next req' =>
    split
    · exact hover
    · exact hover
    next hfound =>
      rcases deleteRequest_cases (s.setCall i none) req'.requestId (·.isUnsent) with
        heq | ⟨req, hreq, hid, hexpected, heq⟩
      · rw [heq]
        exact hover
      · rw [heq]
        have hstate := KeyRequestStatus.eq_unsent hexpected
        obtain ⟨hgone, hloop⟩ := hcareful req' rfl hfound req hreq hid hstate
        exact hover.deleteRecord hreq hgone hloop
    · split
      · exact (h.nextTxnId (Nat.le_succ _)).setCall_silent i fun call hcall => nomatch hcall
      next updatedReq s' hupdate =>
        obtain ⟨req, hreq, hid, hexpected, rfl, rfl⟩ := updateRequest_eq_some hupdate
        have hstate := KeyRequestStatus.eq_sent hexpected
        refine Inv.sendCall (h.cancelSent hreq hstate rfl rfl rfl (Nat.lt_succ_self _)
          (.inl ⟨rfl, rfl⟩)) ?_ rfl i
        exact List.mem_map.2 ⟨req, hreq, if_pos rfl⟩

/-- A call that goes on preserves it, as long as it is careful. -/
theorem Inv.proceed (h : s.Inv) {i : ℕ} (hcareful : s.Careful (.proceed i))
    (hse : s.proceed i = some s') : s'.Inv := by
  unfold KeyRequestState.proceed at hse
  split at hse
  · cases hse
  · obtain rfl := Option.some.inj hse
    exact h.setCall_silent i fun call hcall => by
      obtain rfl := Option.some.inj hcall
      rfl
  next body resend found hcall =>
    obtain rfl := Option.some.inj hse
    refine h.queueFound i body resend found fun req' hfound => ?_
    have hcall' := hcareful _ hcall
    obtain rfl := Option.mem_def.1 hfound
    exact hcall'
  · obtain rfl := Option.some.inj hse
    exact h.setCall_silent i fun call hcall => by
      obtain rfl := Option.some.inj hcall
      rfl
  next found hcall =>
    obtain rfl := Option.some.inj hse
    refine h.cancelFound i found fun req' hfound => ?_
    have hcall' := hcareful _ hcall
    obtain rfl := Option.mem_def.1 hfound
    exact hcall'
  next send hcall =>
    obtain rfl := Option.some.inj hse
    refine h.setCall i fun call hcall' x hx => ?_
    obtain rfl := Option.some.inj hcall'
    obtain rfl := Option.some.inj hx
    exact ⟨send, ⟨_, List.mem_of_getElem? hcall, rfl⟩, rfl, rfl, .inl⟩
  · cases hse

section

omit [DecidableEq Body]

/-- The sender learns how far its message has got. -/
theorem Inv.setSending (h : s.Inv) {sender : Option ℕ} {old new : KeyRequestSend Body}
    (hold : s.sending sender = some old) (hcovers : s.Covers old new) :
    (s.setSending sender new).Inv := by
  rcases sending_outgoing hold with ⟨rfl, hloop⟩ | ⟨i, rfl, hcall⟩
  · refine h.frame rfl rfl rfl (Nat.le_refl _) (fun send hsend => ?_) fun send hsend =>
      ⟨send, hsend, rfl, rfl, .inl⟩
    obtain rfl := Option.some.inj hsend
    exact ⟨old, by rw [hloop]; rfl, hcovers⟩
  · change (s.setCall i (some (.sending new))).Inv
    refine h.setCall i fun call hnext send hsend => ?_
    obtain rfl := Option.some.inj hnext
    obtain rfl := Option.some.inj hsend
    exact ⟨old, ⟨_, List.mem_of_getElem? hcall, rfl⟩, hcovers⟩

theorem receive_setSending (s : KeyRequestState Body) (sender : Option ℕ)
    (send new : KeyRequestSend Body) :
    (s.setSending sender new).receive send = (s.receive send).setSending sender new := by
  have hseen : (s.setSending sender new).seen = s.seen := by
    cases sender with
    | none => rfl
    | some i => rfl
  by_cases hmem : send.txnId ∈ s.seen
  · rw [receive, hseen, if_pos hmem, receive, if_pos hmem]
  · rw [receive, hseen, if_neg hmem, receive, if_neg hmem]
    cases sender with
    | none => rfl
    | some i => rfl

theorem receive_sending (s : KeyRequestState Body) (sender : Option ℕ)
    (send : KeyRequestSend Body) : (s.receive send).sending sender = s.sending sender := by
  unfold receive
  split_ifs
  · rfl
  · rfl

theorem receive_seen (s : KeyRequestState Body) (send : KeyRequestSend Body) :
    send.txnId ∈ (s.receive send).seen := by
  unfold receive
  split_ifs with hseen
  · exact hseen
  · exact List.mem_cons_self

/-- **After a cancellation the record goes, or is unsent again.** -/
theorem Inv.cancelled (h : s.Inv) (haction : send.message.action = .requestCancellation)
    (hseen : send.txnId ∈ s.seen)
    (hcareful : ∀ req ∈ s.requests, req.requestId = send.message.requestId →
      req.state.willResend = send.andResend →
        ∀ txnId, req.state.cancellationTxnId = some txnId → send.txnId = txnId) :
    (s.afterSend send).Inv := by
  unfold afterSend
  simp only [haction]
  split_ifs with hresend
  · split
    · exact h
    next updatedReq s' hupdate =>
      obtain ⟨req, hreq, hid, hexpected, -, rfl⟩ := updateRequest_eq_some hupdate
      obtain ⟨txnId, hstate⟩ := KeyRequestStatus.eq_willResend hexpected
      have hok := h.record req hreq
      have htxn : req.state.cancellationTxnId = some txnId := by
        rw [hstate]
        rfl
      have hsame := hcareful req hreq hid (hexpected.trans hresend.symm) txnId htxn
      have hgone : ¬ s.Outstanding req.requestId := fun houtstanding =>
        (hok.pending txnId htxn).1 houtstanding (hsame ▸ hseen)
      refine h.updateRecord hreq (Nat.le_refl _) rfl rfl
        (h.not_requested hreq (by rw [hstate]; exact (nomatch ·))) ?_ ?_ ?_
      · rintro message txn (⟨rfl, rfl⟩ | ⟨-, hnone⟩)
        · exact ⟨.inl (.inl ⟨rfl, rfl⟩), h.fresh _ _ (.inr ⟨req, hreq, .inl ⟨rfl, rfl⟩⟩)⟩
        · cases hnone
      · rintro message message' txn (⟨rfl, -⟩ | ⟨-, hnone⟩) (⟨rfl, -⟩ | ⟨-, hnone'⟩)
        · rfl
        · cases hnone'
        · cases hnone
        · cases hnone
      · refine ⟨fun x hx hmessage => ?_, fun _ => iff_of_false hgone (hok.resend hexpected),
          (nomatch ·), fun txn hnone => (nomatch hnone), (nomatch ·)⟩
        left
        rcases hok.cancellation x hx hmessage with hseen' | hsome
        · exact hseen'
        · obtain heq := Option.some.inj (htxn.symm.trans hsome)
          rwa [← heq, ← hsame]
  · rcases deleteRequest_cases s send.message.requestId (·.isCancellationPending) with
      heq | ⟨req, hreq, hid, hexpected, heq⟩
    · rw [heq]
      exact h
    · rw [heq]
      obtain ⟨txnId, hstate⟩ := KeyRequestStatus.eq_cancellationPending hexpected
      have htxn : req.state.cancellationTxnId = some txnId := by
        rw [hstate]
        rfl
      have hwill : req.state.willResend = send.andResend := by
        rw [hstate, Bool.eq_false_iff.2 hresend]
        rfl
      have hsame := hcareful req hreq hid hwill txnId htxn
      refine h.deleteRecord hreq (fun houtstanding => ?_)
        (h.not_requested hreq (by rw [hstate]; exact (nomatch ·)))
      exact ((h.record req hreq).pending txnId htxn).1 houtstanding (hsame ▸ hseen)

/-- **After a request the record is sent.** The loop has done it, and goes on. -/
theorem Inv.requested (h : s.Inv) (hloop : s.loop = .sending send) {body : Body}
    (haction : send.message.action = .request body) (hseen : send.txnId ∈ s.seen) :
    (s.afterSend send).loopAgain.Inv := by
  have hsend : s.loop.send? = some send := by
    rw [hloop]
    rfl
  obtain ⟨req, hreq, hstate, hmessage, htxn⟩ := h.loop send hsend (by rw [haction]; exact (nomatch ·))
  unfold afterSend
  simp only [haction]
  split
  · exact h.loopAgain
  next updatedReq s' hupdate =>
    obtain ⟨req', hreq', hid, -, -, rfl⟩ := updateRequest_eq_some hupdate
    have hid' : req'.requestId = req.requestId := by
      rw [hid, hmessage]
      rfl
    obtain rfl := h.unique req' hreq' req hreq hid'
    have hnone : s.loopAgain.loop.send? = none := by
      change (if _ then _ else _ : KeyRequestLoop Body).send? = none
      split_ifs
      · rfl
      · rfl
    have hok := h.loopAgain.record req' hreq
    have hseen' : req'.txnId ∈ s.loopAgain.seen := htxn ▸ hseen
    refine h.loopAgain.updateRecord hreq (Nat.le_refl _) rfl rfl
      (fun x hx => nomatch hnone.symm.trans hx) ?_ ?_ ?_
    · rintro message txn (⟨rfl, rfl⟩ | ⟨-, hnone'⟩)
      · exact ⟨.inl (.inl ⟨rfl, rfl⟩), h.fresh _ _ (.inr ⟨req', hreq, .inl ⟨rfl, rfl⟩⟩)⟩
      · cases hnone'
    · rintro message message' txn (⟨rfl, -⟩ | ⟨-, hnone'⟩) (⟨rfl, -⟩ | ⟨-, hnone''⟩)
      · rfl
      · cases hnone''
      · cases hnone'
      · cases hnone'
    · refine ⟨fun x hx hmessage' => .inl ?_, (nomatch ·), fun _ => (hok.unsent hstate).2 hseen',
        fun txn hnone' => (nomatch hnone'), (nomatch ·)⟩
      refine (hok.cancellation x hx hmessage').resolve_right fun hsome => ?_
      rw [hstate] at hsome
      cases hsome

end

/-- **A careful step preserves it.** -/
theorem Inv.step {e : KeyRequestStep Body} (h : s.Inv) (hcareful : s.Careful e)
    (hse : keyRequestSystem.step s e = some s') : s'.Inv := by
  have hcall : ∀ call : KeyRequestCall Body, call.send? = none →
      ({ s with calls := s.calls ++ [call] } : KeyRequestState Body).Inv := by
    intro call hsilent
    refine h.frame rfl rfl rfl (Nat.le_refl _) (fun send hsend => ⟨send, hsend, rfl, rfl, .inl⟩) ?_
    rintro send ⟨call', hmem, hsend⟩
    rcases List.mem_append.1 hmem with hmem | hmem
    · exact ⟨send, ⟨call', hmem, hsend⟩, rfl, rfl, .inl⟩
    · rw [List.mem_singleton.1 hmem, hsilent] at hsend
      cases hsend
  have hrunning : ∀ running, ({ s with clientRunning := running } : KeyRequestState Body).Inv :=
    fun _ => h.frame rfl rfl rfl (Nat.le_refl _) (fun send hsend => ⟨send, hsend, rfl, rfl, .inl⟩)
      fun send hsend => ⟨send, hsend, rfl, rfl, .inl⟩
  cases e with
  | queueRoomKeyRequest body resend => exact Option.some.inj hse ▸ hcall _ rfl
  | cancelRoomKeyRequest body => exact Option.some.inj hse ▸ hcall _ rfl
  | sendQueuedRequests => exact Option.some.inj hse ▸ h.startTimer
  | start => exact Option.some.inj hse ▸ hrunning true
  | stop => exact Option.some.inj hse ▸ hrunning false
  | proceed i => exact h.proceed hcareful hse
  | timerFires =>
    simp only [keyRequestSystem] at hse
    split at hse
    · exact Option.some.inj hse ▸ h.loopAgain
    · cases hse
  | find j =>
    simp only [keyRequestSystem] at hse
    split at hse
    next send hloop hfind =>
      obtain ⟨req, hreq, hsend⟩ := Option.bind_eq_some_iff.1 hfind
      obtain rfl := Option.some.inj hse
      refine h.addSend (List.mem_of_getElem? hreq) hsend rfl rfl rfl rfl (fun x hx => ?_)
        fun x hx => .inl hx
      exact .inr (Option.some.inj hx).symm
    · cases hse
  | findNothing =>
    simp only [keyRequestSystem] at hse
    split at hse
    · split_ifs at hse
      exact Option.some.inj hse ▸ h.setLoop rfl
    · cases hse
  | loopSend =>
    simp only [keyRequestSystem] at hse
    split at hse
    next send hloop =>
      obtain rfl := Option.some.inj hse
      refine h.frame rfl rfl rfl (Nat.le_refl _) (fun x hx => ?_) fun x hx =>
        ⟨x, hx, rfl, rfl, .inl⟩
      exact ⟨x, by rw [hloop]; exact hx, rfl, rfl, .inl⟩
    · cases hse
  | receive sender =>
    simp only [keyRequestSystem] at hse
    split at hse
    next message txnId andResend hsending =>
      obtain rfl := Option.some.inj hse
      rw [receive_setSending]
      -- the server does not mind how far the sender thinks the message has got
      have hinv := h.receive (Outgoing.of_sending hsending)
      have hseen := receive_seen s ⟨message, txnId, andResend, .inFlight⟩
      refine hinv.setSending ((receive_sending ..).trans hsending) ⟨rfl, rfl, fun _ => .inr ?_⟩
      exact hseen
    · cases hse
  | succeed sender =>
    simp only [keyRequestSystem] at hse
    split at hse
    next message txnId andResend hsending =>
      obtain rfl := Option.some.inj hse
      exact h.setSending hsending ⟨rfl, rfl, fun _ => .inl (nomatch ·)⟩
    · cases hse
  | fail sender =>
    simp only [keyRequestSystem] at hse
    split at hse
    · cases hse
    next send hphase hsending =>
      obtain rfl := Option.some.inj hse
      unfold failed
      split
      · exact h.setLoop rfl
      next i =>
        have hover : (s.setCall i none).Inv := h.setCall_silent i fun call hcall => nomatch hcall
        split_ifs
        · exact hover
        · exact hover.startTimer
    · cases hse
  | update sender =>
    simp only [keyRequestSystem] at hse
    split at hse
    next message txnId andResend hsending =>
      have hout := Outgoing.of_sending hsending
      have hseen : txnId ∈ s.seen := h.phase _ hout (nomatch ·)
      cases haction : message.action with
      | request body =>
        -- it is the loop that sends requests
        rcases sending_outgoing hsending with ⟨rfl, hloop⟩ | ⟨i, rfl, hcall⟩
        · obtain rfl := Option.some.inj hse
          exact h.requested hloop haction hseen
        · have hcancel := h.calls _ ⟨_, List.mem_of_getElem? hcall, rfl⟩
          exact nomatch haction.symm.trans hcancel
      | requestCancellation =>
        have hinv : (s.afterSend ⟨message, txnId, andResend, .succeeded⟩).Inv :=
          h.cancelled haction hseen (hcareful _ hsending haction)
        split at hse
        · exact Option.some.inj hse ▸ hinv.loopAgain
        next i =>
          exact Option.some.inj hse ▸ hinv.setCall_silent i fun call hcall => nomatch hcall
    · cases hse

omit [DecidableEq Body] in
theorem Inv.empty : (empty : KeyRequestState Body).Inv := by
  have hsilent : ∀ send, ¬ (KeyRequestState.empty : KeyRequestState Body).Outgoing send := by
    rintro send (hloop | ⟨call, hcall, -⟩)
    · cases hloop
    · exact absurd hcall List.not_mem_nil
  have hnameless : ∀ message txnId,
      ¬ (KeyRequestState.empty : KeyRequestState Body).Names message txnId := by
    rintro message txnId (⟨send, hsend, -⟩ | ⟨req, hreq, -⟩)
    · exact hsilent send hsend
    · exact absurd hreq List.not_mem_nil
  exact
    { unique := fun req hreq => absurd hreq List.not_mem_nil
      fresh := fun message txnId hname => absurd hname (hnameless message txnId)
      names := fun message _ txnId hname => absurd hname (hnameless message txnId)
      ids := fun req hreq => absurd hreq List.not_mem_nil
      outgoingIds := fun send hsend => absurd hsend (hsilent send)
      seen := fun txnId hmem => absurd hmem List.not_mem_nil
      received := fun message hmem => absurd hmem List.not_mem_nil
      bodies := fun message hmem => absurd hmem List.not_mem_nil
      phase := fun send hsend => absurd hsend (hsilent send)
      calls := fun send hsend => absurd (.inr hsend) (hsilent send)
      loop := fun send hsend => absurd (.inl hsend) (hsilent send)
      record := fun req hreq => absurd hreq List.not_mem_nil
      gone := fun requestId _ ⟨body, hsome⟩ => nomatch hsome }

end KeyRequestState

/-- **The records agree with what the recipients have got**, along the runs whose steps are
careful, and whether anything is going on or not. -/
theorem keyRequests_agree {s : KeyRequestState Body}
    (h : keyRequestSystem.ReachableUnder KeyRequestState.Careful s) : s.Agrees := by
  have hinv : s.Inv := h.invariant .empty fun s e s' hs he hse => hs.step he hse
  constructor
  · intro req hreq hstate
    obtain ⟨body, hsome⟩ := (hinv.record req hreq).sent hstate
    obtain ⟨message, hmem, hid, haction⟩ := KeyRequestState.lastReceived_mem hsome
    rw [hsome, hinv.bodies message hmem body haction req hreq hid.symm]
  · intro body hnone requestId hsome
    obtain ⟨message, hmem, hid, haction⟩ := KeyRequestState.lastReceived_mem hsome
    refine hinv.gone requestId (fun req hreq hreqid => ?_) ⟨body, hsome⟩
    have hbody := hinv.bodies message hmem body haction req hreq (hreqid.trans hid.symm)
    exact absurd (decide_eq_true hbody) (List.find?_eq_none.1 hnone req hreq)

end Model

/-! A request is cancelled after it has been sent; another one is cancelled while it is sent. -/

section Examples

def requestThenCancel : List (KeyRequestStep String) :=
  [.start, .queueRoomKeyRequest "key" false, .proceed 0, .proceed 0,
    .sendQueuedRequests, .timerFires, .find 0, .loopSend, .receive none, .succeed none, .update none,
    .findNothing, .cancelRoomKeyRequest "key", .proceed 0, .proceed 0, .proceed 0,
    .receive (some 0), .succeed (some 0), .update (some 0)]

theorem requestThenCancel_runs : (keyRequestSystem.run requestThenCancel).isSome := by decide

theorem keyRequests_agree_requestThenCancel :
    ((keyRequestSystem.run requestThenCancel).get requestThenCancel_runs).received.length = 2 ∧
      ((keyRequestSystem.run requestThenCancel).get requestThenCancel_runs).Agrees := by
  refine ⟨by decide, keyRequests_agree ⟨_, System.trace_get requestThenCancel_runs, ?_⟩⟩
  change ∀ q ∈ [_, _, _, _, _, _, _, _, _, _, _, _, _, _, _, _, _, _, _], _
  simp only [List.forall_mem_cons]
  refine ⟨trivial, trivial, fun call hcall => ?_, fun call hcall => ?_, trivial, trivial, trivial,
    trivial, trivial, trivial, fun send hsend haction => ?_, trivial, trivial, fun call hcall => ?_,
    fun call hcall => ?_, fun call hcall => ?_, trivial, trivial,
    fun send hsend _ req hreq _ _ txnId htxn => ?_, fun q hq => absurd hq List.not_mem_nil⟩
  · obtain rfl := Option.some.inj hcall
    trivial
  · obtain rfl := Option.some.inj hcall
    trivial
  · obtain rfl := Option.some.inj hsend
    cases haction
  · obtain rfl := Option.some.inj hcall
    trivial
  · -- the record that is found has been sent
    obtain rfl := Option.some.inj hcall
    exact fun hunsent => nomatch hunsent
  · obtain rfl := Option.some.inj hcall
    trivial
  · obtain rfl := Option.some.inj hsend
    obtain rfl := List.mem_singleton.1 hreq
    exact Option.some.inj htxn

def cancelWhileSending : List (KeyRequestStep String) :=
  [.start, .queueRoomKeyRequest "key" false, .proceed 0, .proceed 0,
    .sendQueuedRequests, .timerFires, .find 0, .loopSend, .receive none,
    .cancelRoomKeyRequest "key", .proceed 0, .proceed 0, .succeed none, .update none, .findNothing]

theorem cancelWhileSending_runs : (keyRequestSystem.run cancelWhileSending).isSome := by decide

/-- Not along all runs: the recipients still have the request. -/
theorem keyRequests_agree_fails :
    ¬ ∀ s : KeyRequestState String, keyRequestSystem.Reachable s → s.Quiescent → s.Agrees := by
  intro h
  have hagrees := h _ (System.reachable_get cancelWhileSending_runs) ⟨rfl, rfl⟩
  exact hagrees.absent "key" (by decide) 0 (by decide)

end Examples

end MatrixSdk.Crypto
