/-
The events a client sends to a room, from the moment they are shown until the server
echoes them (`Room` in `src/models/room.js`, and what `MatrixClient` does with an event
it sends in `src/client.js`).

The event made for a transaction id is an object whose id and status change; it is
named by the transaction id, and the room knows its present id and status. The server
gives the event sent with a transaction id an id of its own.
-/
import MatrixSdk.Lib.System
import MatrixSdk.Models.EventTimelineSet

set_option autoImplicit false

namespace MatrixSdk.Models

open MatrixSdk.Lib

/-! ## Events -/

inductive EventStatus
  | notSent
  | encrypting
  | sending
  | queued
  | sent
  | cancelled
  deriving DecidableEq, Repr

def EventStatus.text : EventStatus → String
  | notSent => "not_sent"
  | encrypting => "encrypting"
  | sending => "sending"
  | queued => "queued"
  | sent => "sent"
  | cancelled => "cancelled"

/-- `ALLOWED_TRANSITIONS`. -/
def allowedTransitions : EventStatus → List EventStatus
  | .encrypting => [.sending, .notSent]
  | .sending => [.encrypting, .queued, .notSent, .sent]
  | .queued => [.sending, .cancelled]
  | .sent => []
  | .notSent => [.sending, .queued, .cancelled]
  | .cancelled => []

/-- An event id: the one made up from a transaction id, the one the server gives the
event sent with a transaction id, or that of an event of somebody else. -/
inductive EventId (TxnId : Type)
  | localEcho (txnId : TxnId)
  | sent (txnId : TxnId)
  | other (n : ℕ)
  deriving DecidableEq

/-- An event object: the one made to be sent, the one `/sync` brings as its echo, or the
event of somebody else. -/
inductive RoomEvent (TxnId : Type)
  | localEvent (txnId : TxnId)
  | remoteEcho (txnId : TxnId)
  | other (n : ℕ)
  deriving DecidableEq

/-- What changes of an event made to be sent. -/
structure LocalEvent (TxnId : Type) where
  eventId : EventId TxnId
  status : Option EventStatus

/-! ## The room -/

abbrev RoomTimelineSet (TxnId : Type) :=
  EventTimelineSet (RoomEvent TxnId) (EventId TxnId) String

/-- A `Room`. There is a pending list when pending events are detached, and none when
they are in the timeline in chronological order. -/
structure Room (TxnId : Type) where
  localEvents : TxnId → LocalEvent TxnId
  txnToEvent : JsObject TxnId TxnId
  pendingEventList : Option (List TxnId)
  unfilteredTimelineSet : RoomTimelineSet TxnId
  filteredTimelineSets : List (RoomTimelineSet TxnId)

namespace Room

variable {TxnId : Type}

/-- `_timelineSets`. -/
def timelineSets (room : Room TxnId) : List (RoomTimelineSet TxnId) :=
  room.unfilteredTimelineSet :: room.filteredTimelineSets

def mapTimelineSets (room : Room TxnId) (f : RoomTimelineSet TxnId → RoomTimelineSet TxnId) :
    Room TxnId :=
  { room with
    unfilteredTimelineSet := f room.unfilteredTimelineSet
    filteredTimelineSets := room.filteredTimelineSets.map f }

def getId (room : Room TxnId) : RoomEvent TxnId → EventId TxnId
  | .localEvent txnId => (room.localEvents txnId).eventId
  | .remoteEcho txnId => .sent txnId
  | .other n => .other n

/-- `resetLiveTimeline`. -/
def resetLiveTimeline (room : Room TxnId) (backPaginationToken forwardPaginationToken :
    Option String) : Room TxnId :=
  room.mapTimelineSets fun s => s.resetLiveTimeline backPaginationToken forwardPaginationToken

variable [DecidableEq TxnId]

/-- The object made for a transaction id changes. -/
def setLocalEvent (room : Room TxnId) (txnId : TxnId) (event : LocalEvent TxnId) : Room TxnId :=
  { room with localEvents := Function.update room.localEvents txnId event }

/-- The first event with the id is removed from the pending list, if there is one. -/
def removePending (room : Room TxnId) (eventId : EventId TxnId) : Room TxnId :=
  { room with
    pendingEventList := room.pendingEventList.map fun pending =>
      pending.eraseP fun ev => (room.localEvents ev).eventId = eventId }

/-- `addPendingEvent`, of the event made for the transaction id. -/
def addPendingEvent [ToString TxnId] (room : Room TxnId) (txnId : TxnId) :
    Except String (Room TxnId) :=
  let event := room.localEvents txnId
  if event.status ≠ some .sending then
    .error ("addPendingEvent called on an event with status " ++
      event.status.elim "null" EventStatus.text)
  else if (room.txnToEvent.get txnId).isSome then
    .error ("addPendingEvent called on an event with known txnId " ++ toString txnId)
  else
    let room := { room with txnToEvent := room.txnToEvent.set txnId txnId }
    match room.pendingEventList with
    | some pending =>
      let room :=
        if pending.any fun e => (room.localEvents e).status = some .notSent then
          -- an event of before is waiting to be sent again
          room.setLocalEvent txnId { event with status := some .notSent }
        else room
      .ok { room with pendingEventList := some (pending ++ [txnId]) }
    | none =>
      .ok (room.mapTimelineSets fun s =>
        if s.filterRoomTimeline [.localEvent txnId] = [] then s
        else s.addEventToTimeline room.getId (.localEvent txnId) s.liveTimeline false)

/-- `_handleRemoteEcho`: what `/sync` has brought with the transaction id and the new event id
is the event `localEvent`. -/
def handleRemoteEcho (room : Room TxnId) (transactionId : TxnId) (newEventId : EventId TxnId)
    (localEvent : TxnId) : Room TxnId :=
  let oldEventId := (room.localEvents localEvent).eventId
  -- no longer pending
  let room := { room with txnToEvent := room.txnToEvent.delete transactionId }
  let room := room.removePending oldEventId
  let room := room.setLocalEvent localEvent ⟨newEventId, none⟩
  room.mapTimelineSets fun s =>
    s.handleRemoteEcho room.getId (.localEvent localEvent) oldEventId newEventId

/-- `_addLiveEvent`, with the strategy "ignore". -/
def addLiveEvent (room : Room TxnId) (event : RoomEvent TxnId) (transactionId : Option TxnId) :
    Room TxnId :=
  match transactionId with
  | some txnId =>
    match room.txnToEvent.get txnId with
    | some existingEvent =>
      -- remote echo of an event we sent earlier
      room.handleRemoteEcho txnId (room.getId event) existingEvent
    | none => room.mapTimelineSets fun s => s.addLiveEvent room.getId event false
  | none => room.mapTimelineSets fun s => s.addLiveEvent room.getId event false

/-- `removeEvent`. -/
def removeEvent (room : Room TxnId) (eventId : EventId TxnId) : Room TxnId :=
  room.mapTimelineSets fun s => s.removeEvent room.getId eventId

/-- What `updatePendingEvent` does once it has checked the transition. -/
def setPendingStatus (room : Room TxnId) (event : TxnId) (newStatus : EventStatus)
    (newEventId : Option (EventId TxnId)) : Room TxnId :=
  let oldEventId := (room.localEvents event).eventId
  let room := room.setLocalEvent event ⟨oldEventId, some newStatus⟩
  match newStatus, newEventId with
  | .sent, some eventId =>
    let room := room.setLocalEvent event ⟨eventId, some .sent⟩
    room.mapTimelineSets fun s => s.replaceEventId oldEventId eventId
  | .cancelled, _ => (room.removePending oldEventId).removeEvent oldEventId
  | _, _ => room

/-- `updatePendingEvent`. -/
def updatePendingEvent (room : Room TxnId) (event : TxnId) (newStatus : EventStatus)
    (newEventId : Option (EventId TxnId)) : Except String (Room TxnId) :=
  if newStatus = .sent ∧ newEventId.isNone then
    .error "updatePendingEvent called with status=SENT, but no new event id"
  else if newStatus = .sent ∧
      (newEventId.bind room.unfilteredTimelineSet.eventIdToTimeline.get).isSome then
    -- we've already received the event via the event stream
    .ok room
  else
    match (room.localEvents event).status with
    | none =>
      .error ("updatePendingEventStatus called on an event which is " ++ "not a local echo.")
    | some oldStatus =>
      if newStatus ∈ allowedTransitions oldStatus then
        .ok (room.setPendingStatus event newStatus newEventId)
      else
        .error ("Invalid EventStatus transition " ++ oldStatus.text ++ "->" ++ newStatus.text)

/-- `MatrixClient.cancelPendingEvent`, without the scheduler. -/
def cancelPendingEvent (room : Room TxnId) (event : TxnId) : Except String (Room TxnId) :=
  match (room.localEvents event).status with
  | some .queued => room.updatePendingEvent event .cancelled none
  | some .notSent => room.updatePendingEvent event .cancelled none
  | status => .error ("cannot cancel an event with status " ++ status.elim "null" EventStatus.text)

end Room

/-! ## Sending -/

/-- How far the client is with an event. -/
inductive Attempt
  | unsent
  | preparing
  | inFlight
  | over
  deriving DecidableEq, Repr

/-- An event on its way. The server has it once it is `accepted`; the response and the
echo have been processed once it is `answered` and `echoed`; it is `unloaded` when all
timelines have been discarded since the echo. -/
structure Sending where
  attempt : Attempt
  accepted : Bool
  answered : Bool
  echoed : Bool
  unloaded : Bool

structure SendingRoom (TxnId : Type) where
  room : Room TxnId
  sending : TxnId → Sending

inductive SendEvent (TxnId : Type)
  /-- `_sendCompleteEvent`. -/
  | send (txnId : TxnId)
  /-- It is encrypted, or queued, or either is over. -/
  | progress (txnId : TxnId) (status : EventStatus)
  /-- The request leaves. -/
  | request (txnId : TxnId)
  /-- The server gets it. -/
  | accept (txnId : TxnId)
  /-- The response arrives. -/
  | respond (txnId : TxnId)
  /-- The attempt fails. -/
  | fail (txnId : TxnId)
  /-- `resendEvent`. -/
  | retry (txnId : TxnId)
  /-- `cancelPendingEvent`. -/
  | cancel (txnId : TxnId)
  /-- `/sync` brings the event, with its transaction id. -/
  | echo (txnId : TxnId)
  /-- `/sync` brings an event of somebody else. -/
  | otherEvent (n : ℕ)
  /-- The live timeline is reset. -/
  | reset (backPaginationToken forwardPaginationToken : Option String)

namespace SendingRoom

variable {TxnId : Type} [DecidableEq TxnId]

def setSending (s : SendingRoom TxnId) (txnId : TxnId) (sending : Sending) : SendingRoom TxnId :=
  { s with sending := Function.update s.sending txnId sending }

/-- The attempt is over: the error handler of `_sendEvent` has set the status, or has failed. -/
def failed (s : SendingRoom TxnId) (txnId : TxnId) : SendingRoom TxnId :=
  let s := s.setSending txnId { s.sending txnId with attempt := .over }
  match s.room.updatePendingEvent txnId .notSent none with
  | .ok room => { s with room := room }
  | .error _ => s

/-- An event is made and shown. -/
def send [ToString TxnId] (s : SendingRoom TxnId) (txnId : TxnId) : SendingRoom TxnId :=
  let room := s.room.setLocalEvent txnId ⟨.localEcho txnId, some .sending⟩
  match room.addPendingEvent txnId with
  | .error _ => s
  | .ok room =>
    let attempt :=
      if (room.localEvents txnId).status = some .notSent then .over else .preparing
    { s with room := room }.setSending txnId { s.sending txnId with attempt := attempt }

/-- The room with the given ordering of pending events and filters of timeline sets. -/
def new (timelineSupport detached : Bool) (filters : List (RoomEvent TxnId → Bool)) :
    SendingRoom TxnId where
  room :=
    { localEvents := fun txnId => ⟨.localEcho txnId, none⟩
      txnToEvent := .empty
      pendingEventList := if detached then some [] else none
      unfilteredTimelineSet := .new timelineSupport none
      filteredTimelineSets := filters.map fun filter => .new timelineSupport (some filter) }
  sending _ := ⟨.unsent, false, false, false, false⟩

end SendingRoom

/-- The room while events are sent. Transaction ids are not used twice; a request leaves
with the status the scheduler gives it, unless the echo has come already. -/
def sendSystem {TxnId : Type} [DecidableEq TxnId] [ToString TxnId] (timelineSupport detached : Bool)
    (filters : List (RoomEvent TxnId → Bool)) : System (SendingRoom TxnId) (SendEvent TxnId) where
  init := .new timelineSupport detached filters
  step s
    | .send txnId => if (s.sending txnId).attempt = .unsent then some (s.send txnId) else none
    | .progress txnId status =>
      if (s.sending txnId).attempt = .preparing ∧ status ∈ [.encrypting, .sending, .queued] then
        match s.room.updatePendingEvent txnId status none with
        | .ok room => some { s with room := room }
        | .error _ => some (s.failed txnId)
      else none
    | .request txnId =>
      if (s.sending txnId).attempt = .preparing ∧
          (s.room.localEvents txnId).status ∈ [some .sending, none] then
        some (s.setSending txnId { s.sending txnId with attempt := .inFlight })
      else none
    | .accept txnId =>
      if (s.sending txnId).attempt = .inFlight then
        some (s.setSending txnId { s.sending txnId with accepted := true })
      else none
    | .respond txnId =>
      if (s.sending txnId).attempt = .inFlight ∧ (s.sending txnId).accepted then
        let s := s.setSending txnId { s.sending txnId with attempt := .over, answered := true }
        match s.room.updatePendingEvent txnId .sent (some (.sent txnId)) with
        | .ok room => some { s with room := room }
        | .error _ => some s
      else none
    | .fail txnId =>
      if (s.sending txnId).attempt ∈ [.preparing, .inFlight] then some (s.failed txnId) else none
    | .retry txnId =>
      if (s.sending txnId).attempt = .over then
        match s.room.updatePendingEvent txnId .sending none with
        | .ok room =>
          some ({ s with room := room }.setSending txnId
            { s.sending txnId with attempt := .preparing })
        | .error _ => some s
      else none
    | .cancel txnId =>
      if (s.sending txnId).attempt = .unsent then none
      else
        match s.room.cancelPendingEvent txnId with
        | .ok room =>
          some ({ s with room := room }.setSending txnId { s.sending txnId with attempt := .over })
        | .error _ => some s
    | .echo txnId =>
      if (s.sending txnId).accepted then
        some ({ s with room := s.room.addLiveEvent (.remoteEcho txnId) (some txnId) }.setSending
          txnId { s.sending txnId with echoed := true })
      else none
    | .otherEvent n => some { s with room := s.room.addLiveEvent (.other n) none }
    | .reset back forward =>
      let discards := !s.room.unfilteredTimelineSet.timelineSupport || forward.isNone
      some
        { room := s.room.resetLiveTimeline back forward
          sending := fun txnId =>
            { s.sending txnId with
              unloaded := (s.sending txnId).unloaded || (discards && (s.sending txnId).echoed) } }

end MatrixSdk.Models
