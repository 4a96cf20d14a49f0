/-
The three crypto stores: `crypto/store/memory-crypto-store.js`, `localStorage-crypto-store.js` and
`indexeddb-crypto-store-backend.js`, with their outgoing room key requests and the sessions that
need to be backed up.

What they are to store is said by [`ReferenceStore`]: sets of requests and of sessions, with what a
call may return. Where the interface leaves a choice (which request of those in a state, the order
of a list) the reference store allows any. The contents of the three stores agree with the reference
store after any calls. What they return does for all calls but two: no store finds a request by its
target, and each of them takes the limit of `getSessionsNeedingBackup` in its own way. When this
shows is what [`ReferenceStore.refined_iff`] says.

Strings of which parts are taken are lists of characters.
-/
import MatrixSdk.Lib.JsObject
import MatrixSdk.Lib.ObjectStore
import Mathlib.Data.Char
import Mathlib.Data.Finset.Image
import Mathlib.Data.List.Lex
import Mathlib.Data.Prod.Lex

set_option autoImplicit false

namespace MatrixSdk.CryptoStores

open MatrixSdk.Lib

/-! ## Requests and sessions -/

/-- A RoomKeyRequestBody. -/
structure RoomKeyRequestBody where
  algorithm : String
  room_id : String
  sender_key : String
  session_id : String
  deriving DecidableEq

/-- A device a request is for. -/
structure Recipient where
  userId : String
  deviceId : String
  deriving DecidableEq

/-- An OutgoingRoomKeyRequest. -/
structure OutgoingRoomKeyRequest (RequestId : Type) where
  requestId : RequestId
  requestTxnId : Option String
  cancellationTxnId : Option String
  recipients : List Recipient
  requestBody : RoomKeyRequestBody
  state : ℕ
  deriving DecidableEq

/-- The updates that are made to a request. -/
structure RequestUpdates where
  requestTxnId : Option String
  cancellationTxnId : Option String
  state : Option ℕ

/-- A base64-encoded curve25519 key. -/
abbrev SenderKey := { key : List Char // key.length = 43 }

/-- The key of an inbound group session. -/
abbrev SessionKey := SenderKey ×ₗ List Char

/-- A session to be backed up; the data is `null` if there is no such session. -/
structure BackupSession (SessionData : Type) where
  senderKey : List Char
  sessionId : List Char
  sessionData : Option SessionData
  deriving DecidableEq

/-- The calls of a store. -/
inductive StoreCall (RequestId SessionData : Type)
  | getOrAddOutgoingRoomKeyRequest (request : OutgoingRoomKeyRequest RequestId)
  | getOutgoingRoomKeyRequest (requestBody : RoomKeyRequestBody)
  | getOutgoingRoomKeyRequestByState (wantedStates : List ℕ)
  | getAllOutgoingRoomKeyRequestsByState (wantedState : ℕ)
  | getOutgoingRoomKeyRequestsByTarget (target : Recipient) (wantedStates : List ℕ)
  | updateOutgoingRoomKeyRequest (requestId : RequestId) (expectedState : ℕ)
      (updates : RequestUpdates)
  | deleteOutgoingRoomKeyRequest (requestId : RequestId) (expectedState : ℕ)
  | addEndToEndInboundGroupSession (session : SessionKey) (sessionData : SessionData)
  | storeEndToEndInboundGroupSession (session : SessionKey) (sessionData : SessionData)
  | markSessionsNeedingBackup (sessions : List SessionKey)
  | unmarkSessionsNeedingBackup (sessions : List SessionKey)
  | countSessionsNeedingBackup
  | getSessionsNeedingBackup (limit : Option ℕ)

/-- What the promise of a call resolves to, if it is settled at all. -/
inductive StoreResult (RequestId SessionData : Type)
  | request (request : Option (OutgoingRoomKeyRequest RequestId))
  | requests (requests : List (OutgoingRoomKeyRequest RequestId))
  | done
  | count (n : ℕ)
  | sessions (sessions : List (BackupSession SessionData))
  | rejected
  | pending
  deriving DecidableEq

section Model

variable {RequestId SessionData : Type} [DecidableEq RequestId]

/-- `utils.deepCompare`, of two bodies. -/
def deepCompare (a b : RoomKeyRequestBody) : Bool := a = b

/-- `recipients.includes({userId, deviceId})`, which compares objects as such, not by what is in
them. The objects of the array are numbered, and the literal is a new one. -/
def includesLiteral (recipients : List Recipient) (_target : Recipient) : Bool :=
  (List.range recipients.length).contains recipients.length

/-- `Object.assign(req, updates)` -/
def OutgoingRoomKeyRequest.assign (req : OutgoingRoomKeyRequest RequestId)
    (updates : RequestUpdates) : OutgoingRoomKeyRequest RequestId :=
  { req with
    requestTxnId := updates.requestTxnId <|> req.requestTxnId
    cancellationTxnId := updates.cancellationTxnId <|> req.cancellationTxnId
    state := updates.state.getD req.state }

/-- `senderKey + '/' + sessionId` -/
def sessionKey (session : SessionKey) : List Char :=
  (ofLex session).1.1 ++ '/' :: (ofLex session).2

/-- `limit && session.length >= limit`, of the key of a session. -/
def limitReached (limit : Option ℕ) (session : List Char) : Bool :=
  match limit with
  | none => false
  | some limit => limit ≠ 0 && limit ≤ session.length

/-- `!limit` -/
def unlimited (limit : Option ℕ) : Bool := limit.getD 0 = 0

/-! ## The store in memory -/

/-- `_outgoingRoomKeyRequests`, `_inboundGroupSessions` and `_sessionsNeedingBackup` of a
`MemoryCryptoStore`. -/
structure MemoryCryptoStore (RequestId SessionData : Type) where
  outgoingRoomKeyRequests : List (OutgoingRoomKeyRequest RequestId)
  inboundGroupSessions : JsObject (List Char) SessionData
  sessionsNeedingBackup : JsObject (List Char) Unit

namespace MemoryCryptoStore

def new : MemoryCryptoStore RequestId SessionData := ⟨[], .empty, .empty⟩

variable (s : MemoryCryptoStore RequestId SessionData)

/-- `_getOutgoingRoomKeyRequest` -/
def getOutgoingRoomKeyRequest (requestBody : RoomKeyRequestBody) :
    Option (OutgoingRoomKeyRequest RequestId) :=
  s.outgoingRoomKeyRequests.find? fun existing => deepCompare existing.requestBody requestBody

def getOrAddOutgoingRoomKeyRequest (request : OutgoingRoomKeyRequest RequestId) :
    OutgoingRoomKeyRequest RequestId × MemoryCryptoStore RequestId SessionData :=
  match s.getOutgoingRoomKeyRequest request.requestBody with
  | some existing => (existing, s)
  | none => (request,
      { s with outgoingRoomKeyRequests := s.outgoingRoomKeyRequests ++ [request] })

def getOutgoingRoomKeyRequestByState (wantedStates : List ℕ) :
    Option (OutgoingRoomKeyRequest RequestId) :=
  s.outgoingRoomKeyRequests.find? fun req => wantedStates.any fun state => req.state = state

def getAllOutgoingRoomKeyRequestsByState (wantedState : ℕ) :
    List (OutgoingRoomKeyRequest RequestId) :=
  s.outgoingRoomKeyRequests.filter fun r => r.state = wantedState

def getOutgoingRoomKeyRequestsByTarget (target : Recipient) (wantedStates : List ℕ) :
    List (OutgoingRoomKeyRequest RequestId) :=
  s.outgoingRoomKeyRequests.flatMap fun req =>
    (wantedStates.filter fun state =>
      req.state = state && includesLiteral req.recipients target).map fun _ => req

/-- The loop of `updateOutgoingRoomKeyRequest`. -/
def updateLoop (requestId : RequestId) (expectedState : ℕ) (updates : RequestUpdates) :
    List (OutgoingRoomKeyRequest RequestId) →
      Option (OutgoingRoomKeyRequest RequestId) × List (OutgoingRoomKeyRequest RequestId)
  | [] => (none, [])
  | req :: rest =>
    if req.requestId ≠ requestId then
      let (result, rest) := updateLoop requestId expectedState updates rest
      (result, req :: rest)
    else if req.state ≠ expectedState then (none, req :: rest)
    else (some (req.assign updates), req.assign updates :: rest)

def updateOutgoingRoomKeyRequest (requestId : RequestId) (expectedState : ℕ)
    (updates : RequestUpdates) :
    Option (OutgoingRoomKeyRequest RequestId) × MemoryCryptoStore RequestId SessionData :=
  let (result, requests) := updateLoop requestId expectedState updates s.outgoingRoomKeyRequests
  (result, { s with outgoingRoomKeyRequests := requests })

/-- The loop of `deleteOutgoingRoomKeyRequest`. -/
def deleteLoop (requestId : RequestId) (expectedState : ℕ) :
    List (OutgoingRoomKeyRequest RequestId) →
      Option (OutgoingRoomKeyRequest RequestId) × List (OutgoingRoomKeyRequest RequestId)
  | [] => (none, [])
  | req :: rest =>
    if req.requestId ≠ requestId then
      let (result, rest) := deleteLoop requestId expectedState rest
      (result, req :: rest)
    else if req.state ≠ expectedState then (none, req :: rest)
    else (some req, rest)

def deleteOutgoingRoomKeyRequest (requestId : RequestId) (expectedState : ℕ) :
    Option (OutgoingRoomKeyRequest RequestId) × MemoryCryptoStore RequestId SessionData :=
  let (result, requests) := deleteLoop requestId expectedState s.outgoingRoomKeyRequests
  (result, { s with outgoingRoomKeyRequests := requests })

def storeEndToEndInboundGroupSession (session : SessionKey) (sessionData : SessionData) :
    MemoryCryptoStore RequestId SessionData :=
  { s with inboundGroupSessions := s.inboundGroupSessions.set (sessionKey session) sessionData }

def addEndToEndInboundGroupSession (session : SessionKey) (sessionData : SessionData) :
    MemoryCryptoStore RequestId SessionData :=
  match s.inboundGroupSessions.get (sessionKey session) with
  | none => s.storeEndToEndInboundGroupSession session sessionData
  | some _ => s

/-- The loop of `getSessionsNeedingBackup`. -/
def backupLoop (limit : Option ℕ) : List (List Char) → List (BackupSession SessionData)
  | [] => []
  | session :: rest =>
    match s.inboundGroupSessions.get session with
    | none => backupLoop limit rest
    | some sessionData =>
      ⟨session.take 43, session.drop 44, some sessionData⟩ ::
        if limitReached limit session then [] else backupLoop limit rest

def getSessionsNeedingBackup (limit : Option ℕ) : List (BackupSession SessionData) :=
  s.backupLoop limit s.sessionsNeedingBackup.keys

def countSessionsNeedingBackup : ℕ := s.sessionsNeedingBackup.keys.length

def unmarkSessionsNeedingBackup (sessions : List SessionKey) :
    MemoryCryptoStore RequestId SessionData :=
  { s with
    sessionsNeedingBackup := s.sessionsNeedingBackup.deleteAll (sessions.map sessionKey) }

def markSessionsNeedingBackup (sessions : List SessionKey) :
    MemoryCryptoStore RequestId SessionData :=
  { s with
    sessionsNeedingBackup := s.sessionsNeedingBackup.setAll (sessions.map sessionKey) () }

/-- A call, with the store after it. -/
def call : StoreCall RequestId SessionData →
    StoreResult RequestId SessionData × MemoryCryptoStore RequestId SessionData
  | .getOrAddOutgoingRoomKeyRequest request =>
    let (request, s) := s.getOrAddOutgoingRoomKeyRequest request
    (.request (some request), s)
  | .getOutgoingRoomKeyRequest requestBody =>
    (.request (s.getOutgoingRoomKeyRequest requestBody), s)
  | .getOutgoingRoomKeyRequestByState wantedStates =>
    (.request (s.getOutgoingRoomKeyRequestByState wantedStates), s)
  | .getAllOutgoingRoomKeyRequestsByState wantedState =>
    (.requests (s.getAllOutgoingRoomKeyRequestsByState wantedState), s)
  | .getOutgoingRoomKeyRequestsByTarget target wantedStates =>
    (.requests (s.getOutgoingRoomKeyRequestsByTarget target wantedStates), s)
  | .updateOutgoingRoomKeyRequest requestId expectedState updates =>
    let (result, s) := s.updateOutgoingRoomKeyRequest requestId expectedState updates
    (.request result, s)
  -- what it resolves to is not part of the interface
  | .deleteOutgoingRoomKeyRequest requestId expectedState =>
    (.done, (s.deleteOutgoingRoomKeyRequest requestId expectedState).2)
  | .addEndToEndInboundGroupSession session sessionData =>
    (.done, s.addEndToEndInboundGroupSession session sessionData)
  | .storeEndToEndInboundGroupSession session sessionData =>
    (.done, s.storeEndToEndInboundGroupSession session sessionData)
  | .markSessionsNeedingBackup sessions => (.done, s.markSessionsNeedingBackup sessions)
  | .unmarkSessionsNeedingBackup sessions => (.done, s.unmarkSessionsNeedingBackup sessions)
  | .countSessionsNeedingBackup => (.count s.countSessionsNeedingBackup, s)
  | .getSessionsNeedingBackup limit => (.sessions (s.getSessionsNeedingBackup limit), s)

end MemoryCryptoStore

/-! ## The store in localStorage -/

/-- A `LocalStorageCryptoStore`: the requests are in memory, as those of the class it extends, and
in the storage are an item for each session and one for all sessions that need to be backed up. -/
structure LocalStorageCryptoStore (RequestId SessionData : Type) where
  memory : MemoryCryptoStore RequestId SessionData
  inboundGroupSessions : JsObject (List Char) SessionData
  sessionsNeedingBackup : Option (JsObject (List Char) Unit)

namespace LocalStorageCryptoStore

def new : LocalStorageCryptoStore RequestId SessionData := ⟨.new, .empty, none⟩

variable (s : LocalStorageCryptoStore RequestId SessionData)

/-- `getJsonItem(this.store, KEY_SESSIONS_NEEDING_BACKUP) || {}` -/
def needingBackupItem : JsObject (List Char) Unit := s.sessionsNeedingBackup.getD .empty

def storeEndToEndInboundGroupSession (session : SessionKey) (sessionData : SessionData) :
    LocalStorageCryptoStore RequestId SessionData :=
  { s with inboundGroupSessions := s.inboundGroupSessions.set (sessionKey session) sessionData }

def addEndToEndInboundGroupSession (session : SessionKey) (sessionData : SessionData) :
    LocalStorageCryptoStore RequestId SessionData :=
  match s.inboundGroupSessions.get (sessionKey session) with
  | none => s.storeEndToEndInboundGroupSession session sessionData
  | some _ => s

/-- The loop of `getSessionsNeedingBackup`. -/
def backupLoop (limit : Option ℕ) : List (List Char) → List (BackupSession SessionData)
  | [] => []
  | session :: rest =>
    ⟨session.take 43, session.drop 44,
      s.inboundGroupSessions.get (session.take 43 ++ '/' :: session.drop 44)⟩ ::
        if limitReached limit session then [] else backupLoop limit rest

def getSessionsNeedingBackup (limit : Option ℕ) : List (BackupSession SessionData) :=
  s.backupLoop limit s.needingBackupItem.keys

def countSessionsNeedingBackup : ℕ := s.needingBackupItem.keys.length

def unmarkSessionsNeedingBackup (sessions : List SessionKey) :
    LocalStorageCryptoStore RequestId SessionData :=
  { s with
    sessionsNeedingBackup := some (s.needingBackupItem.deleteAll (sessions.map sessionKey)) }

def markSessionsNeedingBackup (sessions : List SessionKey) :
    LocalStorageCryptoStore RequestId SessionData :=
  { s with
    sessionsNeedingBackup := some (s.needingBackupItem.setAll (sessions.map sessionKey) ()) }

/-- A call, with the store after it. -/
def call : StoreCall RequestId SessionData →
    StoreResult RequestId SessionData × LocalStorageCryptoStore RequestId SessionData
  | .addEndToEndInboundGroupSession session sessionData =>
    (.done, s.addEndToEndInboundGroupSession session sessionData)
  | .storeEndToEndInboundGroupSession session sessionData =>
    (.done, s.storeEndToEndInboundGroupSession session sessionData)
  | .markSessionsNeedingBackup sessions => (.done, s.markSessionsNeedingBackup sessions)
  | .unmarkSessionsNeedingBackup sessions => (.done, s.unmarkSessionsNeedingBackup sessions)
  | .countSessionsNeedingBackup => (.count s.countSessionsNeedingBackup, s)
  | .getSessionsNeedingBackup limit => (.sessions (s.getSessionsNeedingBackup limit), s)
  -- the calls that are inherited
  | storeCall => ((s.memory.call storeCall).1, { s with memory := (s.memory.call storeCall).2 })

end LocalStorageCryptoStore

/-! ## The store in IndexedDB -/

/-- The object stores `outgoingRoomKeyRequests`, `inbound_group_sessions` and
`sessions_needing_backup` of a `Backend`. The records of an index that have one index key are met in
the order of their own keys. -/
structure Backend (RequestId SessionData : Type) [LinearOrder RequestId] where
  outgoingRoomKeyRequests : ObjectStore (@OutgoingRoomKeyRequest.requestId RequestId)
  inboundGroupSessions : ObjectStore (Prod.fst : SessionKey × SessionData → SessionKey)
  sessionsNeedingBackup : ObjectStore (id : SessionKey → SessionKey)

end Model

namespace Backend

variable {RequestId SessionData : Type} [LinearOrder RequestId]

def new : Backend RequestId SessionData := ⟨.empty, .empty, .empty⟩

variable (s : Backend RequestId SessionData)

/-- `_getOutgoingRoomKeyRequest`, with a cursor of the index "session". -/
def getOutgoingRoomKeyRequest (requestBody : RoomKeyRequestBody) :
    Option (OutgoingRoomKeyRequest RequestId) :=
  (s.outgoingRoomKeyRequests.records.filter fun req =>
    req.requestBody.room_id = requestBody.room_id &&
      req.requestBody.session_id = requestBody.session_id).find? fun existing =>
    deepCompare existing.requestBody requestBody

/-- `none` if the request cannot be added. -/
def getOrAddOutgoingRoomKeyRequest (request : OutgoingRoomKeyRequest RequestId) :
    Option (OutgoingRoomKeyRequest RequestId) × Backend RequestId SessionData :=
  match s.getOutgoingRoomKeyRequest request.requestBody with
  | some existing => (some existing, s)
  | none =>
    match s.outgoingRoomKeyRequests.add request with
    | none => (none, s)
    | some requests => (some request, { s with outgoingRoomKeyRequests := requests })

/-- The cursor of the index "state" on a state. -/
def stateCursor (wantedState : ℕ) : List (OutgoingRoomKeyRequest RequestId) :=
  s.outgoingRoomKeyRequests.records.filter fun req => req.state = wantedState

/-- It looks for the states one after the other. -/
def getOutgoingRoomKeyRequestByState : List ℕ → Option (OutgoingRoomKeyRequest RequestId)
  | [] => none
  | wantedState :: wantedStates =>
    match s.stateCursor wantedState with
    | req :: _ => some req
    | [] => getOutgoingRoomKeyRequestByState wantedStates

def getAllOutgoingRoomKeyRequestsByState (wantedState : ℕ) :
    List (OutgoingRoomKeyRequest RequestId) :=
  s.stateCursor wantedState

/-- Without a wanted state the cursor is one of all requests. -/
def getOutgoingRoomKeyRequestsByTarget (target : Recipient) (wantedStates : List ℕ) :
    List (OutgoingRoomKeyRequest RequestId) :=
  let cursors := if wantedStates = [] then [s.outgoingRoomKeyRequests.records]
    else wantedStates.map s.stateCursor
  cursors.flatMap fun cursor => cursor.filter fun keyReq => includesLiteral keyReq.recipients target

def updateOutgoingRoomKeyRequest (requestId : RequestId) (expectedState : ℕ)
    (updates : RequestUpdates) :
    Option (OutgoingRoomKeyRequest RequestId) × Backend RequestId SessionData :=
  match s.outgoingRoomKeyRequests.get requestId with
  | none => (none, s)
  | some data =>
    if data.state ≠ expectedState then (none, s)
    else (some (data.assign updates), { s with
      outgoingRoomKeyRequests := s.outgoingRoomKeyRequests.put (data.assign updates) })

def deleteOutgoingRoomKeyRequest (requestId : RequestId) (expectedState : ℕ) :
    Backend RequestId SessionData :=
  match s.outgoingRoomKeyRequests.get requestId with
  | none => s
  | some data =>
    if data.state ≠ expectedState then s
    else { s with outgoingRoomKeyRequests := s.outgoingRoomKeyRequests.delete requestId }

/-- A duplicate is ignored. -/
def addEndToEndInboundGroupSession (session : SessionKey) (sessionData : SessionData) :
    Backend RequestId SessionData :=
  match s.inboundGroupSessions.add (session, sessionData) with
  | none => s
  | some sessions => { s with inboundGroupSessions := sessions }

def storeEndToEndInboundGroupSession (session : SessionKey) (sessionData : SessionData) :
    Backend RequestId SessionData :=
  { s with inboundGroupSessions := s.inboundGroupSessions.put (session, sessionData) }

/-- The events of the transaction of `getSessionsNeedingBackup`. At each record the handler of the
cursor places the request for the session and then continues, so that the session is pushed after
the limit has been looked at, and before the next event of the cursor.

The handler of a request that finds no session throws, which aborts the transaction. Its error is
seen only if the cursor has continued; else the promise is not settled. -/
def backupCursor (limit : Option ℕ) : List SessionKey → List (BackupSession SessionData) →
    StoreResult RequestId SessionData
  | [], sessions => .sessions sessions
  | session :: rest, sessions =>
    let continues := unlimited limit || sessions.length < limit.getD 0
    match s.inboundGroupSessions.get session with
    | none => if continues then .rejected else .pending
    | some (session, sessionData) =>
      let sessions := sessions ++
        [⟨(ofLex session).1.1, (ofLex session).2, some sessionData⟩]
      if continues then backupCursor limit rest sessions else .sessions sessions

def getSessionsNeedingBackup (limit : Option ℕ) : StoreResult RequestId SessionData :=
  s.backupCursor limit s.sessionsNeedingBackup.records []

def countSessionsNeedingBackup : ℕ := s.sessionsNeedingBackup.records.length

def unmarkSessionsNeedingBackup (sessions : List SessionKey) : Backend RequestId SessionData :=
  { s with sessionsNeedingBackup := sessions.foldl ObjectStore.delete s.sessionsNeedingBackup }

def markSessionsNeedingBackup (sessions : List SessionKey) : Backend RequestId SessionData :=
  { s with sessionsNeedingBackup := sessions.foldl ObjectStore.put s.sessionsNeedingBackup }

/-- A call, with the store after it. -/
def call : StoreCall RequestId SessionData →
    StoreResult RequestId SessionData × Backend RequestId SessionData
  | .getOrAddOutgoingRoomKeyRequest request =>
    match s.getOrAddOutgoingRoomKeyRequest request with
    | (none, s) => (.rejected, s)
    | (some request, s) => (.request (some request), s)
  | .getOutgoingRoomKeyRequest requestBody =>
    (.request (s.getOutgoingRoomKeyRequest requestBody), s)
  | .getOutgoingRoomKeyRequestByState wantedStates =>
    (.request (s.getOutgoingRoomKeyRequestByState wantedStates), s)
  | .getAllOutgoingRoomKeyRequestsByState wantedState =>
    (.requests (s.getAllOutgoingRoomKeyRequestsByState wantedState), s)
  | .getOutgoingRoomKeyRequestsByTarget target wantedStates =>
    (.requests (s.getOutgoingRoomKeyRequestsByTarget target wantedStates), s)
  | .updateOutgoingRoomKeyRequest requestId expectedState updates =>
    let (result, s) := s.updateOutgoingRoomKeyRequest requestId expectedState updates
    (.request result, s)
  | .deleteOutgoingRoomKeyRequest requestId expectedState =>
    (.done, s.deleteOutgoingRoomKeyRequest requestId expectedState)
  | .addEndToEndInboundGroupSession session sessionData =>
    (.done, s.addEndToEndInboundGroupSession session sessionData)
  | .storeEndToEndInboundGroupSession session sessionData =>
    (.done, s.storeEndToEndInboundGroupSession session sessionData)
  | .markSessionsNeedingBackup sessions => (.done, s.markSessionsNeedingBackup sessions)
  | .unmarkSessionsNeedingBackup sessions => (.done, s.unmarkSessionsNeedingBackup sessions)
  | .countSessionsNeedingBackup => (.count s.countSessionsNeedingBackup, s)
  | .getSessionsNeedingBackup limit => (s.getSessionsNeedingBackup limit, s)

end Backend

/-! ## What a store is to return -/

section Reference

variable {RequestId SessionData : Type} [DecidableEq RequestId]

/-- The request that a call adds. -/
def StoreCall.added : StoreCall RequestId SessionData → Option (OutgoingRoomKeyRequest RequestId)
  | .getOrAddOutgoingRoomKeyRequest request => some request
  | _ => none

/-- The call is one about requests. -/
def StoreCall.ofRequests : StoreCall RequestId SessionData → Bool
  | .getOrAddOutgoingRoomKeyRequest _ | .getOutgoingRoomKeyRequest _
  | .getOutgoingRoomKeyRequestByState _ | .getAllOutgoingRoomKeyRequestsByState _
  | .getOutgoingRoomKeyRequestsByTarget _ _ | .updateOutgoingRoomKeyRequest _ _ _
  | .deleteOutgoingRoomKeyRequest _ _ => true
  | _ => false

/-- The calls add requests with unique ids: a request id belongs to one body. -/
def UniqueIds (calls : List (StoreCall RequestId SessionData)) : Prop :=
  ∀ r ∈ calls.filterMap StoreCall.added, ∀ r' ∈ calls.filterMap StoreCall.added,
    r.requestId = r'.requestId → r.requestBody = r'.requestBody

/-- A request id belongs to one body. -/
def OneBody (pool : List (OutgoingRoomKeyRequest RequestId)) : Prop :=
  ∀ r ∈ pool, ∀ r' ∈ pool, r.requestId = r'.requestId → r.requestBody = r'.requestBody

/-- **The reference store.** The sessions that need to be backed up are in the order in which they
have been marked, which no call shows. -/
structure ReferenceStore (RequestId SessionData : Type) where
  requests : Finset (OutgoingRoomKeyRequest RequestId)
  sessions : SessionKey → Option SessionData
  needingBackup : List SessionKey

namespace ReferenceStore

def new : ReferenceStore RequestId SessionData := ⟨∅, fun _ => none, []⟩

variable (m : ReferenceStore RequestId SessionData) {c : StoreCall RequestId SessionData}

/-- The reference store after a call. -/
def after : StoreCall RequestId SessionData → ReferenceStore RequestId SessionData
  | .getOrAddOutgoingRoomKeyRequest request =>
    if ∃ r ∈ m.requests, r.requestBody = request.requestBody then m
    else { m with requests := insert request m.requests }
  | .updateOutgoingRoomKeyRequest requestId expectedState updates =>
    { m with
      requests := m.requests.image fun r =>
        if r.requestId = requestId ∧ r.state = expectedState then r.assign updates else r }
  | .deleteOutgoingRoomKeyRequest requestId expectedState =>
    { m with
      requests := m.requests.filter fun r => ¬ (r.requestId = requestId ∧ r.state = expectedState) }
  | .addEndToEndInboundGroupSession session sessionData =>
    { m with
      sessions := Function.update m.sessions session (m.sessions session <|> some sessionData) }
  | .storeEndToEndInboundGroupSession session sessionData =>
    { m with sessions := Function.update m.sessions session (some sessionData) }
  | .markSessionsNeedingBackup sessions =>
    { m with
      needingBackup := sessions.foldl (fun marked session =>
        if session ∈ marked then marked else marked ++ [session]) m.needingBackup }
  | .unmarkSessionsNeedingBackup sessions =>
    { m with needingBackup := m.needingBackup.filter fun session => session ∉ sessions }
  | _ => m

/-- The result is a request with the property, if there is one. -/
def Finds (p : OutgoingRoomKeyRequest RequestId → Prop)
    (result : StoreResult RequestId SessionData) : Prop :=
  (∃ r ∈ m.requests, p r ∧ result = .request (some r)) ∨
    (∀ r ∈ m.requests, ¬ p r) ∧ result = .request none

/-- The result is a list of the requests with the property, each one once. -/
def Lists (p : OutgoingRoomKeyRequest RequestId → Prop)
    (result : StoreResult RequestId SessionData) : Prop :=
  ∃ l, result = .requests l ∧ l.Nodup ∧ ∀ r, r ∈ l ↔ r ∈ m.requests ∧ p r

/-- A session as it is backed up, if it exists. -/
def backupSession (session : SessionKey) : Option (BackupSession SessionData) :=
  (m.sessions session).map fun sessionData =>
    ⟨(ofLex session).1.1, (ofLex session).2, some sessionData⟩

/-- The sessions to be backed up that exist. -/
def toBackUp : List (BackupSession SessionData) := m.needingBackup.filterMap m.backupSession

/-- **What a call may return.** -/
def Allows (result : StoreResult RequestId SessionData) :
    StoreCall RequestId SessionData → Prop
  | .getOrAddOutgoingRoomKeyRequest request =>
    (∃ r ∈ m.requests, r.requestBody = request.requestBody ∧ result = .request (some r)) ∨
      (∀ r ∈ m.requests, r.requestBody ≠ request.requestBody) ∧ result = .request (some request)
  | .getOutgoingRoomKeyRequest requestBody => m.Finds (fun r => r.requestBody = requestBody) result
  | .getOutgoingRoomKeyRequestByState wantedStates =>
    m.Finds (fun r => r.state ∈ wantedStates) result
  | .getAllOutgoingRoomKeyRequestsByState wantedState =>
    m.Lists (fun r => r.state = wantedState) result
  | .getOutgoingRoomKeyRequestsByTarget target wantedStates =>
    m.Lists (fun r => r.state ∈ wantedStates ∧ target ∈ r.recipients) result
  | .updateOutgoingRoomKeyRequest requestId expectedState updates =>
    (∃ r ∈ m.requests, (r.requestId = requestId ∧ r.state = expectedState) ∧
      result = .request (some (r.assign updates))) ∨
      (∀ r ∈ m.requests, ¬ (r.requestId = requestId ∧ r.state = expectedState)) ∧
        result = .request none
  | .countSessionsNeedingBackup => result = .count m.needingBackup.length
  | .getSessionsNeedingBackup limit =>
    ∃ l, result = .sessions l ∧ l.Nodup ∧ l ⊆ m.toBackUp ∧
      l.length = if unlimited limit then m.toBackUp.length
        else min m.toBackUp.length (limit.getD 0)
  | _ => result = .done

/-- **The calls of a store return what the reference store allows.** -/
def Refined {σ : Type} (call : σ → StoreCall RequestId SessionData →
    StoreResult RequestId SessionData × σ) :
    σ → ReferenceStore RequestId SessionData → List (StoreCall RequestId SessionData) → Prop
  | _, _, [] => True
  | s, m, c :: calls =>
    m.Allows (call s c).1 c ∧ Refined call (call s c).2 (m.after c) calls

/-- No request is looked for by a target that it has. When sessions are to be backed up they all
exist, and there are no more than the limit; and the keys of all but the last one are shorter than
the limit. -/
def HarmlessCall : StoreCall RequestId SessionData → Prop
  | .getOutgoingRoomKeyRequestsByTarget target wantedStates =>
    ∀ r ∈ m.requests, r.state ∈ wantedStates → target ∉ r.recipients
  | .getSessionsNeedingBackup limit =>
    (∀ session ∈ m.needingBackup, (m.sessions session).isSome) ∧
      (unlimited limit = false → m.needingBackup.length ≤ limit.getD 0) ∧
      ∀ session ∈ m.needingBackup.dropLast, limitReached limit (sessionKey session) = false
  | _ => True

/-- What the cursors of IndexedDB need for that: the keys of the sessions do not matter. -/
def HarmlessCursor : StoreCall RequestId SessionData → Prop
  | .getOutgoingRoomKeyRequestsByTarget target wantedStates =>
    ∀ r ∈ m.requests, r.state ∈ wantedStates → target ∉ r.recipients
  | .getSessionsNeedingBackup limit =>
    (∀ session ∈ m.needingBackup, (m.sessions session).isSome) ∧
      (unlimited limit = false → m.needingBackup.length ≤ limit.getD 0)
  | _ => True

omit [DecidableEq RequestId] in
theorem HarmlessCall.cursor {m : ReferenceStore RequestId SessionData} (h : m.HarmlessCall c) :
    m.HarmlessCursor c := by
  cases c with
  | getOutgoingRoomKeyRequestsByTarget target wantedStates => exact h
  | getSessionsNeedingBackup limit => exact ⟨h.1, h.2.1⟩
  | _ => trivial

/-- All calls are harmless. -/
def Harmless : ReferenceStore RequestId SessionData → List (StoreCall RequestId SessionData) → Prop
  | _, [] => True
  | m, c :: calls => m.HarmlessCall c ∧ Harmless (m.after c) calls

/-! ## Ids in the reference store -/

/-- The requests are such as have been added, and their ids are different; no session is marked
twice. -/
structure Wf (pool : List (OutgoingRoomKeyRequest RequestId)) : Prop where
  fromPool : ∀ r ∈ m.requests, ∃ r' ∈ pool,
    r'.requestId = r.requestId ∧ r'.requestBody = r.requestBody
  unique : ∀ r ∈ m.requests, ∀ r' ∈ m.requests, r.requestId = r'.requestId → r = r'
  nodup : m.needingBackup.Nodup

variable {m} {request : OutgoingRoomKeyRequest RequestId}

omit [DecidableEq RequestId] in
theorem assign_requestId (r : OutgoingRoomKeyRequest RequestId) (updates : RequestUpdates) :
    (r.assign updates).requestId = r.requestId := rfl

theorem requests_insert (hnone : ∀ r ∈ m.requests, r.requestBody ≠ request.requestBody) :
    m.after (.getOrAddOutgoingRoomKeyRequest request) =
      { m with requests := insert request m.requests } := by
  simp only [after]
  rw [if_neg]
  rintro ⟨r, hr, hbody⟩
  exact hnone r hr hbody

theorem requests_exists {r : OutgoingRoomKeyRequest RequestId} (hr : r ∈ m.requests)
    (hbody : r.requestBody = request.requestBody) :
    m.after (.getOrAddOutgoingRoomKeyRequest request) = m := by
  simp only [after]
  rw [if_pos ⟨r, hr, hbody⟩]

section

omit [DecidableEq RequestId]

/-- With unique ids a new body comes with a new id. -/
theorem Wf.new_id {pool : List (OutgoingRoomKeyRequest RequestId)} (hwf : m.Wf pool)
    (hunique : OneBody pool) (hpool : request ∈ pool)
    (hnone : ∀ r ∈ m.requests, r.requestBody ≠ request.requestBody)
    {r : OutgoingRoomKeyRequest RequestId} (hr : r ∈ m.requests) :
    r.requestId ≠ request.requestId := by
  intro hid
  obtain ⟨r', hr', hid', hbody'⟩ := hwf.fromPool r hr
  apply hnone r hr
  rw [← hbody']
  exact hunique r' hr' request hpool (hid'.trans hid)

theorem nodup_mark {marked : List SessionKey} (sessions : List SessionKey)
    (hnodup : marked.Nodup) :
    (sessions.foldl (fun marked session => if session ∈ marked then marked
      else marked ++ [session]) marked).Nodup := by
  induction sessions generalizing marked with
  | nil => exact hnodup
  | cons session sessions ih =>
    rw [List.foldl_cons]
    apply ih
    split
    · exact hnodup
    · next hnew => exact hnodup.append (List.nodup_singleton session) (by simpa using hnew)

theorem mem_mark {marked : List SessionKey} {sessions : List SessionKey} {session : SessionKey} :
    session ∈ sessions.foldl (fun marked session => if session ∈ marked then marked
      else marked ++ [session]) marked ↔ session ∈ marked ∨ session ∈ sessions := by
  induction sessions generalizing marked with
  | nil => simp
  | cons other sessions ih =>
    rw [List.foldl_cons, ih, List.mem_cons, ← or_assoc]
    refine or_congr_left ?_
    split
    · next hmem =>
        constructor
        · exact Or.inl
        · rintro (h | rfl)
          · exact h
          · exact hmem
    · rw [List.mem_append, List.mem_singleton]

end

/-- A call keeps the ids different. -/
theorem Wf.after {pool : List (OutgoingRoomKeyRequest RequestId)} (hwf : m.Wf pool)
    (hunique : OneBody pool) (hpool : ∀ r ∈ c.added, r ∈ pool) : (m.after c).Wf pool := by
  cases c with
  | getOrAddOutgoingRoomKeyRequest request =>
    have hrequest : request ∈ pool := hpool request rfl
    by_cases hex : ∃ r ∈ m.requests, r.requestBody = request.requestBody
    · obtain ⟨r, hr, hbody⟩ := hex
      rw [requests_exists hr hbody]
      exact hwf
    · have hnone : ∀ r ∈ m.requests, r.requestBody ≠ request.requestBody := by
        intro r hr hbody
        exact hex ⟨r, hr, hbody⟩
      have hnew := fun r hr => hwf.new_id hunique hrequest hnone (r := r) hr
      rw [requests_insert hnone]
      refine ⟨?_, ?_, hwf.nodup⟩
      · intro r hr
        rcases Finset.mem_insert.1 hr with rfl | hr
        · exact ⟨r, hrequest, rfl, rfl⟩
        · exact hwf.fromPool r hr
      · intro r hr r' hr' hid
        rcases Finset.mem_insert.1 hr with heq | hr <;>
          rcases Finset.mem_insert.1 hr' with heq' | hr'
        · rw [heq, heq']
        · exact absurd (heq ▸ hid.symm) (hnew r' hr')
        · exact absurd (heq' ▸ hid) (hnew r hr)
        · exact hwf.unique r hr r' hr' hid
  | updateOutgoingRoomKeyRequest requestId expectedState updates =>
    refine ⟨?_, ?_, hwf.nodup⟩
    · intro r hr
      obtain ⟨old, hold, rfl⟩ := Finset.mem_image.1 hr
      obtain ⟨r', hr', hid, hbody⟩ := hwf.fromPool old hold
      refine ⟨r', hr', ?_⟩
      split
      · exact ⟨hid, hbody⟩
      · exact ⟨hid, hbody⟩
    · intro r hr r' hr' hid
      obtain ⟨old, hold, rfl⟩ := Finset.mem_image.1 hr
      obtain ⟨old', hold', rfl⟩ := Finset.mem_image.1 hr'
      have hids : old.requestId = old'.requestId := by
        rw [apply_ite OutgoingRoomKeyRequest.requestId, apply_ite
          OutgoingRoomKeyRequest.requestId] at hid
        simpa only [assign_requestId, ite_self] using hid
      rw [hwf.unique old hold old' hold' hids]
  | deleteOutgoingRoomKeyRequest requestId expectedState =>
    refine ⟨?_, ?_, hwf.nodup⟩
    · exact fun r hr => hwf.fromPool r (Finset.mem_filter.1 hr).1
    · exact fun r hr r' hr' => hwf.unique r (Finset.mem_filter.1 hr).1 r'
        (Finset.mem_filter.1 hr').1
  | markSessionsNeedingBackup sessions =>
    exact ⟨hwf.fromPool, hwf.unique, nodup_mark sessions hwf.nodup⟩
  | unmarkSessionsNeedingBackup sessions =>
    exact ⟨hwf.fromPool, hwf.unique, hwf.nodup.filter _⟩
  | _ => exact ⟨hwf.fromPool, hwf.unique, hwf.nodup⟩

/-! ## Results of a loop over the requests -/

variable {l : List (OutgoingRoomKeyRequest RequestId)}
  {p : OutgoingRoomKeyRequest RequestId → Prop} {q : OutgoingRoomKeyRequest RequestId → Bool}

section

omit [DecidableEq RequestId]

/-- The first request that passes the test is allowed, whichever the order. -/
theorem finds_find? (hmem : ∀ r, r ∈ l ∧ q r = true ↔ r ∈ m.requests ∧ p r) :
    m.Finds p (.request (l.find? q)) := by
  cases hfind : l.find? q with
  | none =>
    right
    refine ⟨fun r hr hp => ?_, rfl⟩
    have hr' := (hmem r).2 ⟨hr, hp⟩
    exact List.find?_eq_none.1 hfind r hr'.1 hr'.2
  | some r =>
    left
    have hr := (hmem r).1 ⟨List.mem_of_find?_eq_some hfind, List.find?_some hfind⟩
    exact ⟨r, hr.1, hr.2, rfl⟩

theorem lists_filter (hnodup : l.Nodup) (hmem : ∀ r, r ∈ l ∧ q r = true ↔ r ∈ m.requests ∧ p r) :
    m.Lists p (.requests (l.filter q)) :=
  ⟨l.filter q, rfl, hnodup.filter q, fun r => by rw [List.mem_filter, hmem]⟩

/-- The empty list is right if there is nothing to list. -/
theorem lists_nil : m.Lists p (.requests []) ↔ ∀ r ∈ m.requests, ¬ p r := by
  constructor
  · rintro ⟨l, hl, -, hmem⟩ r hr hp
    obtain rfl := StoreResult.requests.inj hl
    exact List.not_mem_nil ((hmem r).2 ⟨hr, hp⟩)
  · intro h
    exact ⟨[], rfl, .nil, fun r => by simpa using h r⟩

end

end ReferenceStore

theorem includesLiteral_eq (recipients : List Recipient) (target : Recipient) :
    includesLiteral recipients target = false := by
  simp [includesLiteral]

/-! ## The requests in memory -/

namespace MemoryCryptoStore

open ReferenceStore

variable {s : MemoryCryptoStore RequestId SessionData} {m : ReferenceStore RequestId SessionData}
  {l : List (OutgoingRoomKeyRequest RequestId)} {c : StoreCall RequestId SessionData}

/-- The requests of the store are those of the reference store. -/
structure HoldsRequests (s : MemoryCryptoStore RequestId SessionData)
    (m : ReferenceStore RequestId SessionData) : Prop where
  mem : ∀ r, r ∈ s.outgoingRoomKeyRequests ↔ r ∈ m.requests
  nodup : (s.outgoingRoomKeyRequests.map OutgoingRoomKeyRequest.requestId).Nodup

/-- The loop of an update finds the request and changes it in place. -/
theorem updateLoop_eq (requestId : RequestId) (expectedState : ℕ) (updates : RequestUpdates)
    (hnodup : (l.map OutgoingRoomKeyRequest.requestId).Nodup) :
    updateLoop requestId expectedState updates l =
      ((l.find? fun r => r.requestId = requestId ∧ r.state = expectedState).map
          (OutgoingRoomKeyRequest.assign · updates),
        l.map fun r => if r.requestId = requestId ∧ r.state = expectedState then r.assign updates
          else r) := by
  induction l with
  | nil => rfl
  | cons req rest ih =>
    rw [List.map_cons, List.nodup_cons] at hnodup
    rw [updateLoop, ih hnodup.2]
    by_cases hid : req.requestId = requestId
    · -- no later request has the id
      have hlater : ∀ r ∈ rest, ¬ (r.requestId = requestId ∧ r.state = expectedState) := by
        rintro r hr ⟨hr', -⟩
        exact hnodup.1 (List.mem_map.2 ⟨r, hr, hr'.trans hid.symm⟩)
      have hmap : (rest.map fun r => if r.requestId = requestId ∧ r.state = expectedState
          then r.assign updates else r) = rest :=
        (List.map_congr_left fun r hr => if_neg (hlater r hr)).trans (List.map_id' rest)
      have hfind : (rest.find? fun r =>
          decide (r.requestId = requestId ∧ r.state = expectedState)) = none := by
        simpa using hlater
      by_cases hstate : req.state = expectedState
      · simp [hid, hstate, hmap]
      · rw [if_neg (not_not.2 hid), if_pos hstate, List.find?_cons_of_neg (by simp [hstate]),
          hfind, List.map_cons, if_neg fun hcontra => hstate hcontra.2, hmap]
        rfl
    · simp [hid]

/-- The loop of a deletion leaves out the request. -/
theorem deleteLoop_eq (requestId : RequestId) (expectedState : ℕ)
    (hnodup : (l.map OutgoingRoomKeyRequest.requestId).Nodup) :
    (deleteLoop requestId expectedState l).2 =
      l.filter fun r => ¬ (r.requestId = requestId ∧ r.state = expectedState) := by
  induction l with
  | nil => rfl
  | cons req rest ih =>
    rw [List.map_cons, List.nodup_cons] at hnodup
    rw [deleteLoop]
    by_cases hid : req.requestId = requestId
    · have hfilter : rest.filter (fun r =>
          ¬ (r.requestId = requestId ∧ r.state = expectedState)) = rest := by
        rw [List.filter_eq_self]
        intro r hr
        have hne : r.requestId ≠ requestId := fun hr' =>
          hnodup.1 (List.mem_map.2 ⟨r, hr, hr'.trans hid.symm⟩)
        simp [hne]
      by_cases hstate : req.state = expectedState
      · rw [if_neg (not_not.2 hid), if_neg (not_not.2 hstate),
          List.filter_cons_of_neg (by simp [hid, hstate]), hfilter]
      · rw [if_neg (not_not.2 hid), if_pos hstate,
          List.filter_cons_of_pos (by simp [hstate]), hfilter]
    · simp [hid, ih hnodup.2]

theorem HoldsRequests.getOrAdd (h : s.HoldsRequests m)
    {request : OutgoingRoomKeyRequest RequestId}
    (hnew : (∀ r ∈ m.requests, r.requestBody ≠ request.requestBody) →
      ∀ r ∈ m.requests, r.requestId ≠ request.requestId) :
    m.Allows (s.call (.getOrAddOutgoingRoomKeyRequest request)).1
        (.getOrAddOutgoingRoomKeyRequest request) ∧
      (s.call (.getOrAddOutgoingRoomKeyRequest request)).2.HoldsRequests
        (m.after (.getOrAddOutgoingRoomKeyRequest request)) := by
  have hfinds : m.Finds (fun r => r.requestBody = request.requestBody)
      (.request (s.getOutgoingRoomKeyRequest request.requestBody)) :=
    finds_find? fun r => by simp [h.mem, deepCompare]
  simp only [call, getOrAddOutgoingRoomKeyRequest]
  rcases hfinds with ⟨r, hr, hbody, hresult⟩ | ⟨hnone, hresult⟩
  · rw [StoreResult.request.inj hresult, requests_exists hr hbody]
    exact ⟨.inl ⟨r, hr, hbody, rfl⟩, h⟩
  · rw [StoreResult.request.inj hresult, requests_insert hnone]
    refine ⟨.inr ⟨hnone, rfl⟩, fun r => ?_, ?_⟩
    · simp [h.mem, or_comm]
    · rw [List.map_append, List.map_singleton, List.nodup_append]
      refine ⟨h.nodup, List.nodup_singleton _, ?_⟩
      rintro id hid _ hid' rfl
      obtain ⟨r, hr, rfl⟩ := List.mem_map.1 hid
      exact hnew hnone r ((h.mem r).1 hr) (List.mem_singleton.1 hid')

theorem HoldsRequests.update (h : s.HoldsRequests m) (requestId : RequestId) (expectedState : ℕ)
    (updates : RequestUpdates) :
    m.Allows (s.call (.updateOutgoingRoomKeyRequest requestId expectedState updates)).1
        (.updateOutgoingRoomKeyRequest requestId expectedState updates) ∧
      (s.call (.updateOutgoingRoomKeyRequest requestId expectedState updates)).2.HoldsRequests
        (m.after (.updateOutgoingRoomKeyRequest requestId expectedState updates)) := by
  have hfinds : m.Finds
      (fun r => r.requestId = requestId ∧ r.state = expectedState) (.request
        (s.outgoingRoomKeyRequests.find? fun r => r.requestId = requestId ∧
          r.state = expectedState)) :=
    finds_find? fun r => by simp [h.mem]
  simp only [call, updateOutgoingRoomKeyRequest, updateLoop_eq requestId expectedState updates
    h.nodup]
  refine ⟨?_, fun r => ?_, ?_⟩
  · rcases hfinds with ⟨r, hr, hp, hresult⟩ | ⟨hnone, hresult⟩
    · rw [StoreResult.request.inj hresult]
      exact .inl ⟨r, hr, hp, rfl⟩
    · rw [StoreResult.request.inj hresult]
      exact .inr ⟨hnone, rfl⟩
  · simp only [ReferenceStore.after, List.mem_map, Finset.mem_image, h.mem]
  · have hids : ((fun r : OutgoingRoomKeyRequest RequestId => r.requestId) ∘ fun r =>
        if r.requestId = requestId ∧ r.state = expectedState then r.assign updates else r) =
        fun r => r.requestId := by
      funext r
      simp only [Function.comp_apply, apply_ite OutgoingRoomKeyRequest.requestId,
        assign_requestId, ite_self]
    rw [List.map_map, hids]
    exact h.nodup

theorem HoldsRequests.delete (h : s.HoldsRequests m) (requestId : RequestId)
    (expectedState : ℕ) :
    (s.call (.deleteOutgoingRoomKeyRequest requestId expectedState)).2.HoldsRequests
      (m.after (.deleteOutgoingRoomKeyRequest requestId expectedState)) := by
  simp only [call, deleteOutgoingRoomKeyRequest]
  rw [deleteLoop_eq requestId expectedState h.nodup]
  constructor
  · intro r
    simp only [ReferenceStore.after, List.mem_filter, Finset.mem_filter, h.mem, decide_eq_true_eq]
  · exact h.nodup.sublist (List.filter_sublist.map _)

omit [DecidableEq RequestId] in
/-- No request is found by a target. -/
theorem getOutgoingRoomKeyRequestsByTarget_eq (target : Recipient) (wantedStates : List ℕ) :
    s.getOutgoingRoomKeyRequestsByTarget target wantedStates = [] := by
  simp [getOutgoingRoomKeyRequestsByTarget, includesLiteral_eq]

/-- A call about requests returns what is allowed if it is harmless. -/
theorem HoldsRequests.call (h : s.HoldsRequests m) {pool : List (OutgoingRoomKeyRequest RequestId)}
    (hwf : m.Wf pool) (hunique : OneBody pool) (hpool : ∀ r ∈ c.added, r ∈ pool) (hc : c.ofRequests = true) :
    (m.Allows (s.call c).1 c ↔ m.HarmlessCall c) ∧ (s.call c).2.HoldsRequests (m.after c) := by
  have hnodup : s.outgoingRoomKeyRequests.Nodup := h.nodup.of_map
  cases c with
  | getOrAddOutgoingRoomKeyRequest request =>
    have hcall := h.getOrAdd fun hnone r hr => hwf.new_id hunique (hpool request rfl) hnone hr
    exact ⟨iff_of_true hcall.1 trivial, hcall.2⟩
  | getOutgoingRoomKeyRequest requestBody =>
    have hfinds : m.Finds (fun r => r.requestBody = requestBody)
        (.request (s.getOutgoingRoomKeyRequest requestBody)) :=
      finds_find? fun r => by simp [h.mem, deepCompare]
    exact ⟨iff_of_true hfinds trivial, h⟩
  | getOutgoingRoomKeyRequestByState wantedStates =>
    have hfinds : m.Finds (fun r => r.state ∈ wantedStates)
        (.request (s.getOutgoingRoomKeyRequestByState wantedStates)) :=
      finds_find? fun r => by simp [h.mem]
    exact ⟨iff_of_true hfinds trivial, h⟩
  | getAllOutgoingRoomKeyRequestsByState wantedState =>
    have hlists : m.Lists (fun r => r.state = wantedState)
        (.requests (s.getAllOutgoingRoomKeyRequestsByState wantedState)) :=
      lists_filter hnodup fun r => by simp [h.mem]
    exact ⟨iff_of_true hlists trivial, h⟩
  | getOutgoingRoomKeyRequestsByTarget target wantedStates =>
    refine ⟨?_, h⟩
    show m.Lists _ (.requests _) ↔ _
    rw [getOutgoingRoomKeyRequestsByTarget_eq, lists_nil]
    simp only [not_and, HarmlessCall]
  | updateOutgoingRoomKeyRequest requestId expectedState updates =>
    have hcall := h.update requestId expectedState updates
    exact ⟨iff_of_true hcall.1 trivial, hcall.2⟩
  | deleteOutgoingRoomKeyRequest requestId expectedState =>
    exact ⟨iff_of_true rfl trivial, h.delete requestId expectedState⟩
  | _ => exact absurd hc Bool.false_ne_true

/-- Other calls leave the requests as they are. -/
theorem HoldsRequests.of_sessions (h : s.HoldsRequests m) (hc : c.ofRequests = false) :
    s.HoldsRequests (m.after c) := by
  cases c with
  | getOrAddOutgoingRoomKeyRequest => exact absurd hc.symm Bool.false_ne_true
  | updateOutgoingRoomKeyRequest => exact absurd hc.symm Bool.false_ne_true
  | deleteOutgoingRoomKeyRequest => exact absurd hc.symm Bool.false_ne_true
  | _ => exact ⟨h.mem, h.nodup⟩

end MemoryCryptoStore

/-! ## The sessions to be backed up -/

theorem sessionKey_injective : Function.Injective sessionKey := by
  intro a b hab
  have hparts := List.append_inj hab (by rw [(ofLex a).1.2, (ofLex b).1.2])
  exact ofLex.injective (Prod.ext (Subtype.ext hparts.1) (List.cons.inj hparts.2).2)

theorem take_sessionKey (session : SessionKey) :
    (sessionKey session).take 43 = (ofLex session).1.1 := by
  rw [sessionKey, List.take_left' (ofLex session).1.2]

theorem drop_sessionKey (session : SessionKey) :
    (sessionKey session).drop 44 = (ofLex session).2 := by
  rw [sessionKey, List.drop_append, (ofLex session).1.2,
    List.drop_of_length_le (by rw [(ofLex session).1.2]; omega)]
  rfl

/-- What a loop gets that stops after the first element with the property. -/
def takeThrough {α : Type} (p : α → Bool) : List α → List α
  | [] => []
  | a :: l => a :: if p a then [] else takeThrough p l

theorem takeThrough_sublist {α : Type} (p : α → Bool) (l : List α) :
    (takeThrough p l).Sublist l := by
  induction l with
  | nil => exact .refl _
  | cons a l ih =>
    rw [takeThrough]
    split
    · exact (List.nil_sublist l).cons_cons a
    · exact ih.cons_cons a

/-- The loop gets all if none but the last element has the property. -/
theorem length_takeThrough_iff {α : Type} {p : α → Bool} {l : List α} :
    (takeThrough p l).length = l.length ↔ ∀ a ∈ l.dropLast, p a = false := by
  induction l with
  | nil => simp [takeThrough]
  | cons a l ih =>
    cases l with
    | nil => simp [takeThrough]
    | cons b l =>
      rw [takeThrough, List.dropLast_cons_cons, List.forall_mem_cons, ← ih]
      by_cases hp : p a
      · simp [hp]
      · simp [hp]

namespace ReferenceStore

variable {m : ReferenceStore RequestId SessionData} {limit : Option ℕ}

section

omit [DecidableEq RequestId]

theorem backupSession_injective {a b : SessionKey} {x : BackupSession SessionData}
    (ha : m.backupSession a = some x) (hb : m.backupSession b = some x) : a = b := by
  obtain ⟨_, -, rfl⟩ := Option.map_eq_some_iff.1 ha
  obtain ⟨_, -, heq⟩ := Option.map_eq_some_iff.1 hb
  have hparts := BackupSession.mk.inj heq
  exact ofLex.injective (Prod.ext (Subtype.ext hparts.1.symm) hparts.2.1.symm)

theorem length_backUp {l : List SessionKey} (hall : ∀ session ∈ l, (m.sessions session).isSome) :
    (l.filterMap m.backupSession).length = l.length := by
  rw [List.filterMap_length_eq_length]
  intro session hsession
  rw [backupSession, Option.isSome_map]
  exact hall session hsession

/-- A list of sessions is right if it is complete, as long as they exist and are within the
limit. -/
theorem allows_backUp_iff (hall : ∀ session ∈ m.needingBackup, (m.sessions session).isSome)
    (hfew : unlimited limit = false → m.needingBackup.length ≤ limit.getD 0)
    {l : List SessionKey} (hnodup : l.Nodup) (hsub : l ⊆ m.needingBackup) :
    m.Allows (.sessions (l.filterMap m.backupSession)) (.getSessionsNeedingBackup limit) ↔
      l.length = m.needingBackup.length := by
  have hwanted : (if unlimited limit then m.toBackUp.length
      else min m.toBackUp.length (limit.getD 0)) = m.needingBackup.length := by
    rw [toBackUp, length_backUp hall]
    split
    · rfl
    · next hlimit => exact min_eq_left (hfew (by simpa using hlimit))
  rw [← length_backUp fun session hsession => hall session (hsub hsession), ← hwanted]
  constructor
  · rintro ⟨_, hl, -, -, hlength⟩
    rwa [StoreResult.sessions.inj hl]
  · intro hlength
    refine ⟨_, rfl, hnodup.filterMap fun a b x ha hb => backupSession_injective ha hb, ?_, hlength⟩
    intro x hx
    obtain ⟨session, hsession, hx⟩ := List.mem_filterMap.1 hx
    exact List.mem_filterMap.2 ⟨session, hsub hsession, hx⟩

end

end ReferenceStore

/-- The sessions and the keys of those marked are those of the reference store. -/
structure HoldsSessions (sessions : JsObject (List Char) SessionData)
    (needingBackup : JsObject (List Char) Unit) (m : ReferenceStore RequestId SessionData) :
    Prop where
  sessions : ∀ session, sessions.get (sessionKey session) = m.sessions session
  marked : needingBackup.keys = m.needingBackup.map sessionKey

namespace HoldsSessions

variable {sessions : JsObject (List Char) SessionData} {needingBackup : JsObject (List Char) Unit}
  {m : ReferenceStore RequestId SessionData}

theorem store (h : HoldsSessions sessions needingBackup m) (session : SessionKey)
    (sessionData : SessionData) :
    HoldsSessions (sessions.set (sessionKey session) sessionData) needingBackup
      (m.after (.storeEndToEndInboundGroupSession session sessionData)) := by
  refine ⟨fun other => ?_, h.marked⟩
  simp only [ReferenceStore.after]
  by_cases hother : other = session
  · rw [hother, JsObject.get_set_self, Function.update_self]
  · rw [JsObject.get_set_ne (sessionKey_injective.ne hother), Function.update_of_ne hother,
      h.sessions]

theorem add_new (h : HoldsSessions sessions needingBackup m) {session : SessionKey}
    (hget : sessions.get (sessionKey session) = none) (sessionData : SessionData) :
    HoldsSessions (sessions.set (sessionKey session) sessionData) needingBackup
      (m.after (.addEndToEndInboundGroupSession session sessionData)) := by
  have hafter : m.after (.addEndToEndInboundGroupSession session sessionData) =
      m.after (.storeEndToEndInboundGroupSession session sessionData) := by
    simp only [ReferenceStore.after]
    rw [← h.sessions, hget]
    rfl
  rw [hafter]
  exact h.store session sessionData

theorem add_old (h : HoldsSessions sessions needingBackup m) {session : SessionKey}
    {old : SessionData} (hget : sessions.get (sessionKey session) = some old)
    (sessionData : SessionData) :
    HoldsSessions sessions needingBackup
      (m.after (.addEndToEndInboundGroupSession session sessionData)) := by
  refine ⟨fun other => ?_, h.marked⟩
  simp only [ReferenceStore.after]
  by_cases hother : other = session
  · rw [hother, Function.update_self, ← h.sessions, hget]
    rfl
  · rw [Function.update_of_ne hother, h.sessions]

theorem mark (h : HoldsSessions sessions needingBackup m) (marked : List SessionKey) :
    HoldsSessions sessions (needingBackup.setAll (marked.map sessionKey) ())
      (m.after (.markSessionsNeedingBackup marked)) := by
  refine ⟨h.sessions, ?_⟩
  rw [JsObject.keys_setAll, h.marked]
  simp only [ReferenceStore.after]
  generalize m.needingBackup = l
  induction marked generalizing l with
  | nil => rfl
  | cons session marked ih =>
    rw [List.map_cons, List.foldl_cons, List.foldl_cons, ← ih]
    congr 1
    by_cases hmem : session ∈ l
    · rw [if_pos hmem, if_pos (List.mem_map_of_mem hmem)]
    · rw [if_neg hmem, if_neg fun hcontra => hmem ((List.mem_map_of_injective
        sessionKey_injective).1 hcontra), List.map_append, List.map_singleton]

theorem unmark (h : HoldsSessions sessions needingBackup m) (unmarked : List SessionKey) :
    HoldsSessions sessions (needingBackup.deleteAll (unmarked.map sessionKey))
      (m.after (.unmarkSessionsNeedingBackup unmarked)) := by
  refine ⟨h.sessions, ?_⟩
  rw [JsObject.keys_deleteAll, h.marked]
  simp only [ReferenceStore.after]
  rw [List.filter_map]
  refine congrArg (List.map sessionKey) (List.filter_congr fun session _ => ?_)
  simp [List.mem_map_of_injective sessionKey_injective]

/-- A call about requests leaves the sessions as they are. -/
theorem of_requests (h : HoldsSessions sessions needingBackup m)
    {c : StoreCall RequestId SessionData} (hc : c.ofRequests = true) :
    HoldsSessions sessions needingBackup (m.after c) := by
  cases c with
  | getOrAddOutgoingRoomKeyRequest request =>
    simp only [ReferenceStore.after]
    split
    · exact h
    · exact ⟨h.sessions, h.marked⟩
  | addEndToEndInboundGroupSession => exact absurd hc Bool.false_ne_true
  | storeEndToEndInboundGroupSession => exact absurd hc Bool.false_ne_true
  | markSessionsNeedingBackup => exact absurd hc Bool.false_ne_true
  | unmarkSessionsNeedingBackup => exact absurd hc Bool.false_ne_true
  | _ => exact ⟨h.sessions, h.marked⟩

omit [DecidableEq RequestId] in
/-- The loops of the two stores get all sessions if no key but the last one is too long. -/
theorem allows_iff (h : HoldsSessions sessions needingBackup m) {limit : Option ℕ}
    (hcursor : m.HarmlessCursor (.getSessionsNeedingBackup limit))
    {loop : List (List Char) → List (BackupSession SessionData)}
    (hloop : ∀ l : List SessionKey, (∀ session ∈ l, (m.sessions session).isSome) →
      loop (l.map sessionKey) = (takeThrough (fun session =>
        limitReached limit (sessionKey session)) l).filterMap m.backupSession) :
    m.Allows (.sessions (loop needingBackup.keys)) (.getSessionsNeedingBackup limit) ↔
      m.HarmlessCall (.getSessionsNeedingBackup limit) := by
  have hnodup : m.needingBackup.Nodup := by
    have hkeys := needingBackup.nodup
    rw [h.marked] at hkeys
    exact hkeys.of_map
  have hsub := takeThrough_sublist (fun session => limitReached limit (sessionKey session))
    m.needingBackup
  rw [h.marked, hloop m.needingBackup hcursor.1, ReferenceStore.allows_backUp_iff hcursor.1
    hcursor.2 (hnodup.sublist hsub) hsub.subset, length_takeThrough_iff]
  constructor
  · intro hshort
    exact ⟨hcursor.1, hcursor.2, hshort⟩
  · intro hharmless
    exact hharmless.2.2

end HoldsSessions

namespace MemoryCryptoStore

variable {s : MemoryCryptoStore RequestId SessionData} {m : ReferenceStore RequestId SessionData}

omit [DecidableEq RequestId] in
theorem backupLoop_eq (hsessions : ∀ session, s.inboundGroupSessions.get (sessionKey session) =
      m.sessions session) (limit : Option ℕ) {l : List SessionKey}
    (hall : ∀ session ∈ l, (m.sessions session).isSome) :
    s.backupLoop limit (l.map sessionKey) =
      (takeThrough (fun session => limitReached limit (sessionKey session)) l).filterMap
        m.backupSession := by
  induction l with
  | nil => rfl
  | cons session l ih =>
    rw [List.forall_mem_cons] at hall
    obtain ⟨sessionData, hdata⟩ := Option.isSome_iff_exists.1 hall.1
    have hbackup : m.backupSession session =
        some ⟨(ofLex session).1.1, (ofLex session).2, some sessionData⟩ := by
      rw [ReferenceStore.backupSession, hdata]
      rfl
    rw [List.map_cons, backupLoop, hsessions, hdata]
    simp only [take_sessionKey, drop_sessionKey]
    rw [takeThrough, List.filterMap_cons_some hbackup, ih hall.2]
    split
    · rfl
    · rfl

/-- The store has what the reference store has. -/
structure Holds (s : MemoryCryptoStore RequestId SessionData)
    (m : ReferenceStore RequestId SessionData) : Prop where
  requests : s.HoldsRequests m
  sessions : HoldsSessions s.inboundGroupSessions s.sessionsNeedingBackup m

omit [DecidableEq RequestId] in
theorem holds_new : (new : MemoryCryptoStore RequestId SessionData).Holds .new where
  requests := ⟨fun r => by simp [new, ReferenceStore.new], .nil⟩
  sessions := ⟨fun _ => rfl, rfl⟩

/-- **A call of the store in memory.** -/
theorem Holds.call (h : s.Holds m) {pool : List (OutgoingRoomKeyRequest RequestId)}
    (hwf : m.Wf pool) (hunique : OneBody pool) {c : StoreCall RequestId SessionData}
    (hpool : ∀ r ∈ c.added, r ∈ pool) :
    (m.HarmlessCursor c → (m.Allows (s.call c).1 c ↔ m.HarmlessCall c)) ∧
      (s.call c).2.Holds (m.after c) := by
  by_cases hc : c.ofRequests = true
  · have hcall := h.requests.call hwf hunique hpool hc
    have hsame : (s.call c).2.inboundGroupSessions = s.inboundGroupSessions ∧
        (s.call c).2.sessionsNeedingBackup = s.sessionsNeedingBackup := by
      cases c with
      | getOrAddOutgoingRoomKeyRequest request =>
        simp only [MemoryCryptoStore.call, getOrAddOutgoingRoomKeyRequest]
        split
        · exact ⟨rfl, rfl⟩
        · exact ⟨rfl, rfl⟩
      | _ => first | exact ⟨rfl, rfl⟩ | exact absurd hc Bool.false_ne_true
    refine ⟨fun _ => hcall.1, hcall.2, ?_⟩
    rw [hsame.1, hsame.2]
    exact h.sessions.of_requests hc
  · have hrequests := h.requests.of_sessions (Bool.eq_false_iff.2 hc)
    cases c with
    | addEndToEndInboundGroupSession session sessionData =>
      refine ⟨fun _ => iff_of_true rfl trivial, ?_⟩
      simp only [MemoryCryptoStore.call, addEndToEndInboundGroupSession]
      split
      · next hget => exact ⟨⟨hrequests.mem, hrequests.nodup⟩, h.sessions.add_new hget _⟩
      · next hget => exact ⟨hrequests, h.sessions.add_old hget _⟩
    | storeEndToEndInboundGroupSession session sessionData =>
      exact ⟨fun _ => iff_of_true rfl trivial, ⟨hrequests.mem, hrequests.nodup⟩,
        h.sessions.store session sessionData⟩
    | markSessionsNeedingBackup sessions =>
      exact ⟨fun _ => iff_of_true rfl trivial, ⟨hrequests.mem, hrequests.nodup⟩,
        h.sessions.mark sessions⟩
    | unmarkSessionsNeedingBackup sessions =>
      exact ⟨fun _ => iff_of_true rfl trivial, ⟨hrequests.mem, hrequests.nodup⟩,
        h.sessions.unmark sessions⟩
    | countSessionsNeedingBackup =>
      refine ⟨fun _ => iff_of_true ?_ trivial, h⟩
      show StoreResult.count _ = .count _
      rw [countSessionsNeedingBackup, h.sessions.marked, List.length_map]
    | getSessionsNeedingBackup limit =>
      exact ⟨fun hcursor => h.sessions.allows_iff hcursor fun l hall =>
        backupLoop_eq h.sessions.sessions limit hall, h⟩
    | _ => exact absurd rfl hc

end MemoryCryptoStore

namespace LocalStorageCryptoStore

variable {s : LocalStorageCryptoStore RequestId SessionData}
  {m : ReferenceStore RequestId SessionData} {c : StoreCall RequestId SessionData}

omit [DecidableEq RequestId] in
theorem backupLoop_eq (hsessions : ∀ session, s.inboundGroupSessions.get (sessionKey session) =
      m.sessions session) (limit : Option ℕ) {l : List SessionKey}
    (hall : ∀ session ∈ l, (m.sessions session).isSome) :
    s.backupLoop limit (l.map sessionKey) =
      (takeThrough (fun session => limitReached limit (sessionKey session)) l).filterMap
        m.backupSession := by
  induction l with
  | nil => rfl
  | cons session l ih =>
    rw [List.forall_mem_cons] at hall
    obtain ⟨sessionData, hdata⟩ := Option.isSome_iff_exists.1 hall.1
    have hbackup : m.backupSession session =
        some ⟨(ofLex session).1.1, (ofLex session).2, some sessionData⟩ := by
      rw [ReferenceStore.backupSession, hdata]
      rfl
    have hkey : (ofLex session).1.1 ++ '/' :: (ofLex session).2 = sessionKey session := rfl
    rw [List.map_cons, backupLoop]
    simp only [take_sessionKey, drop_sessionKey]
    rw [hkey, hsessions, hdata, takeThrough, List.filterMap_cons_some hbackup, ih hall.2]
    split
    · rfl
    · rfl

/-- The store has what the reference store has. -/
structure Holds (s : LocalStorageCryptoStore RequestId SessionData)
    (m : ReferenceStore RequestId SessionData) : Prop where
  requests : s.memory.HoldsRequests m
  sessions : HoldsSessions s.inboundGroupSessions s.needingBackupItem m

omit [DecidableEq RequestId] in
theorem holds_new : (new : LocalStorageCryptoStore RequestId SessionData).Holds .new where
  requests := MemoryCryptoStore.holds_new.requests
  sessions := ⟨fun _ => rfl, rfl⟩

/-- The calls about requests are inherited. -/
theorem call_of_requests (hc : c.ofRequests = true) :
    s.call c = ((s.memory.call c).1, { s with memory := (s.memory.call c).2 }) := by
  cases c with
  | addEndToEndInboundGroupSession => exact absurd hc Bool.false_ne_true
  | storeEndToEndInboundGroupSession => exact absurd hc Bool.false_ne_true
  | markSessionsNeedingBackup => exact absurd hc Bool.false_ne_true
  | unmarkSessionsNeedingBackup => exact absurd hc Bool.false_ne_true
  | countSessionsNeedingBackup => exact absurd hc Bool.false_ne_true
  | getSessionsNeedingBackup => exact absurd hc Bool.false_ne_true
  | _ => rfl

/-- **A call of the store in localStorage.** -/
theorem Holds.call (h : s.Holds m) {pool : List (OutgoingRoomKeyRequest RequestId)}
    (hwf : m.Wf pool) (hunique : OneBody pool) (hpool : ∀ r ∈ c.added, r ∈ pool) :
    (m.HarmlessCursor c → (m.Allows (s.call c).1 c ↔ m.HarmlessCall c)) ∧
      (s.call c).2.Holds (m.after c) := by
  by_cases hc : c.ofRequests = true
  · have hcall := h.requests.call hwf hunique hpool hc
    rw [call_of_requests hc]
    exact ⟨fun _ => hcall.1, hcall.2, h.sessions.of_requests hc⟩
  · have hrequests := h.requests.of_sessions (Bool.eq_false_iff.2 hc)
    cases c with
    | addEndToEndInboundGroupSession session sessionData =>
      refine ⟨fun _ => iff_of_true rfl trivial, ?_⟩
      simp only [LocalStorageCryptoStore.call, addEndToEndInboundGroupSession]
      split
      · next hget => exact ⟨hrequests, h.sessions.add_new hget _⟩
      · next hget => exact ⟨hrequests, h.sessions.add_old hget _⟩
    | storeEndToEndInboundGroupSession session sessionData =>
      exact ⟨fun _ => iff_of_true rfl trivial, hrequests, h.sessions.store session sessionData⟩
    | markSessionsNeedingBackup sessions =>
      exact ⟨fun _ => iff_of_true rfl trivial, hrequests, h.sessions.mark sessions⟩
    | unmarkSessionsNeedingBackup sessions =>
      exact ⟨fun _ => iff_of_true rfl trivial, hrequests, h.sessions.unmark sessions⟩
    | countSessionsNeedingBackup =>
      refine ⟨fun _ => iff_of_true ?_ trivial, h⟩
      show StoreResult.count _ = .count _
      rw [countSessionsNeedingBackup, h.sessions.marked, List.length_map]
    | getSessionsNeedingBackup limit =>
      exact ⟨fun hcursor => h.sessions.allows_iff hcursor fun l hall =>
        backupLoop_eq h.sessions.sessions limit hall, h⟩
    | _ => exact absurd rfl hc

end LocalStorageCryptoStore

end Reference

/-! ## The cursors of IndexedDB -/

namespace Backend

open ReferenceStore

variable {RequestId SessionData : Type} [LinearOrder RequestId]
  {s : Backend RequestId SessionData} {m : ReferenceStore RequestId SessionData}

/-- The database has what the reference store has. -/
structure Holds (s : Backend RequestId SessionData) (m : ReferenceStore RequestId SessionData) :
    Prop where
  requests : ∀ r, r ∈ s.outgoingRoomKeyRequests ↔ r ∈ m.requests
  sessions : ∀ session, s.inboundGroupSessions.get session =
    (m.sessions session).map fun sessionData => (session, sessionData)
  marked : ∀ session, session ∈ s.sessionsNeedingBackup ↔ session ∈ m.needingBackup

theorem holds_new : (new : Backend RequestId SessionData).Holds .new where
  requests r := iff_of_false (ObjectStore.not_mem_empty r) (Finset.notMem_empty r)
  sessions _ := rfl
  marked session := iff_of_false (ObjectStore.not_mem_empty session) List.not_mem_nil

/-! The cursor of the sessions. -/

section Cursor

variable {limit : Option ℕ} {l : List SessionKey} {sessions : List (BackupSession SessionData)}

theorem Holds.get_backup (h : s.Holds m) {session : SessionKey} {sessionData : SessionData}
    (hdata : m.sessions session = some sessionData) :
    s.inboundGroupSessions.get session = some (session, sessionData) ∧
      m.backupSession session =
        some ⟨(ofLex session).1.1, (ofLex session).2, some sessionData⟩ := by
  rw [h.sessions, hdata, backupSession, hdata]
  exact ⟨rfl, rfl⟩

/-- Within the limit the cursor gets all sessions. -/
theorem Holds.backupCursor_all (h : s.Holds m)
    (hall : ∀ session ∈ l, (m.sessions session).isSome)
    (hfew : unlimited limit = false → sessions.length + l.length ≤ limit.getD 0) :
    s.backupCursor limit l sessions = .sessions (sessions ++ l.filterMap m.backupSession) := by
  induction l generalizing sessions with
  | nil => rw [backupCursor, List.filterMap_nil, List.append_nil]
  | cons session l ih =>
    rw [List.forall_mem_cons] at hall
    obtain ⟨sessionData, hdata⟩ := Option.isSome_iff_exists.1 hall.1
    obtain ⟨hget, hbackup⟩ := h.get_backup hdata
    have hcontinues : (unlimited limit || decide (sessions.length < limit.getD 0)) = true := by
      cases hlimit : unlimited limit with
      | true => rfl
      | false =>
        have hlength := hfew hlimit
        rw [List.length_cons] at hlength
        simp only [Bool.false_or, decide_eq_true_eq]
        omega
    rw [backupCursor, hget]
    simp only [hcontinues, if_true]
    rw [ih hall.2, List.filterMap_cons_some hbackup, List.append_assoc]
    · rfl
    · intro hlimit
      have hlength := hfew hlimit
      simp only [List.length_append, List.length_cons, List.length_nil] at hlength ⊢
      omega

/-- It fails if one of them does not exist. -/
theorem Holds.backupCursor_missing (h : s.Holds m)
    (hmissing : ∃ session ∈ l, m.sessions session = none)
    (hfew : unlimited limit = false → sessions.length + l.length ≤ limit.getD 0) :
    ∀ result, s.backupCursor limit l sessions ≠ .sessions result := by
  induction l generalizing sessions with
  | nil =>
    obtain ⟨session, hsession, -⟩ := hmissing
    exact absurd hsession List.not_mem_nil
  | cons session l ih =>
    intro result
    rw [backupCursor]
    cases hdata : m.sessions session with
    | none =>
      rw [h.sessions, hdata]
      simp only [Option.map_none]
      split
      · simp
      · simp
    | some sessionData =>
      have hlater : ∃ session ∈ l, m.sessions session = none := by
        obtain ⟨other, hother, hnone⟩ := hmissing
        rcases List.mem_cons.1 hother with rfl | hother
        · rw [hdata] at hnone
          exact absurd hnone (Option.some_ne_none _)
        · exact ⟨other, hother, hnone⟩
      have hcontinues :
          (unlimited limit || decide (sessions.length < limit.getD 0)) = true := by
        cases hlimit : unlimited limit with
        | true => rfl
        | false =>
          have hlength := hfew hlimit
          rw [List.length_cons] at hlength
          simp only [Bool.false_or, decide_eq_true_eq]
          omega
      rw [(h.get_backup hdata).1]
      simp only [hcontinues, if_true]
      apply ih hlater
      intro hlimit
      have hlength := hfew hlimit
      simp only [List.length_append, List.length_cons, List.length_nil] at hlength ⊢
      omega

/-- Past the limit it gets one too many. -/
theorem backupCursor_over (hlimit : unlimited limit = false)
    (hle : sessions.length ≤ limit.getD 0) (hmany : limit.getD 0 < sessions.length + l.length)
    {result : List (BackupSession SessionData)}
    (hresult : s.backupCursor limit l sessions = .sessions result) :
    result.length = limit.getD 0 + 1 := by
  induction l generalizing sessions with
  | nil =>
    rw [List.length_nil] at hmany
    omega
  | cons session l ih =>
    rw [backupCursor] at hresult
    simp only [hlimit, Bool.false_or, decide_eq_true_eq] at hresult
    split at hresult
    · split at hresult
      · simp at hresult
      · simp at hresult
    · split at hresult
      · next hlt =>
          apply ih _ _ hresult
          · simp only [List.length_append, List.length_cons, List.length_nil]
            omega
          · simp only [List.length_append, List.length_cons, List.length_nil] at hmany ⊢
            omega
      · rw [← StoreResult.sessions.inj hresult]
        simp only [List.length_append, List.length_cons, List.length_nil]
        omega

/-- The records are the sessions marked, in another order. -/
theorem Holds.perm (h : s.Holds m) (hnodup : m.needingBackup.Nodup) :
    s.sessionsNeedingBackup.records.Perm m.needingBackup :=
  (List.perm_ext_iff_of_nodup s.sessionsNeedingBackup.nodup_records hnodup).2 h.marked

theorem Holds.allows_backup_iff (h : s.Holds m) (hnodup : m.needingBackup.Nodup) :
    m.Allows (s.getSessionsNeedingBackup limit) (.getSessionsNeedingBackup limit) ↔
      m.HarmlessCursor (.getSessionsNeedingBackup limit) := by
  have hperm := h.perm hnodup
  constructor
  · rintro ⟨result, hresult, -, -, hlength⟩
    have hfew : unlimited limit = false → m.needingBackup.length ≤ limit.getD 0 := by
      intro hlimit
      by_contra hmany
      have hover := backupCursor_over hlimit (Nat.zero_le _)
        (by rw [List.length_nil, hperm.length_eq]; omega) hresult
      rw [hlimit, if_neg Bool.false_ne_true] at hlength
      omega
    refine ⟨fun session hsession => ?_, hfew⟩
    by_contra hmissing
    refine h.backupCursor_missing ⟨session, (h.marked session).2 hsession, ?_⟩ ?_ result hresult
    · simpa using hmissing
    · intro hlimit
      rw [List.length_nil, hperm.length_eq, Nat.zero_add]
      exact hfew hlimit
  · rintro ⟨hall, hfew⟩
    rw [getSessionsNeedingBackup, h.backupCursor_all, List.nil_append]
    · rw [allows_backUp_iff hall hfew s.sessionsNeedingBackup.nodup_records
        fun session hsession => (h.marked session).1 hsession]
      exact hperm.length_eq
    · exact fun session hsession => hall session ((h.marked session).1 hsession)
    · intro hlimit
      rw [List.length_nil, hperm.length_eq, Nat.zero_add]
      exact hfew hlimit

end Cursor

/-! The cursors of the requests. -/

/-- The index of the session finds a request as a scan of all would. -/
theorem Holds.finds_body (h : s.Holds m) (requestBody : RoomKeyRequestBody) :
    m.Finds (fun r => r.requestBody = requestBody)
      (.request (s.getOutgoingRoomKeyRequest requestBody)) := by
  apply finds_find?
  intro r
  rw [List.mem_filter, ObjectStore.mem_records, h.requests]
  simp only [deepCompare, Bool.and_eq_true, decide_eq_true_eq]
  constructor
  · exact fun hr => ⟨hr.1.1, hr.2⟩
  · rintro ⟨hr, rfl⟩
    exact ⟨⟨hr, rfl, rfl⟩, rfl⟩

/-- A request of the first state that has one is a request of those states. -/
theorem Holds.finds_state (h : s.Holds m) (wantedStates : List ℕ) :
    m.Finds (fun r => r.state ∈ wantedStates)
      (.request (s.getOutgoingRoomKeyRequestByState wantedStates)) := by
  have hcursor : ∀ wantedState r, r ∈ s.stateCursor wantedState ↔
      r ∈ m.requests ∧ r.state = wantedState := by
    intro wantedState r
    rw [stateCursor, List.mem_filter, ObjectStore.mem_records, h.requests, decide_eq_true_eq]
  induction wantedStates with
  | nil => exact .inr ⟨fun r _ => List.not_mem_nil, rfl⟩
  | cons wantedState wantedStates ih =>
    rw [getOutgoingRoomKeyRequestByState]
    split
    · next req rest hreqs =>
        have hreq := (hcursor wantedState req).1 (hreqs ▸ List.mem_cons_self)
        exact .inl ⟨req, hreq.1, hreq.2 ▸ List.mem_cons_self, rfl⟩
    · next hreqs =>
        rcases ih with ⟨r, hr, hstate, hresult⟩ | ⟨hnone, hresult⟩
        · exact .inl ⟨r, hr, List.mem_cons_of_mem _ hstate, hresult⟩
        · refine .inr ⟨fun r hr hstate => ?_, hresult⟩
          rcases List.mem_cons.1 hstate with hstate | hstate
          · have hmem := (hcursor wantedState r).2 ⟨hr, hstate⟩
            rw [hreqs] at hmem
            exact List.not_mem_nil hmem
          · exact hnone r hr hstate

theorem Holds.getOrAdd (h : s.Holds m) {request : OutgoingRoomKeyRequest RequestId}
    (hnew : (∀ r ∈ m.requests, r.requestBody ≠ request.requestBody) →
      ∀ r ∈ m.requests, r.requestId ≠ request.requestId) :
    m.Allows (s.call (.getOrAddOutgoingRoomKeyRequest request)).1
        (.getOrAddOutgoingRoomKeyRequest request) ∧
      (s.call (.getOrAddOutgoingRoomKeyRequest request)).2.Holds
        (m.after (.getOrAddOutgoingRoomKeyRequest request)) := by
  simp only [call, getOrAddOutgoingRoomKeyRequest]
  rcases h.finds_body request.requestBody with ⟨r, hr, hbody, hresult⟩ | ⟨hnone, hresult⟩
  · rw [StoreResult.request.inj hresult, requests_exists hr hbody]
    exact ⟨.inl ⟨r, hr, hbody, rfl⟩, h⟩
  · have hadd : s.outgoingRoomKeyRequests.add request =
        some (s.outgoingRoomKeyRequests.put request) :=
      ObjectStore.add_eq_some fun r hr => hnew hnone r ((h.requests r).1 hr)
    rw [StoreResult.request.inj hresult, requests_insert hnone, hadd]
    refine ⟨.inr ⟨hnone, rfl⟩, fun r => ?_, h.sessions, h.marked⟩
    show r ∈ s.outgoingRoomKeyRequests.put request ↔ _
    rw [ObjectStore.mem_put, h.requests, Finset.mem_insert]
    refine or_congr_right ⟨And.left, fun hr => ⟨hr, hnew hnone r hr⟩⟩

/-- If no request has the id and the state, there is nothing to update or delete. -/
theorem after_of_none {requestId : RequestId} {expectedState : ℕ}
    (hnone : ∀ r ∈ m.requests, ¬ (r.requestId = requestId ∧ r.state = expectedState))
    (updates : RequestUpdates) :
    (m.after (.updateOutgoingRoomKeyRequest requestId expectedState updates)).requests =
        m.requests ∧
      (m.after (.deleteOutgoingRoomKeyRequest requestId expectedState)).requests = m.requests := by
  constructor
  · show m.requests.image _ = m.requests
    have heq : Set.EqOn (fun r : OutgoingRoomKeyRequest RequestId =>
        if r.requestId = requestId ∧ r.state = expectedState then r.assign updates else r) id
        m.requests :=
      fun r hr => if_neg (hnone r hr)
    rw [Finset.image_congr heq, Finset.image_id]
  · exact Finset.filter_true_of_mem hnone

/-- What the cursor for a request id finds is the request with the id, and that is in one state. -/
theorem Holds.none_of_get (h : s.Holds m) {requestId : RequestId} {expectedState : ℕ}
    (hget : ∀ data, s.outgoingRoomKeyRequests.get requestId = some data →
      data.state ≠ expectedState) :
    ∀ r ∈ m.requests, ¬ (r.requestId = requestId ∧ r.state = expectedState) := by
  rintro r hr ⟨hid, hstate⟩
  exact hget r (ObjectStore.get_eq_some_iff.2 ⟨(h.requests r).2 hr, hid⟩) hstate

theorem Holds.update (h : s.Holds m) (requestId : RequestId) (expectedState : ℕ)
    (updates : RequestUpdates) :
    m.Allows (s.call (.updateOutgoingRoomKeyRequest requestId expectedState updates)).1
        (.updateOutgoingRoomKeyRequest requestId expectedState updates) ∧
      (s.call (.updateOutgoingRoomKeyRequest requestId expectedState updates)).2.Holds
        (m.after (.updateOutgoingRoomKeyRequest requestId expectedState updates)) := by
  -- without a request to update nothing happens
  have hnothing : (∀ r ∈ m.requests, ¬ (r.requestId = requestId ∧ r.state = expectedState)) →
      m.Allows (.request none) (.updateOutgoingRoomKeyRequest requestId expectedState updates) ∧
        s.Holds (m.after (.updateOutgoingRoomKeyRequest requestId expectedState updates)) := by
    intro hnone
    refine ⟨.inr ⟨hnone, rfl⟩, fun r => ?_, h.sessions, h.marked⟩
    rw [(after_of_none hnone updates).1, h.requests]
  simp only [call, updateOutgoingRoomKeyRequest]
  split
  · next hget =>
      exact hnothing (h.none_of_get fun data hdata => absurd (hget.symm.trans hdata)
        (Option.some_ne_none data).symm)
  · next data hget =>
      split
      · next hstate =>
          apply hnothing (h.none_of_get fun other hother => ?_)
          rwa [Option.some.inj (hother.symm.trans hget)]
      · next hstate =>
          rw [not_not] at hstate
          obtain ⟨hdata, hid⟩ := ObjectStore.get_eq_some_iff.1 hget
          refine ⟨.inl ⟨data, (h.requests data).1 hdata, ⟨hid, hstate⟩, rfl⟩, fun r => ?_,
            h.sessions, h.marked⟩
          show r ∈ s.outgoingRoomKeyRequests.put (data.assign updates) ↔ r ∈ m.requests.image _
          rw [ObjectStore.mem_put, Finset.mem_image, assign_requestId]
          constructor
          · rintro (rfl | ⟨hr, hne⟩)
            · exact ⟨data, (h.requests data).1 hdata, if_pos ⟨hid, hstate⟩⟩
            · exact ⟨r, (h.requests r).1 hr, if_neg fun hcontra => hne (hcontra.1.trans hid.symm)⟩
          · rintro ⟨old, hold, rfl⟩
            have hsame : old.requestId = data.requestId → old = data :=
              ObjectStore.eq_of_key ((h.requests old).2 hold) hdata
            split
            · next hcond => exact .inl (by rw [hsame (hcond.1.trans hid.symm)])
            · next hcond =>
                refine .inr ⟨(h.requests old).2 hold, fun hcontra => hcond ?_⟩
                rw [hsame hcontra]
                exact ⟨hid, hstate⟩

theorem Holds.delete (h : s.Holds m) (requestId : RequestId) (expectedState : ℕ) :
    (s.call (.deleteOutgoingRoomKeyRequest requestId expectedState)).2.Holds
      (m.after (.deleteOutgoingRoomKeyRequest requestId expectedState)) := by
  have hnothing : (∀ r ∈ m.requests, ¬ (r.requestId = requestId ∧ r.state = expectedState)) →
      s.Holds (m.after (.deleteOutgoingRoomKeyRequest requestId expectedState)) := by
    intro hnone
    refine ⟨fun r => ?_, h.sessions, h.marked⟩
    rw [(after_of_none hnone ⟨none, none, none⟩).2, h.requests]
  simp only [call, deleteOutgoingRoomKeyRequest]
  split
  · next hget =>
      exact hnothing (h.none_of_get fun data hdata => absurd (hget.symm.trans hdata)
        (Option.some_ne_none data).symm)
  · next data hget =>
      split
      · next hstate =>
          apply hnothing (h.none_of_get fun other hother => ?_)
          rwa [Option.some.inj (hother.symm.trans hget)]
      · next hstate =>
          rw [not_not] at hstate
          obtain ⟨hdata, hid⟩ := ObjectStore.get_eq_some_iff.1 hget
          refine ⟨fun r => ?_, h.sessions, h.marked⟩
          show r ∈ s.outgoingRoomKeyRequests.delete requestId ↔ r ∈ m.requests.filter _
          rw [ObjectStore.mem_delete, Finset.mem_filter, h.requests]
          refine and_congr_right fun hr => not_congr ⟨fun hcond => ?_, And.left⟩
          have hsame : r = data :=
            ObjectStore.eq_of_key ((h.requests r).2 hr) hdata (hcond.trans hid.symm)
          rw [hsame]
          exact ⟨hid, hstate⟩

/-- No request is found by a target. -/
theorem getOutgoingRoomKeyRequestsByTarget_eq (target : Recipient) (wantedStates : List ℕ) :
    s.getOutgoingRoomKeyRequestsByTarget target wantedStates = [] := by
  simp [getOutgoingRoomKeyRequestsByTarget, includesLiteral_eq]

/-! A call. -/

theorem Holds.store (h : s.Holds m) (session : SessionKey) (sessionData : SessionData) :
    (s.storeEndToEndInboundGroupSession session sessionData).Holds
      (m.after (.storeEndToEndInboundGroupSession session sessionData)) := by
  refine ⟨h.requests, fun other => ?_, h.marked⟩
  show (s.inboundGroupSessions.put _).get other =
    (Function.update m.sessions session (some sessionData) other).map _
  rw [ObjectStore.get_put]
  by_cases hother : other = session
  · rw [if_pos hother, hother, Function.update_self]
    rfl
  · rw [if_neg hother, Function.update_of_ne hother, h.sessions]

theorem Holds.add (h : s.Holds m) (session : SessionKey) (sessionData : SessionData) :
    (s.addEndToEndInboundGroupSession session sessionData).Holds
      (m.after (.addEndToEndInboundGroupSession session sessionData)) := by
  rw [addEndToEndInboundGroupSession, ObjectStore.add, h.sessions]
  cases hold : m.sessions session with
  | none =>
    have hafter : m.after (.addEndToEndInboundGroupSession session sessionData) =
        m.after (.storeEndToEndInboundGroupSession session sessionData) := by
      simp only [ReferenceStore.after, hold]
      rfl
    rw [hafter]
    exact h.store session sessionData
  | some old =>
    refine ⟨h.requests, fun other => ?_, h.marked⟩
    show s.inboundGroupSessions.get other = (Function.update m.sessions session
      (m.sessions session <|> some sessionData) other).map _
    rw [h.sessions]
    by_cases hother : other = session
    · rw [hother, Function.update_self, hold]
      rfl
    · rw [Function.update_of_ne hother]

theorem Holds.mark (h : s.Holds m) (sessions : List SessionKey) :
    (s.markSessionsNeedingBackup sessions).Holds
      (m.after (.markSessionsNeedingBackup sessions)) := by
  refine ⟨h.requests, h.sessions, fun session => ?_⟩
  show session ∈ sessions.foldl ObjectStore.put s.sessionsNeedingBackup ↔ _
  simp only [ReferenceStore.after]
  rw [mem_mark, ← h.marked]
  generalize s.sessionsNeedingBackup = store
  induction sessions generalizing store with
  | nil => simp
  | cons other sessions ih =>
    rw [List.foldl_cons, ih, ObjectStore.mem_put, List.mem_cons, id, id]
    by_cases hother : session = other
    · simp [hother]
    · simp [hother]

theorem Holds.unmark (h : s.Holds m) (sessions : List SessionKey) :
    (s.unmarkSessionsNeedingBackup sessions).Holds
      (m.after (.unmarkSessionsNeedingBackup sessions)) := by
  refine ⟨h.requests, h.sessions, fun session => ?_⟩
  show session ∈ sessions.foldl ObjectStore.delete s.sessionsNeedingBackup ↔ _
  simp only [ReferenceStore.after]
  rw [List.mem_filter, ← h.marked]
  generalize s.sessionsNeedingBackup = store
  induction sessions generalizing store with
  | nil => simp
  | cons other sessions ih =>
    rw [List.foldl_cons, ih, ObjectStore.mem_delete, id]
    simp [and_assoc]

/-- **A call of the database.** -/
theorem Holds.call (h : s.Holds m) {pool : List (OutgoingRoomKeyRequest RequestId)}
    (hwf : m.Wf pool) (hunique : OneBody pool) {c : StoreCall RequestId SessionData}
    (hpool : ∀ r ∈ c.added, r ∈ pool) :
    (m.Allows (s.call c).1 c ↔ m.HarmlessCursor c) ∧ (s.call c).2.Holds (m.after c) := by
  cases c with
  | getOrAddOutgoingRoomKeyRequest request =>
    have hcall := h.getOrAdd fun hnone r hr => hwf.new_id hunique (hpool request rfl) hnone hr
    exact ⟨iff_of_true hcall.1 trivial, hcall.2⟩
  | getOutgoingRoomKeyRequest requestBody =>
    exact ⟨iff_of_true (h.finds_body requestBody) trivial, h⟩
  | getOutgoingRoomKeyRequestByState wantedStates =>
    exact ⟨iff_of_true (h.finds_state wantedStates) trivial, h⟩
  | getAllOutgoingRoomKeyRequestsByState wantedState =>
    have hlists : m.Lists (fun r => r.state = wantedState)
        (.requests (s.getAllOutgoingRoomKeyRequestsByState wantedState)) := by
      apply lists_filter s.outgoingRoomKeyRequests.nodup_records
      intro r
      rw [ObjectStore.mem_records, h.requests, decide_eq_true_eq]
    exact ⟨iff_of_true hlists trivial, h⟩
  | getOutgoingRoomKeyRequestsByTarget target wantedStates =>
    refine ⟨?_, h⟩
    show m.Lists _ (.requests _) ↔ _
    rw [getOutgoingRoomKeyRequestsByTarget_eq, lists_nil]
    simp only [not_and, HarmlessCursor]
  | updateOutgoingRoomKeyRequest requestId expectedState updates =>
    have hcall := h.update requestId expectedState updates
    exact ⟨iff_of_true hcall.1 trivial, hcall.2⟩
  | deleteOutgoingRoomKeyRequest requestId expectedState =>
    exact ⟨iff_of_true rfl trivial, h.delete requestId expectedState⟩
  | addEndToEndInboundGroupSession session sessionData =>
    exact ⟨iff_of_true rfl trivial, h.add session sessionData⟩
  | storeEndToEndInboundGroupSession session sessionData =>
    exact ⟨iff_of_true rfl trivial, h.store session sessionData⟩
  | markSessionsNeedingBackup sessions => exact ⟨iff_of_true rfl trivial, h.mark sessions⟩
  | unmarkSessionsNeedingBackup sessions => exact ⟨iff_of_true rfl trivial, h.unmark sessions⟩
  | countSessionsNeedingBackup =>
    refine ⟨iff_of_true ?_ trivial, h⟩
    exact congrArg StoreResult.count (h.perm hwf.nodup).length_eq
  | getSessionsNeedingBackup limit => exact ⟨h.allows_backup_iff hwf.nodup, h⟩

end Backend

/-! ## The three stores -/

namespace ReferenceStore

variable {RequestId SessionData : Type} [LinearOrder RequestId]

/-- A run, from stores that have what the reference store has. -/
theorem refined_iff_of_holds {pool : List (OutgoingRoomKeyRequest RequestId)}
    (hunique : OneBody pool) {calls : List (StoreCall RequestId SessionData)}
    (hpool : ∀ c ∈ calls, ∀ r ∈ c.added, r ∈ pool) {m : ReferenceStore RequestId SessionData}
    (hwf : m.Wf pool) {memory : MemoryCryptoStore RequestId SessionData}
    {localStorage : LocalStorageCryptoStore RequestId SessionData}
    {backend : Backend RequestId SessionData} (hmemory : memory.Holds m)
    (hlocal : localStorage.Holds m) (hbackend : backend.Holds m) :
    Refined MemoryCryptoStore.call memory m calls ∧
        Refined LocalStorageCryptoStore.call localStorage m calls ∧
        Refined Backend.call backend m calls ↔ Harmless m calls := by
  induction calls generalizing m memory localStorage backend with
  | nil => exact iff_of_true ⟨trivial, trivial, trivial⟩ trivial
  | cons c calls ih =>
    rw [List.forall_mem_cons] at hpool
    have hcalls := ih hpool.2 (hwf.after hunique hpool.1) (hmemory.call hwf hunique hpool.1).2
      (hlocal.call hwf hunique hpool.1).2 (hbackend.call hwf hunique hpool.1).2
    have hstep : m.Allows (memory.call c).1 c ∧ m.Allows (localStorage.call c).1 c ∧
        m.Allows (backend.call c).1 c ↔ m.HarmlessCall c := by
      rw [(hbackend.call hwf hunique hpool.1).1]
      constructor
      · rintro ⟨hallows, -, hcursor⟩
        exact ((hmemory.call hwf hunique hpool.1).1 hcursor).1 hallows
      · intro hharmless
        exact ⟨((hmemory.call hwf hunique hpool.1).1 hharmless.cursor).2 hharmless,
          ((hlocal.call hwf hunique hpool.1).1 hharmless.cursor).2 hharmless,
          hharmless.cursor⟩
    rw [Harmless, ← hcalls, ← hstep]
    simp only [Refined]
    tauto

/-- **The three stores return what the reference store allows**, for any calls that add requests
with unique ids, if and only if the calls are harmless. -/
theorem refined_iff (calls : List (StoreCall RequestId SessionData)) (hunique : UniqueIds calls) :
    Refined MemoryCryptoStore.call .new .new calls ∧
        Refined LocalStorageCryptoStore.call .new .new calls ∧
        Refined Backend.call .new .new calls ↔ Harmless .new calls := by
  have hwf : (new : ReferenceStore RequestId SessionData).Wf
      (calls.filterMap StoreCall.added) := by
    refine ⟨fun r hr => ?_, fun r hr => ?_, List.nodup_nil⟩
    · exact absurd hr (Finset.notMem_empty r)
    · exact absurd hr (Finset.notMem_empty r)
  exact refined_iff_of_holds hunique (fun c hc r hr => List.mem_filterMap.2 ⟨c, hc, hr⟩) hwf
    MemoryCryptoStore.holds_new LocalStorageCryptoStore.holds_new Backend.holds_new

/-! Two sessions of one device. -/

def senderKey : SenderKey := ⟨List.replicate 43 'A', by decide⟩

/-- The sessions are stored and marked, and asked for with a limit. -/
def storeAndMark (limit : ℕ) : List (StoreCall ℕ Unit) :=
  [.storeEndToEndInboundGroupSession (toLex (senderKey, ['b'])) (),
    .storeEndToEndInboundGroupSession (toLex (senderKey, ['a'])) (),
    .markSessionsNeedingBackup [toLex (senderKey, ['b']), toLex (senderKey, ['a'])],
    .getSessionsNeedingBackup (some limit)]

/-- The limit of the key backup is longer than a key. -/
theorem refined_storeAndMark :
    Refined MemoryCryptoStore.call .new .new (storeAndMark 200) ∧
      Refined LocalStorageCryptoStore.call .new .new (storeAndMark 200) ∧
      Refined Backend.call .new .new (storeAndMark 200) :=
  (refined_iff (storeAndMark 200) (by simp [UniqueIds, storeAndMark, StoreCall.added])).2
    ⟨trivial, trivial, trivial, ⟨by decide +kernel, by decide +kernel, by decide +kernel⟩, trivial⟩

/-- With a limit of one the database gives two. -/
theorem refined_fails : ¬ ∀ calls : List (StoreCall ℕ Unit), UniqueIds calls →
    Refined MemoryCryptoStore.call .new .new calls ∧
      Refined LocalStorageCryptoStore.call .new .new calls ∧
      Refined Backend.call .new .new calls := by
  intro h
  have hrefined := (h (storeAndMark 1) (by simp [UniqueIds, storeAndMark, StoreCall.added])).2.2
  obtain ⟨l, hresult, -, -, hlength⟩ := hrefined.2.2.2.1
  rw [if_neg (by decide)] at hlength
  have hle : l.length ≤ 1 := hlength.trans_le (Nat.min_le_right _ _)
  have htwo : l = [⟨senderKey, ['a'], some ()⟩, ⟨senderKey, ['b'], some ()⟩] :=
    StoreResult.sessions.inj (hresult.symm.trans (by decide +kernel))
  rw [htwo] at hle
  exact absurd hle (by decide)

end ReferenceStore

end MatrixSdk.CryptoStores
