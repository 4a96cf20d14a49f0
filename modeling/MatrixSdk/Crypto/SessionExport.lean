/-
Exporting inbound group sessions and importing them elsewhere:
`exportInboundGroupSession` of `crypto/OlmDevice.js` with its two callers in
`crypto/index.js`, the export of all room keys and the key backup, and
`importRoomKey` of `crypto/algorithms/megolm.js`.

What is stored of a session is what `addInboundGroupSession` was given, by a room
key event, by an import, or for a session of our own. An export is built from
the stored data and the Olm session, except that it looks for the forwarding
chain in the Olm session, which has none. [`roundTrips_iff`] says what this costs:
everything else survives, and the chain does if it is empty.
-/
import MatrixSdk.Crypto.GroupSessions

set_option autoImplicit false

namespace MatrixSdk.Crypto

open MatrixSdk.Lib

/-! ## Stored sessions -/

/-- The group sessions of the Olm library, with the export of one from an index on. -/
structure ExportedSessions (Session Plaintext : Type) extends GroupSessions Session Plaintext where
  exportSession : Session → ℕ → Option String

/-- The keys that a sender claims, by algorithm; `null` is a value. -/
abbrev ClaimedKeys := JsObject String (Option String)

/-- What is stored of an inbound group session, with everything that may be missing. -/
structure StoredSession (Session : Type) where
  roomId : String
  session : Session
  keysClaimed : Option ClaimedKeys
  forwardingCurve25519KeyChain : Option (List String)
  untrusted : Bool

/-- The forwarding chain as it is read: `forwardingCurve25519KeyChain || []`. -/
def StoredSession.chain {Session : Type} (data : StoredSession Session) : List String :=
  data.forwardingCurve25519KeyChain.getD []

/-- The stored sessions of a device, by sender key and session id. -/
structure SessionStore (Session : Type) where
  sessions : String → String → Option (StoredSession Session)

/-- The arguments of `addInboundGroupSession`. -/
structure InboundSession where
  roomId : String
  senderKey : String
  forwardingCurve25519KeyChain : Option (List String)
  sessionId : String
  sessionKey : String
  keysClaimed : Option ClaimedKeys
  exportFormat : Bool
  /-- `extraSessionData`. -/
  untrusted : Bool

/-- `MegolmSessionData`: an exported session. -/
structure MegolmSessionData where
  sender_key : String
  sender_claimed_keys : Option ClaimedKeys
  room_id : String
  session_id : String
  session_key : String
  forwarding_curve25519_key_chain : Option (List String)
  first_known_index : Option ℕ
  algorithm : Option String

/-- What is encrypted for the key backup; the ids are in the path. -/
structure BackupSessionData where
  sender_key : String
  sender_claimed_keys : Option ClaimedKeys
  session_key : String
  forwarding_curve25519_key_chain : Option (List String)
  algorithm : Option String

/-- A key event, of type `m.room_key` or `m.forwarded_room_key`. -/
structure RoomKeyEvent where
  forwarded : Bool
  /-- `getSenderKey()`. -/
  senderKey : Option String
  claimedEd25519Key : Option String
  room_id : Option String
  session_id : Option String
  session_key : Option String
  sender_key : Option String
  sender_claimed_ed25519_key : Option String
  /-- `none` if it is not an array. -/
  forwarding_curve25519_key_chain : Option (List String)

section Model

variable {Session Plaintext : Type} (olm : ExportedSessions Session Plaintext)

namespace SessionStore

def empty : SessionStore Session := ⟨fun _ _ => none⟩

def setSession (s : SessionStore Session) (senderKey sessionId : String)
    (data : StoredSession Session) : SessionStore Session :=
  ⟨Function.update s.sessions senderKey
    (Function.update (s.sessions senderKey) sessionId (some data))⟩

/-- `addInboundGroupSession`. -/
def addInboundGroupSession (s : SessionStore Session) (new : InboundSession) :
    Except String (SessionStore Session) :=
  let existing := s.sessions new.senderKey new.sessionId
  match existing.filter fun data => new.roomId ≠ data.roomId with
  | some data => .error (mismatchedRoom data.roomId (.id new.roomId))
  | none =>
    match (if new.exportFormat then olm.importSession else olm.create) new.sessionKey with
    | none => .error "OLM"
    | some session =>
      if new.sessionId ≠ olm.sessionId session then
        .error ("Mismatched group session ID from senderKey: " ++ new.senderKey)
      else if existing.any fun data =>
          olm.firstKnownIndex data.session ≤ olm.firstKnownIndex session then
        -- "existing session has lower index (i.e. can decrypt more), so keep it"
        .ok s
      else
        .ok (s.setSession new.senderKey new.sessionId
          { roomId := new.roomId
            session := session
            keysClaimed := new.keysClaimed
            forwardingCurve25519KeyChain := new.forwardingCurve25519KeyChain
            untrusted := new.untrusted })

end SessionStore

/-- `exportInboundGroupSession`; nothing if Olm throws. -/
def exportInboundGroupSession (senderKey sessionId : String) (sessionData : StoredSession Session) :
    Option MegolmSessionData :=
  let messageIndex := olm.firstKnownIndex sessionData.session
  (olm.exportSession sessionData.session messageIndex).map fun key =>
    { sender_key := senderKey
      sender_claimed_keys := sessionData.keysClaimed
      room_id := sessionData.roomId
      session_id := sessionId
      session_key := key
      -- `session.forwardingCurve25519KeyChain || []`, where `session` is the Olm session
      forwarding_curve25519_key_chain := some []
      first_known_index := some messageIndex
      algorithm := none }

/-- A session in the result of `exportRoomKeys`. -/
def exportRoomKey (senderKey sessionId : String) (sessionData : StoredSession Session) :
    Option MegolmSessionData :=
  (exportInboundGroupSession olm senderKey sessionId sessionData).map fun sess =>
    { sess with first_known_index := none, algorithm := some MEGOLM_ALGORITHM }

/-- What `_backupPendingKeys` encrypts of a session. -/
def backupSessionData (senderKey sessionId : String) (sessionData : StoredSession Session) :
    Option BackupSessionData :=
  (exportInboundGroupSession olm senderKey sessionId sessionData).map fun sess =>
    { sender_key := sess.sender_key
      sender_claimed_keys := sess.sender_claimed_keys
      session_key := sess.session_key
      forwarding_curve25519_key_chain := sess.forwarding_curve25519_key_chain
      algorithm := some MEGOLM_ALGORITHM }

/-- `keysFromRecoverySession`, for one session. -/
def keyFromRecoverySession (roomId sessionId : String) (decrypted : BackupSessionData) :
    MegolmSessionData where
  sender_key := decrypted.sender_key
  sender_claimed_keys := decrypted.sender_claimed_keys
  room_id := roomId
  session_id := sessionId
  session_key := decrypted.session_key
  forwarding_curve25519_key_chain := decrypted.forwarding_curve25519_key_chain
  first_known_index := none
  algorithm := decrypted.algorithm

/-- What `importRoomKey` passes on. -/
def importedSession (session : MegolmSessionData) (untrusted : Bool) : InboundSession where
  roomId := session.room_id
  senderKey := session.sender_key
  forwardingCurve25519KeyChain := session.forwarding_curve25519_key_chain
  sessionId := session.session_id
  sessionKey := session.session_key
  keysClaimed := session.sender_claimed_keys
  exportFormat := true
  untrusted := untrusted

/-- `MegolmDecryption.importRoomKey`, up to the backup and the retries. -/
def SessionStore.importRoomKey (s : SessionStore Session) (session : MegolmSessionData)
    (untrusted : Bool) : Except String (SessionStore Session) :=
  s.addInboundGroupSession olm (importedSession session untrusted)

/-- `onRoomKeyEvent`, as the call of `addInboundGroupSession` it comes to. -/
def RoomKeyEvent.onRoomKeyEvent (event : RoomKeyEvent) : Option InboundSession := do
  let roomId ← truthy event.room_id
  let sessionId ← truthy event.session_id
  let sessionKey ← truthy event.session_key
  let senderKey ← truthy event.senderKey
  if event.forwarded then
    let forwardingKeyChain := event.forwarding_curve25519_key_chain.getD [] ++ [senderKey]
    let senderKey ← truthy event.sender_key
    let ed25519Key ← truthy event.sender_claimed_ed25519_key
    some ⟨roomId, senderKey, some forwardingKeyChain, sessionId, sessionKey,
      some (.set .empty "ed25519" (some ed25519Key)), true, false⟩
  else
    some ⟨roomId, senderKey, some [], sessionId, sessionKey,
      some (.set .empty "ed25519" event.claimedEd25519Key), false, false⟩

/-- The ways a session comes into the store, and the decryption that leaves it changed there. -/
inductive SessionEvent
  | onRoomKeyEvent (event : RoomKeyEvent)
  | importRoomKey (session : MegolmSessionData) (untrusted : Bool)
  /-- `_prepareNewSession`: a session of our own. -/
  | prepareNewSession (roomId ownKey sessionId sessionKey ed25519 : String)
  | decryptGroupMessage (senderKey sessionId body : String)

/-- What is added by an event, if it adds something. -/
def SessionEvent.adds : SessionEvent → Option InboundSession
  | .onRoomKeyEvent event => event.onRoomKeyEvent
  | .importRoomKey session untrusted => some (importedSession session untrusted)
  | .prepareNewSession roomId ownKey sessionId sessionKey ed25519 => some
      ⟨roomId, ownKey, some [], sessionId, sessionKey,
        some (.set .empty "ed25519" (some ed25519)), false, false⟩
  | .decryptGroupMessage .. => none

/-- The store after an event. Where something throws, nothing is stored. -/
def SessionStore.handle (s : SessionStore Session) : SessionEvent → SessionStore Session
  | .decryptGroupMessage senderKey sessionId body =>
    match s.sessions senderKey sessionId with
    | none => s
    | some data =>
      match olm.decrypt data.session body with
      | .error _ => s
      | .ok (_, _, session) => s.setSession senderKey sessionId { data with session := session }
  | event =>
    match event.adds with
    | none => s
    | some new => (s.addInboundGroupSession olm new).toOption.getD s

/-- The store of a device, from the empty one. -/
def sessionStoreSystem : System (SessionStore Session) SessionEvent where
  init := .empty
  step s event := some (s.handle olm event)

/-! ## What is claimed of an export -/

/-- What is relied on of Olm: an export can be imported, which gives a session with the same id
that begins at the index of the export, and decrypting does not change the id of a session. -/
structure ExportsSessions : Prop where
  import_export : ∀ session, ∃ key imported,
    olm.exportSession session (olm.firstKnownIndex session) = some key ∧
      olm.importSession key = some imported ∧ olm.sessionId imported = olm.sessionId session ∧
      olm.firstKnownIndex imported = olm.firstKnownIndex session
  kept : ∀ {session after body plaintext messageIndex},
    olm.decrypt session body = .ok (plaintext, messageIndex, after) →
      olm.sessionId after = olm.sessionId session

/-- The two ways an exported session takes to another device. -/
inductive ExportRoute
  | exportRoomKeys
  | keyBackup

/-- The record that is imported, and whether it is trusted. -/
def ExportRoute.record (senderKey sessionId : String) (data : StoredSession Session) :
    ExportRoute → Option (MegolmSessionData × Bool)
  | .exportRoomKeys => (exportRoomKey olm senderKey sessionId data).map fun sess => (sess, false)
  | .keyBackup => (backupSessionData olm senderKey sessionId data).map fun decrypted =>
    (keyFromRecoverySession data.roomId sessionId decrypted, true)

/-- On a device without the session, the import stores one that agrees with `data` in all but,
perhaps, the forwarding chain, which is `chain` there. -/
def ImportedWith (senderKey sessionId : String) (data : StoredSession Session)
    (route : ExportRoute) (device : SessionStore Session) (chain : List String) : Prop :=
  ∃ record untrusted device' imported,
    route.record olm senderKey sessionId data = some (record, untrusted) ∧
      device.importRoomKey olm record untrusted = .ok device' ∧
      device'.sessions senderKey sessionId = some imported ∧
      imported.roomId = data.roomId ∧
      olm.sessionId imported.session = olm.sessionId data.session ∧
      olm.firstKnownIndex imported.session = olm.firstKnownIndex data.session ∧
      imported.keysClaimed = data.keysClaimed ∧ imported.chain = chain

/-- A session comes out of an export and an import as it was. -/
def RoundTrips (senderKey sessionId : String) (data : StoredSession Session) : Prop :=
  ∀ route (device : SessionStore Session), device.sessions senderKey sessionId = none →
    ImportedWith olm senderKey sessionId data route device data.chain

/-! ## Storing a session -/

namespace SessionStore

omit olm in
theorem setSession_sessions (s : SessionStore Session) (senderKey sessionId : String)
    (data : StoredSession Session) (senderKey' sessionId' : String) :
    (s.setSession senderKey sessionId data).sessions senderKey' sessionId' =
      if senderKey' = senderKey ∧ sessionId' = sessionId then some data
      else s.sessions senderKey' sessionId' := by
  unfold setSession
  by_cases hsender : senderKey' = senderKey
  · subst hsender
    simp only [Function.update_self, Function.update_apply, true_and]
  · simp only [Function.update_of_ne hsender, hsender, false_and, if_false]

variable {s : SessionStore Session}

/-- What a call of `addInboundGroupSession` that returns has done: nothing, or stored the session it
was given, under its id. -/
theorem addInboundGroupSession_ok {s' : SessionStore Session} {new : InboundSession}
    (h : s.addInboundGroupSession olm new = .ok s') :
    s' = s ∨ ∃ session, olm.sessionId session = new.sessionId ∧
      s' = s.setSession new.senderKey new.sessionId ⟨new.roomId, session, new.keysClaimed,
        new.forwardingCurve25519KeyChain, new.untrusted⟩ := by
  unfold addInboundGroupSession at h
  dsimp only at h
  split at h
  · exact nomatch h
  · split at h
    · exact nomatch h
    next session _ =>
      split_ifs at h with hid hkeep
      · obtain rfl := Except.ok.inj h
        exact .inl rfl
      · obtain rfl := Except.ok.inj h
        exact .inr ⟨session, (not_not.1 hid).symm, rfl⟩

/-- Where no session is, the one that is given is stored. -/
theorem addInboundGroupSession_new {new : InboundSession} {session : Session}
    (hnone : s.sessions new.senderKey new.sessionId = none)
    (hsession : (if new.exportFormat then olm.importSession else olm.create) new.sessionKey =
      some session) (hid : olm.sessionId session = new.sessionId) :
    s.addInboundGroupSession olm new = .ok (s.setSession new.senderKey new.sessionId
      ⟨new.roomId, session, new.keysClaimed, new.forwardingCurve25519KeyChain, new.untrusted⟩) := by
  unfold addInboundGroupSession
  dsimp only
  rw [hnone, Option.filter_none]
  rw [hsession]
  dsimp only
  rw [if_neg (not_not.2 hid.symm), Option.any_none, if_neg Bool.false_ne_true]

/-- The sessions are stored under their ids. -/
def ById (s : SessionStore Session) : Prop :=
  ∀ senderKey sessionId data, s.sessions senderKey sessionId = some data →
    olm.sessionId data.session = sessionId

variable {olm}

theorem ById.setSession (hs : s.ById olm) {senderKey sessionId : String}
    {data : StoredSession Session} (hdata : olm.sessionId data.session = sessionId) :
    (s.setSession senderKey sessionId data).ById olm := by
  intro senderKey' sessionId' data' hdata'
  rw [setSession_sessions] at hdata'
  split_ifs at hdata' with hsame
  · rw [← Option.some.inj hdata', hsame.2, hdata]
  · exact hs senderKey' sessionId' data' hdata'

theorem ById.addInboundGroupSession (hs : s.ById olm) (new : InboundSession) :
    ((s.addInboundGroupSession olm new).toOption.getD s).ById olm := by
  cases hadd : s.addInboundGroupSession olm new with
  | error e => exact hs
  | ok s' =>
    show s'.ById olm
    rcases addInboundGroupSession_ok olm hadd with rfl | ⟨session, hid, rfl⟩
    · exact hs
    · exact hs.setSession hid

/-- **The step lemma.** Every event leaves the sessions stored under their ids. -/
theorem ById.handle (holm : ExportsSessions olm) (hs : s.ById olm) (event : SessionEvent) :
    (s.handle olm event).ById olm := by
  have hadds : ∀ new : Option InboundSession, ((match new with
      | none => s
      | some new => (s.addInboundGroupSession olm new).toOption.getD s) :
        SessionStore Session).ById olm := by
    intro new
    cases new with
    | none => exact hs
    | some new => exact hs.addInboundGroupSession new
  cases event with
  | onRoomKeyEvent event => exact hadds (SessionEvent.adds (.onRoomKeyEvent event))
  | importRoomKey session untrusted => exact hadds (SessionEvent.adds (.importRoomKey ..))
  | prepareNewSession roomId ownKey sessionId sessionKey ed25519 =>
    exact hadds (SessionEvent.adds (.prepareNewSession ..))
  | decryptGroupMessage senderKey sessionId body =>
    unfold SessionStore.handle
    dsimp only
    split
    · exact hs
    next data hdata =>
      split
      · exact hs
      next plaintext messageIndex session hdec =>
        exact hs.setSession ((holm.kept hdec).trans (hs _ _ _ hdata))

theorem byId_along (holm : ExportsSessions olm) {tr : List (SessionStore Session × SessionEvent)}
    (h : (sessionStoreSystem olm).Trace tr s) : s.ById olm := by
  induction h with
  | start => exact fun _ _ _ h => nomatch h
  | snoc _ hstep ih =>
    obtain rfl := Option.some.inj hstep
    exact ih.handle holm _

end SessionStore

/-! ## Exporting and importing -/

variable {olm} {senderKey sessionId : String} {data : StoredSession Session}

variable (senderKey sessionId) in
/-- What an export that has succeeded contains, on either route. -/
theorem record_eq (route : ExportRoute) {key : String}
    (hkey : olm.exportSession data.session (olm.firstKnownIndex data.session) = some key) :
    ∃ untrusted, route.record olm senderKey sessionId data =
      some (⟨senderKey, data.keysClaimed, data.roomId, sessionId, key, some [], none,
        some MEGOLM_ALGORITHM⟩, untrusted) := by
  cases route with
  | exportRoomKeys =>
    refine ⟨false, ?_⟩
    simp only [ExportRoute.record, exportRoomKey, exportInboundGroupSession, hkey, Option.map_some]
  | keyBackup =>
    refine ⟨true, ?_⟩
    simp only [ExportRoute.record, backupSessionData, exportInboundGroupSession, hkey,
      Option.map_some, keyFromRecoverySession]

/-- **Everything but the forwarding chain survives**, on both routes and into any device that does
not have the session. -/
theorem importedWith_nil (holm : ExportsSessions olm)
    (hid : olm.sessionId data.session = sessionId) (route : ExportRoute)
    {device : SessionStore Session} (hnone : device.sessions senderKey sessionId = none) :
    ImportedWith olm senderKey sessionId data route device [] := by
  obtain ⟨key, imported, hkey, himport, hsame, hindex⟩ := holm.import_export data.session
  obtain ⟨untrusted, hrecord⟩ := record_eq senderKey sessionId route hkey
  have hstored : ∀ new : StoredSession Session,
      (device.setSession senderKey sessionId new).sessions senderKey sessionId = some new := by
    intro new
    rw [SessionStore.setSession_sessions, if_pos ⟨rfl, rfl⟩]
  exact ⟨_, untrusted, _, _, hrecord, SessionStore.addInboundGroupSession_new olm hnone himport
    (hsame.trans hid), hstored _, rfl, hsame, hindex, rfl, rfl⟩

/-- What is stored after an import is what the record says. -/
theorem importedWith_unique (holm : ExportsSessions olm) (hid : olm.sessionId data.session = sessionId)
    {route : ExportRoute} {device : SessionStore Session} {chain : List String}
    (hnone : device.sessions senderKey sessionId = none)
    (h : ImportedWith olm senderKey sessionId data route device chain) : chain = [] := by
  obtain ⟨record, untrusted, device', imported, hrecord, himport, hstored, -, -, -, -, rfl⟩ := h
  obtain ⟨record', untrusted', device'', imported', hrecord', himport', hstored', -, -, -, -, hnil⟩ :=
    importedWith_nil holm hid route hnone
  obtain ⟨rfl, rfl⟩ := Prod.mk.inj (Option.some.inj (hrecord.symm.trans hrecord'))
  obtain rfl := Except.ok.inj (himport.symm.trans himport')
  obtain rfl := Option.some.inj (hstored.symm.trans hstored')
  exact hnil

/-- **What becomes of a stored session that is exported and imported.** It arrives with its room,
its ids, its first index and its claimed keys, and with the empty forwarding chain; so it comes out
as it was exactly if it has not been forwarded. -/
theorem roundTrips_iff (holm : ExportsSessions olm) {s : SessionStore Session}
    {tr : List (SessionStore Session × SessionEvent)} (h : (sessionStoreSystem olm).Trace tr s)
    (hstored : s.sessions senderKey sessionId = some data) :
    (∀ route device, device.sessions senderKey sessionId = none →
        ImportedWith olm senderKey sessionId data route device []) ∧
      (RoundTrips olm senderKey sessionId data ↔ data.chain = []) := by
  have hid := SessionStore.byId_along holm h senderKey sessionId data hstored
  refine ⟨fun route device hnone => importedWith_nil holm hid route hnone, ?_⟩
  constructor
  · intro hround
    exact importedWith_unique holm hid rfl (hround .exportRoomKeys .empty rfl)
  · intro hchain route device hnone
    rw [hchain]
    exact importedWith_nil holm hid route hnone

/-! ## A session that has been forwarded -/

/-- Sessions that are their keys, and know every index. -/
def plainExports : ExportedSessions String String where
  toGroupSessions := plainSessions
  exportSession session _ := some session

theorem plainExports_exports : ExportsSessions plainExports where
  import_export session := ⟨session, session, rfl, rfl, rfl, rfl⟩
  kept h := by
    obtain ⟨-, -, rfl⟩ := Prod.mk.inj (Except.ok.inj h)
    rfl

/-- A key event in a room, that brings the key `"K"`. -/
def exampleKeyEvent (forwarded : Bool) : RoomKeyEvent where
  forwarded := forwarded
  senderKey := some "BOB"
  claimedEd25519Key := some "bob"
  room_id := some "!room:a"
  session_id := some "K"
  session_key := some "K"
  sender_key := some "ALICE"
  sender_claimed_ed25519_key := some "alice"
  forwarding_curve25519_key_chain := none

/-- A session that came from the device `BOB`, and was forwarded by it, does not say so any more. -/
theorem roundTrips_fails : ∃ s data,
    (sessionStoreSystem plainExports).run [.onRoomKeyEvent (exampleKeyEvent true)] = some s ∧
      s.sessions "ALICE" "K" = some data ∧ data.chain = ["BOB"] ∧
      ¬ RoundTrips plainExports "ALICE" "K" data := by
  refine ⟨_, _, rfl, rfl, rfl, fun hround => ?_⟩
  have hnil := importedWith_unique plainExports_exports (by rfl) (by rfl)
    (hround .exportRoomKeys .empty rfl)
  exact List.cons_ne_nil _ _ hnil

/-- One that came directly from `BOB` comes out as it was. -/
theorem roundTrips_iff_direct : ∃ s data,
    (sessionStoreSystem plainExports).run [.onRoomKeyEvent (exampleKeyEvent false)] = some s ∧
      s.sessions "BOB" "K" = some data ∧ RoundTrips plainExports "BOB" "K" data := by
  refine ⟨_, _, rfl, rfl, ?_⟩
  have hrun : (sessionStoreSystem plainExports).Trace _ _ :=
    System.Trace.start.snoc (e := .onRoomKeyEvent (exampleKeyEvent false)) rfl
  exact (roundTrips_iff plainExports_exports hrun rfl).2.2 rfl

end Model

end MatrixSdk.Crypto
