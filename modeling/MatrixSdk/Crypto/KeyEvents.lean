/-
Room keys that arrive in to-device events: from the event the server delivers to the
session that is stored (`_onToDeviceEvent` and `_onRoomKeyEvent` of `crypto/index.js`,
`OlmDecryption` and `MegolmDecryption` in `crypto/algorithms`, the group sessions of
`crypto/OlmDevice.js`, `attemptDecryption` of `models/event.js`).

A key is stored under the sender key of the event that brings it. For an event
decrypted with Olm this is the key of the device the session is with. But an event
is decrypted with the algorithm it names itself, so a to-device event can be one of
Megolm, whose sender key is that of a session somebody has told us about.

What Olm makes of a message is not computed here: it comes with the step that decrypts
it, as what `JSON.parse` makes of the plaintext. Of an error only the code is kept.
-/
import MatrixSdk.Crypto.GroupSessions

set_option autoImplicit false

namespace MatrixSdk.Crypto

open MatrixSdk.Lib

/-! ## Events -/

/-- The event types that are told apart. -/
inductive ToDeviceType
  | roomKey
  | forwardedRoomKey
  | roomKeyRequest
  | secretRequest
  | secretSend
  | roomKeyWithheld
  | encrypted
  | message
  | other (name : String)
  deriving DecidableEq

/-- "m.olm.v1.curve25519-aes-sha2" and "m.megolm.v1.aes-sha2". -/
inductive Algorithm
  | olm
  | megolm
  | other (name : String)
  deriving DecidableEq

/-- A ciphertext: nothing, a string, or an object with a message for each recipient. -/
inductive Ciphertext
  | missing
  | group (body : String)
  | olm (recipients : List String)

/-- The ciphertext of a group session. -/
def Ciphertext.body? : Ciphertext → Option String
  | .group body => some body
  | _ => none

theorem Ciphertext.body?_eq_some {ciphertext : Ciphertext} {body : String} :
    ciphertext.body? = some body ↔ ciphertext = .group body := by
  cases ciphertext <;> simp [Ciphertext.body?]

/-- The fields of a content that are read. -/
structure KeyContent where
  algorithm : Option Algorithm
  roomId : Option String
  sessionId : Option String
  sessionKey : Option String
  senderKey : Option String
  ciphertext : Ciphertext
  forwardingCurve25519KeyChain : Option (List String)
  senderClaimedEd25519Key : Option String
  transactionId : Option String
  msgtype : Option String

/-- `{}`. -/
def KeyContent.empty : KeyContent :=
  ⟨none, none, none, none, none, .missing, none, none, none, none⟩

/-- A plaintext. `recipientKeys` is the ed25519 key in it, if it is an object. -/
structure Payload where
  type : Option ToDeviceType
  content : Option KeyContent
  roomId : RoomIdField
  sender : Option String
  recipient : Option String
  recipientKeys : Option (Option String)
  claimedEd25519Key : Option String

/-- `{}`. -/
def Payload.empty : Payload := ⟨none, none, .undefined, none, none, none, none⟩

/-- A to-device event as the server delivers it. -/
structure ToDeviceEvent where
  type : ToDeviceType
  isState : Bool
  roomId : RoomIdField
  sender : Option String
  eventId : Option String
  originServerTs : Option ℕ
  isRedacted : Bool
  content : Option KeyContent

/-- The session that has decrypted an event. -/
inductive DecryptedBy
  /-- An Olm session with the device that has this curve25519 key. -/
  | olm (deviceKey : Option String)
  | megolm (senderKey sessionId : String)
  deriving DecidableEq

/-- A `MatrixEvent`, and what has decrypted it. -/
structure MatrixEvent where
  event : ToDeviceEvent
  clearEvent : Payload
  senderCurve25519Key : Option String
  claimedEd25519Key : Option String
  forwardingCurve25519KeyChain : List String
  decryptedBy : Option DecryptedBy

namespace MatrixEvent

/-- The constructor. -/
def new (event : ToDeviceEvent) : MatrixEvent := ⟨event, .empty, none, none, [], none⟩

def getType (ev : MatrixEvent) : ToDeviceType := ev.clearEvent.type.getD ev.event.type

def getWireContent (ev : MatrixEvent) : KeyContent := ev.event.content.getD .empty

def getContent (ev : MatrixEvent) : KeyContent := ev.clearEvent.content.getD ev.getWireContent

def isEncrypted (ev : MatrixEvent) : Bool :=
  !ev.event.isState && ev.event.type = .encrypted

end MatrixEvent

/-! ## Decrypting -/

/-- What decrypting an event gives. -/
structure DecryptionResult where
  clearEvent : Payload
  senderCurve25519Key : Option String
  claimedEd25519Key : Option String
  forwardingCurve25519KeyChain : List String
  decryptedBy : Option DecryptedBy

/-- An exception: a `DecryptionError` with its code, or another one. -/
inductive DecryptFailure
  | decryptionError (code : String)
  | other
  deriving DecidableEq

/-- Our account. -/
structure OwnKeys where
  userId : String
  curve25519 : String
  ed25519 : String

/-- `OlmDecryption.decryptEvent`. `plaintext` is what the sessions with the device make of the
message: nothing, or a string that `JSON.parse` makes a payload or nothing of. -/
def olmDecryptEvent (own : OwnKeys) (ev : MatrixEvent) (plaintext : Option (Option Payload)) :
    Except DecryptFailure DecryptionResult :=
  let content := ev.getWireContent
  match content.ciphertext with
  | .missing => .error (.decryptionError "OLM_MISSING_CIPHERTEXT")
  | .group _ => .error .other
  | .olm recipients =>
    if own.curve25519 ∉ recipients then
      .error (.decryptionError "OLM_NOT_INCLUDED_IN_RECIPIENTS")
    else
      match plaintext with
      | none => .error (.decryptionError "OLM_BAD_ENCRYPTED_MESSAGE")
      | some none => .error .other
      | some (some payload) =>
        if payload.recipient ≠ some own.userId then
          .error (.decryptionError "OLM_BAD_RECIPIENT")
        else
          match payload.recipientKeys with
          | none => .error .other
          | some key =>
            if key ≠ some own.ed25519 then .error (.decryptionError "OLM_BAD_RECIPIENT_KEY")
            else if payload.sender ≠ ev.event.sender then
              .error (.decryptionError "OLM_FORWARDED_MESSAGE")
            else if payload.roomId ≠ ev.event.roomId then
              .error (.decryptionError "OLM_BAD_ROOM")
            else
              .ok
                { clearEvent := payload
                  senderCurve25519Key := content.senderKey
                  claimedEd25519Key := truthy payload.claimedEd25519Key
                  forwardingCurve25519KeyChain := []
                  decryptedBy := some (.olm content.senderKey) }

/-- A key on its way into the store, and the event that brought it. -/
structure KeyEvent where
  event : MatrixEvent
  newSession : NewSession

/-- What the device keeps. `stored` are the keys that key events have stored. -/
structure KeyState (Session : Type) where
  store : GroupSessionStore Session
  decrypting : List MatrixEvent
  storing : List KeyEvent
  stored : List KeyEvent

section Model

variable {Session : Type} (olm : GroupSessions Session (Option Payload)) {ev : MatrixEvent}
  {plaintext : Option (Option Payload)} {res : DecryptionResult} {s : GroupSessionStore Session}

/-- The message in an event, when it names a sender key and a session. -/
def MatrixEvent.groupMessage (ev : MatrixEvent) (senderKey sessionId : String) : GroupMessage :=
  ⟨ev.event.roomId, senderKey, sessionId, ev.getWireContent.ciphertext.body?, ev.event.eventId,
    ev.event.originServerTs⟩

/-- `MegolmDecryption.decryptEvent`. -/
def megolmDecryptEvent (s : GroupSessionStore Session) (ev : MatrixEvent) :
    Except DecryptFailure DecryptionResult × GroupSessionStore Session :=
  let content := ev.getWireContent
  match truthy content.senderKey, truthy content.sessionId, content.ciphertext with
  | none, _, _ | _, none, _ | _, _, .missing =>
    (.error (.decryptionError "MEGOLM_MISSING_FIELDS"), s)
  | some senderKey, some sessionId, _ =>
    match decryptGroupMessage olm s (ev.groupMessage senderKey sessionId) with
    | (.error .withheld, s) => (.error (.decryptionError "MEGOLM_UNKNOWN_INBOUND_SESSION_ID"), s)
    | (.error (.error message), s) =>
      (.error (.decryptionError (if message = "OLM.UNKNOWN_MESSAGE_INDEX" then
        "OLM_UNKNOWN_MESSAGE_INDEX" else "OLM_DECRYPT_GROUP_MESSAGE_ERROR")), s)
    | (.ok none, s) => (.error (.decryptionError "MEGOLM_UNKNOWN_INBOUND_SESSION_ID"), s)
    | (.ok (some ⟨none, _, _⟩), s) => (.error .other, s)
    | (.ok (some ⟨some payload, _, data⟩), s) =>
      -- "belt-and-braces check that the room id matches that indicated by the HS"
      if payload.roomId ≠ ev.event.roomId then (.error (.decryptionError "MEGOLM_BAD_ROOM"), s)
      else
        let res : DecryptionResult :=
          { clearEvent := payload
            senderCurve25519Key := some senderKey
            claimedEd25519Key := data.keysClaimed
            forwardingCurve25519KeyChain := data.forwardingCurve25519KeyChain
            decryptedBy := some (.megolm senderKey sessionId) }
        (.ok res, s)

/-- `Crypto.decryptEvent`: the algorithm is the one the content names. -/
def decryptEvent (own : OwnKeys) (s : GroupSessionStore Session) (ev : MatrixEvent)
    (plaintext : Option (Option Payload)) :
    Except DecryptFailure DecryptionResult × GroupSessionStore Session :=
  if ev.event.isRedacted then
    let clearEvent := { Payload.empty with
      roomId := ev.event.roomId, type := some .message, content := some .empty }
    (.ok ⟨clearEvent, none, none, [], none⟩, s)
  else
    match ev.getWireContent.algorithm with
    | some .olm => (olmDecryptEvent own ev plaintext, s)
    | some .megolm => megolmDecryptEvent olm s ev
    | _ => (.error (.decryptionError "UNKNOWN_ENCRYPTION_ALGORITHM"), s)

/-- `_setClearData`. -/
def MatrixEvent.setClearData (ev : MatrixEvent) (res : DecryptionResult) : MatrixEvent :=
  { ev with
    clearEvent := res.clearEvent
    senderCurve25519Key := truthy res.senderCurve25519Key
    claimedEd25519Key := truthy res.claimedEd25519Key
    forwardingCurve25519KeyChain := res.forwardingCurve25519KeyChain
    decryptedBy := res.decryptedBy }

/-- `_badEncryptedMessage`. -/
def badEncryptedMessage : DecryptionResult :=
  ⟨{ Payload.empty with
    type := some .message, content := some { KeyContent.empty with msgtype := "m.bad.encrypted" } },
    none, none, [], none⟩

/-! ## Handling a key -/

/-- `MegolmDecryption.onRoomKeyEvent`, up to the call of `addInboundGroupSession`. -/
def megolmOnRoomKeyEvent (ev : MatrixEvent) : Option NewSession :=
  let content := ev.getContent
  match truthy content.roomId, truthy content.sessionId, truthy content.sessionKey,
      truthy ev.senderCurve25519Key with
  | some roomId, some sessionId, some sessionKey, some senderKey =>
    if ev.getType = .forwardedRoomKey then
      let forwardingKeyChain := content.forwardingCurve25519KeyChain.getD [] ++ [senderKey]
      match truthy content.senderKey, truthy content.senderClaimedEd25519Key with
      | some senderKey, some ed25519Key =>
        some ⟨roomId, senderKey, forwardingKeyChain, sessionId, sessionKey, some ed25519Key, true⟩
      | _, _ => none
    else
      some ⟨roomId, senderKey, [], sessionId, sessionKey, ev.claimedEd25519Key, false⟩
  | _, _, _, _ => none

/-- `Crypto._onRoomKeyEvent`; the decryptor of another algorithm does nothing. -/
def onRoomKeyEvent (ev : MatrixEvent) : Option NewSession :=
  let content := ev.getContent
  match truthy content.roomId, content.algorithm with
  | some _, some .megolm => megolmOnRoomKeyEvent ev
  | _, _ => none

/-- What `_onToDeviceEvent` does with an event. -/
inductive Dispatch
  | roomKey (newSession : Option NewSession)
  | awaitDecryption
  | elsewhere

/-- `_onToDeviceEvent`. -/
def onToDeviceEvent (ev : MatrixEvent) (isBeingDecrypted : Bool) : Dispatch :=
  match ev.getType with
  | .roomKey => .roomKey (onRoomKeyEvent ev)
  | .forwardedRoomKey => .roomKey (onRoomKeyEvent ev)
  | .roomKeyRequest => .elsewhere
  | .secretRequest => .elsewhere
  | .secretSend => .elsewhere
  | .roomKeyWithheld => .elsewhere
  | _ =>
    if (truthy ev.getContent.transactionId).isSome then .elsewhere
    else if ev.getContent.msgtype = some "m.bad.encrypted" then .elsewhere
    else if isBeingDecrypted then .awaitDecryption
    else .elsewhere

/-- The event has been dispatched. -/
def KeyState.dispatched (s : KeyState Session) (ev : MatrixEvent) (dispatch : Dispatch) :
    KeyState Session :=
  match dispatch with
  | .roomKey (some newSession) => { s with storing := s.storing ++ [⟨ev, newSession⟩] }
  | .awaitDecryption => { s with decrypting := s.decrypting ++ [ev] }
  | _ => s

/-! ## The system -/

inductive KeyStep (Session : Type)
  /-- The server delivers a to-device event. -/
  | deliver (event : ToDeviceEvent)
  /-- An event that waits is decrypted. If this fails it is tried again when the retry flag has
  been set meanwhile. -/
  | decrypt (i : ℕ) (plaintext : Option (Option Payload)) (retry : Bool)
  /-- The transaction of a call of `addInboundGroupSession` runs. -/
  | store (i : ℕ)
  /-- An event of a room is decrypted. -/
  | decryptRoomEvent (ev : MatrixEvent)
  /-- A session comes or goes in another way: from a backup, an import, one of our own. -/
  | otherSession (senderKey sessionId : String) (data : Option (InboundGroupSessionData Session))
  | withhold (senderKey sessionId : String)

/-- The event has been decrypted, and the listener of `_onToDeviceEvent` gets it. -/
def KeyState.decrypted (s : KeyState Session) (i : ℕ) (ev : MatrixEvent) (res : DecryptionResult) :
    KeyState Session :=
  let ev := ev.setClearData res
  { s with decrypting := s.decrypting.eraseIdx i }.dispatched ev (onToDeviceEvent ev false)

def keySystem (own : OwnKeys) : System (KeyState Session) (KeyStep Session) where
  init := ⟨.empty, [], [], []⟩
  step s
    | .deliver event =>
      let ev := MatrixEvent.new event
      some (s.dispatched ev (onToDeviceEvent ev ev.isEncrypted))
    | .decrypt i plaintext retry =>
      match s.decrypting[i]? with
      | none => none
      | some ev =>
        let (res, store) := decryptEvent olm own s.store ev plaintext
        let s := { s with store := store }
        match res with
        | .ok res => some (s.decrypted i ev res)
        | .error (.decryptionError _) =>
          if retry then some s else some (s.decrypted i ev badEncryptedMessage)
        -- not a decryption error: the event stays as it is, and so does its listener
        | .error .other => some s
    | .store i =>
      match s.storing[i]? with
      | none => none
      | some key =>
        let storing := s.storing.eraseIdx i
        match addInboundGroupSession olm s.store key.newSession with
        | .ok (some data) =>
          let new := key.newSession
          let store := s.store.setSession new.senderKey new.sessionId (some data)
          some { s with store := store, storing := storing, stored := s.stored ++ [key] }
        | _ => some { s with storing := storing }
    | .decryptRoomEvent ev => some { s with store := (megolmDecryptEvent olm s.store ev).2 }
    | .otherSession senderKey sessionId data =>
      some { s with store := s.store.setSession senderKey sessionId data }
    | .withhold senderKey sessionId =>
      some { s with store := s.store.setWithheld senderKey sessionId }

/-! ## What an event is decrypted to -/

/-- An event decrypted with Olm is of the device that the session is with. -/
theorem olmDecryptEvent_ok {own : OwnKeys} (h : olmDecryptEvent own ev plaintext = .ok res) :
    res.decryptedBy = some (.olm res.senderCurve25519Key) := by
  unfold olmDecryptEvent at h
  dsimp only at h
  -- every branch but the last one throws
  repeat' split at h
  all_goals cases h
  rfl

/-- **Megolm decrypts an event to a payload**: the session that its content names opens it, and
the payload is for the room of the event. -/
def MegolmOpens (s : GroupSessionStore Session) (ev : MatrixEvent) (senderKey : String)
    (payload : Payload) : Prop :=
  ∃ sessionId messageIndex,
    truthy ev.getWireContent.senderKey = some senderKey ∧
    truthy ev.getWireContent.sessionId = some sessionId ∧
    s.Opens olm (ev.groupMessage senderKey sessionId) (some payload) messageIndex ∧
    payload.roomId = ev.event.roomId

theorem megolmDecryptEvent_ok (h : (megolmDecryptEvent olm s ev).1 = .ok res) :
    ∃ senderKey, res.senderCurve25519Key = some senderKey ∧
      MegolmOpens olm s ev senderKey res.clearEvent := by
  unfold megolmDecryptEvent at h
  dsimp only at h
  split at h
  · cases h
  · cases h
  · cases h
  · rename_i senderKey sessionId hsender hsession _
    split at h
    · cases h
    · cases h
    · cases h
    · cases h
    next payload index data t heq =>
      split_ifs at h with hroom
      obtain rfl := Except.ok.inj h
      have hopen := (decryptGroupMessage_ok_iff olm).1 ⟨data, congrArg Prod.fst heq⟩
      exact ⟨senderKey, rfl, sessionId, index, hsender, hsession, hopen, not_not.1 hroom⟩

theorem MegolmOpens.decryptEvent {senderKey : String} {payload : Payload}
    (h : MegolmOpens olm s ev senderKey payload) :
    ∃ res, (megolmDecryptEvent olm s ev).1 = .ok res ∧ res.clearEvent = payload ∧
      res.senderCurve25519Key = some senderKey ∧
      ∃ sessionId, res.decryptedBy = some (.megolm senderKey sessionId) := by
  obtain ⟨sessionId, index, hsender, hsession, hopen, hroom⟩ := h
  obtain ⟨data, hdata⟩ := (decryptGroupMessage_ok_iff olm).2 hopen
  obtain ⟨_, message, _, -, -, hbody, -⟩ := hopen
  have hcipher := Ciphertext.body?_eq_some.1 hbody
  obtain ⟨t, ht⟩ : ∃ t, decryptGroupMessage olm s (ev.groupMessage senderKey sessionId) =
      (.ok (some ⟨some payload, index, data⟩), t) := ⟨_, Prod.ext hdata rfl⟩
  let res : DecryptionResult :=
    ⟨payload, some senderKey, data.keysClaimed, data.forwardingCurve25519KeyChain,
      some (.megolm senderKey sessionId)⟩
  refine ⟨res, ?_, rfl, rfl, sessionId, rfl⟩
  simp only [megolmDecryptEvent, hsender, hsession, hcipher, ht, hroom, ne_eq, not_true_eq_false,
    if_false, res]

/-- **What decrypts an event**: nothing, a session with the device of its sender key, or the
Megolm session that its content names. -/
theorem decryptEvent_ok {own : OwnKeys} (h : (decryptEvent olm own s ev plaintext).1 = .ok res) :
    res.senderCurve25519Key = none ∨
    res.decryptedBy = some (.olm res.senderCurve25519Key) ∨
    (ev.event.isRedacted = false ∧ ev.getWireContent.algorithm = some .megolm ∧
      ∃ senderKey, MegolmOpens olm s ev senderKey res.clearEvent) := by
  unfold decryptEvent at h
  split_ifs at h with hredacted
  · obtain rfl := Except.ok.inj h
    exact .inl rfl
  · split at h
    · exact .inr (.inl (olmDecryptEvent_ok h))
    · rename_i halg
      obtain ⟨senderKey, -, hopen⟩ := megolmDecryptEvent_ok olm h
      exact .inr (.inr ⟨Bool.eq_false_iff.2 hredacted, halg, senderKey, hopen⟩)
    · cases h

/-! ## What a key event stores -/

/-- What a room key event needs to have in it. -/
def KeyContent.CarriesKey (content : KeyContent) : Prop :=
  content.algorithm = some .megolm ∧ (truthy content.roomId).isSome ∧
    (truthy content.sessionId).isSome ∧ (truthy content.sessionKey).isSome

/-- A room key goes under the sender key of the event, without a forwarding chain. -/
theorem onRoomKeyEvent_roomKey (hty : ev.getType = .roomKey) {new : NewSession}
    (h : onRoomKeyEvent ev = some new) :
    truthy ev.senderCurve25519Key = some new.senderKey ∧ new.forwardingKeyChain = [] ∧
      ev.getContent.CarriesKey := by
  unfold onRoomKeyEvent at h
  dsimp only at h
  split at h
  · rename_i roomId hroom halg
    unfold megolmOnRoomKeyEvent at h
    dsimp only at h
    split at h
    · rename_i roomId' sessionId sessionKey senderKey hroom' hsession hkey hsender
      rw [if_neg (by rw [hty]; decide)] at h
      obtain rfl := Option.some.inj h
      refine ⟨hsender, rfl, halg, ?_, ?_, ?_⟩
      · rw [hroom, Option.isSome_some]
      · rw [hsession, Option.isSome_some]
      · rw [hkey, Option.isSome_some]
    · cases h
  · cases h

theorem onRoomKeyEvent_eq_none (h : truthy ev.senderCurve25519Key = none) :
    onRoomKeyEvent ev = none := by
  unfold onRoomKeyEvent
  dsimp only
  split
  · unfold megolmOnRoomKeyEvent
    dsimp only
    split
    · rename_i hsender
      rw [h] at hsender
      cases hsender
    · rfl
  · rfl

/-! ## Keys under the key of the device that sent them -/

/-- A room key that is kept without a forwarding chain has come over an Olm session with the
device that it is kept under. -/
def KeyEvent.FromSender (key : KeyEvent) : Prop :=
  key.event.getType = .roomKey → key.newSession.forwardingKeyChain = [] →
    key.event.decryptedBy = some (.olm (some key.newSession.senderKey))

/-- An event that Megolm decrypts to a room key. -/
def RoomKeyOverMegolm (s : GroupSessionStore Session) (ev : MatrixEvent) : Prop :=
  ev.event.isRedacted = false ∧ ev.getWireContent.algorithm = some .megolm ∧
    ∃ senderKey payload, MegolmOpens olm s ev senderKey payload ∧
      payload.type = some .roomKey ∧ (payload.content.getD ev.getWireContent).CarriesKey

/-- The event that is decrypted, if one is, is no room key over Megolm. -/
def NoRoomKeyOverMegolm (s : KeyState Session) : KeyStep Session → Prop
  | .decrypt i _ _ => ∀ ev ∈ s.decrypting[i]?, ¬ RoomKeyOverMegolm olm s.store ev
  | _ => True

/-- What holds along the runs: only encrypted events wait, and all keys, stored or not yet, are
from their senders. -/
structure KeyState.KeysFromSenders (s : KeyState Session) : Prop where
  encrypted : ∀ ev ∈ s.decrypting, ev.event.type = .encrypted
  storing : ∀ key ∈ s.storing, key.FromSender
  stored : ∀ key ∈ s.stored, key.FromSender

/-- To dispatch an event preserves it, if the key in the event is from its sender. -/
theorem KeyState.KeysFromSenders.dispatched {s : KeyState Session} (h : s.KeysFromSenders)
    {isBeingDecrypted : Bool} (hencrypted : isBeingDecrypted = true → ev.event.type = .encrypted)
    (hkey : ∀ new, onRoomKeyEvent ev = some new → KeyEvent.FromSender ⟨ev, new⟩) :
    (s.dispatched ev (onToDeviceEvent ev isBeingDecrypted)).KeysFromSenders := by
  have hroomKey : (s.dispatched ev (.roomKey (onRoomKeyEvent ev))).KeysFromSenders := by
    cases hnew : onRoomKeyEvent ev with
    | none => exact h
    | some new =>
      refine ⟨h.encrypted, fun key hmem => ?_, h.stored⟩
      rcases List.mem_append.1 hmem with hmem | hmem
      · exact h.storing key hmem
      · rw [List.mem_singleton.1 hmem]
        exact hkey new hnew
  unfold onToDeviceEvent
  split
  · exact hroomKey
  · exact hroomKey
  all_goals try exact h
  split_ifs with htransaction hbad hdecrypting
  · exact h
  · exact h
  · refine ⟨fun ev' hmem => ?_, h.storing, h.stored⟩
    rcases List.mem_append.1 hmem with hmem | hmem
    · exact h.encrypted ev' hmem
    · rw [List.mem_singleton.1 hmem]
      exact hencrypted hdecrypting
  · exact h

theorem KeyState.KeysFromSenders.decrypted {s : KeyState Session} (h : s.KeysFromSenders) {i : ℕ}
    (hkey : ∀ new, onRoomKeyEvent (ev.setClearData res) = some new →
      KeyEvent.FromSender ⟨ev.setClearData res, new⟩) : (s.decrypted i ev res).KeysFromSenders := by
  have hs : ({ s with decrypting := s.decrypting.eraseIdx i } : KeyState Session).KeysFromSenders :=
    ⟨fun ev' hmem => h.encrypted ev' (List.mem_of_mem_eraseIdx hmem), h.storing, h.stored⟩
  exact hs.dispatched (fun hfalse => nomatch hfalse) hkey

/-- A room key in an event that has been decrypted is from its sender, unless Megolm has decrypted
the event. -/
theorem fromSender_of_decryptEvent {own : OwnKeys} (henc : ev.event.type = .encrypted)
    (hmegolm : ¬ RoomKeyOverMegolm olm s ev) (h : (decryptEvent olm own s ev plaintext).1 = .ok res)
    {new : NewSession} (hnew : onRoomKeyEvent (ev.setClearData res) = some new) :
    KeyEvent.FromSender ⟨ev.setClearData res, new⟩ := by
  intro hty _
  obtain ⟨hsender, -, hcarries⟩ := onRoomKeyEvent_roomKey hty hnew
  have hsender' : res.senderCurve25519Key = some new.senderKey :=
    truthy_eq_some (truthy_eq_some hsender)
  rcases decryptEvent_ok olm h with hnone | holm | ⟨hredacted, halg, senderKey, hopen⟩
  · rw [hnone] at hsender'
    cases hsender'
  · change res.decryptedBy = _
    rw [holm, hsender']
  · have htype : res.clearEvent.type = some .roomKey := by
      have hget : res.clearEvent.type.getD ev.event.type = .roomKey := hty
      cases hclear : res.clearEvent.type with
      | none =>
        rw [hclear, Option.getD_none, henc] at hget
        cases hget
      | some type =>
        rw [hclear, Option.getD_some] at hget
        rw [hget]
    exact absurd ⟨hredacted, halg, senderKey, res.clearEvent, hopen, htype, hcarries⟩ hmegolm

/-- A step preserves it, unless it decrypts a room key with Megolm. -/
theorem keysFromSenders_step {own : OwnKeys} {s : KeyState Session} {e : KeyStep Session}
    {s' : KeyState Session} (h : s.KeysFromSenders) (he : NoRoomKeyOverMegolm olm s e)
    (hse : (keySystem olm own).step s e = some s') : s'.KeysFromSenders := by
  -- whatever happens to the store alone
  have hstore : ∀ store, ({ s with store := store } : KeyState Session).KeysFromSenders :=
    fun _ => ⟨h.encrypted, h.storing, h.stored⟩
  cases e with
  | deliver event =>
    obtain rfl := Option.some.inj hse
    refine h.dispatched (fun henc => ?_) fun new hnew => ?_
    · exact of_decide_eq_true (Bool.and_eq_true_iff.1 henc).2
    · -- nothing has been decrypted yet
      rw [onRoomKeyEvent_eq_none rfl] at hnew
      cases hnew
  | decrypt i plaintext retry =>
    simp only [keySystem] at hse
    split at hse
    · cases hse
    · rename_i ev hev
      have henc : ev.event.type = .encrypted := h.encrypted ev (List.mem_of_getElem? hev)
      split at hse
      next res heq =>
        obtain rfl := Option.some.inj hse
        exact (hstore _).decrypted fun new hnew =>
          fromSender_of_decryptEvent olm henc (he ev hev) heq hnew
      · split_ifs at hse
        · exact Option.some.inj hse ▸ hstore _
        · obtain rfl := Option.some.inj hse
          refine (hstore _).decrypted fun new hnew => ?_
          rw [onRoomKeyEvent_eq_none rfl] at hnew
          cases hnew
      · exact Option.some.inj hse ▸ hstore _
  | store i =>
    simp only [keySystem] at hse
    split at hse
    · cases hse
    · rename_i key hkey
      have hstoring : ∀ key' ∈ s.storing.eraseIdx i, key'.FromSender :=
        fun key' hmem => h.storing key' (List.mem_of_mem_eraseIdx hmem)
      split at hse
      · obtain rfl := Option.some.inj hse
        refine ⟨h.encrypted, hstoring, fun key' hmem => ?_⟩
        rcases List.mem_append.1 hmem with hmem | hmem
        · exact h.stored key' hmem
        · rw [List.mem_singleton.1 hmem]
          exact h.storing key (List.mem_of_getElem? hkey)
      · obtain rfl := Option.some.inj hse
        exact ⟨h.encrypted, hstoring, h.stored⟩
  | decryptRoomEvent ev => exact Option.some.inj hse ▸ hstore _
  | otherSession senderKey sessionId data => exact Option.some.inj hse ▸ hstore _
  | withhold senderKey sessionId => exact Option.some.inj hse ▸ hstore _

/-- **Room keys come from the device that they are kept under**, along the runs that decrypt no
room key with Megolm. -/
theorem stored_fromSender {own : OwnKeys} {s : KeyState Session}
    (h : (keySystem olm own).ReachableUnder (NoRoomKeyOverMegolm olm) s) :
    ∀ key ∈ s.stored, key.FromSender := by
  have hinv : s.KeysFromSenders := by
    refine h.invariant ⟨?_, ?_, ?_⟩ fun s e s' hs he hse => keysFromSenders_step olm hs he hse
    all_goals exact fun _ hmem => absurd hmem List.not_mem_nil
  exact hinv.stored

end Model

/-! Two runs of a device of Bob: Alice's device sends him a room key; Mallory, who has forwarded a
session of her own making as Alice's, then sends one in that session. -/

section Examples

def bob : OwnKeys := ⟨"@bob:a", "bob", "bobEd"⟩

/-- Group sessions of which a key, and a message, is the id of the session. The plaintext of each
message is the room key of the session "second". -/
def exampleSessions (payload : Payload) : GroupSessions String (Option Payload) where
  create key := some key
  importSession key := some key
  sessionId session := session
  firstKnownIndex _ := 0
  decrypt session message :=
    if session = message then .ok (some payload, some 0, session)
    else .error "OLM.BAD_MESSAGE_MAC"

/-- The content of a room key, and of one that is forwarded for Alice. -/
def keyContent (sessionId : String) : KeyContent :=
  { KeyContent.empty with
    algorithm := some .megolm, roomId := "!room:a", sessionId := sessionId, sessionKey := sessionId
    senderKey := "alice", senderClaimedEd25519Key := "aliceEd" }

/-- What a device sends over Olm. -/
def olmPayload (type : ToDeviceType) (sender : String) (content : KeyContent) : Payload :=
  { Payload.empty with
    type := type, content := content, sender := sender, recipient := bob.userId
    recipientKeys := some bob.ed25519 }

/-- An event encrypted with Olm for Bob. -/
def olmEvent (sender senderKey : String) : ToDeviceEvent :=
  { type := .encrypted, isState := false, roomId := .undefined, sender := sender
    eventId := none, originServerTs := none, isRedacted := false
    content := some { KeyContent.empty with
      algorithm := some .olm, senderKey := senderKey, ciphertext := .olm [bob.curve25519] } }

/-- An event encrypted with the session that Mallory has forwarded, delivered for the room. -/
def megolmEvent : ToDeviceEvent :=
  { type := .encrypted, isState := false, roomId := .id "!room:a", sender := "@mallory:a"
    eventId := none, originServerTs := none, isRedacted := false
    content := some { KeyContent.empty with
      algorithm := some .megolm, senderKey := "alice", sessionId := "first"
      ciphertext := .group "first" } }

/-- The room key that Mallory sends in the session. -/
def megolmPayload : Payload :=
  { Payload.empty with
    type := some .roomKey, content := some (keyContent "second"), roomId := .id "!room:a" }

def exampleKeySystem : System (KeyState String) (KeyStep String) :=
  keySystem (exampleSessions megolmPayload) bob

def sendRoomKey : List (KeyStep String) :=
  [.deliver (olmEvent "@alice:a" "alice"),
    .decrypt 0 (some (some (olmPayload .roomKey "@alice:a" (keyContent "first")))) false,
    .store 0]

theorem sendRoomKey_runs : (exampleKeySystem.run sendRoomKey).isSome := by decide

def sendRoomKeyOverMegolm : List (KeyStep String) :=
  [.deliver (olmEvent "@mallory:a" "mallory"),
    .decrypt 0 (some (some (olmPayload .forwardedRoomKey "@mallory:a" (keyContent "first")))) false,
    .store 0,
    .deliver megolmEvent,
    .decrypt 0 none false,
    .store 0]

theorem sendRoomKeyOverMegolm_runs : (exampleKeySystem.run sendRoomKeyOverMegolm).isSome := by
  decide

theorem stored_fromSender_sendRoomKey :
    ((exampleKeySystem.run sendRoomKey).get sendRoomKey_runs).stored.length = 1 ∧
      ((exampleKeySystem.run sendRoomKey).get sendRoomKey_runs).stored.Forall
        KeyEvent.FromSender := by
  refine ⟨by decide, List.forall_iff_forall_mem.2 ?_⟩
  refine stored_fromSender (exampleSessions megolmPayload)
    ⟨_, System.trace_get sendRoomKey_runs, ?_⟩
  change ∀ q ∈ [_, _, _], _
  simp only [List.forall_mem_cons]
  refine ⟨trivial, ?_, trivial, fun q hq => absurd hq List.not_mem_nil⟩
  -- the event names Olm
  rintro ev hev ⟨-, halg, -⟩
  obtain rfl := Option.some.inj hev
  cases halg

/-- Not along all runs: the room key of Mallory is stored under Alice's key. -/
theorem stored_fromSender_fails :
    ¬ ∀ s, exampleKeySystem.Reachable s → ∀ key ∈ s.stored, key.FromSender := by
  intro h
  have hkeys := h _ (System.reachable_get sendRoomKeyOverMegolm_runs)
  have hlast := hkeys _ (List.getLast_mem (l := (((exampleKeySystem.run sendRoomKeyOverMegolm).get
    sendRoomKeyOverMegolm_runs).stored)) (by decide))
  exact absurd (hlast rfl rfl) (by decide)

end Examples

end MatrixSdk.Crypto
