/-
Inbound group sessions: `addInboundGroupSession` and `decryptGroupMessage` of
`crypto/OlmDevice.js`.

A message that has been decrypted is remembered by the index it has in its session, with the
event it came in, and no other event with that index is decrypted
([`groupMessage_once`]). The event itself can be decrypted again
([`groupMessage_again`]).
-/
import MatrixSdk.Crypto.DeviceInfo
import MatrixSdk.Lib.System
import Mathlib.Data.Nat.Notation

set_option autoImplicit false

namespace MatrixSdk.Crypto

open MatrixSdk.Lib

/-- A `room_id`: not there, `null`, or a string. -/
inductive RoomIdField
  | undefined
  | null
  | id (roomId : String)
  deriving DecidableEq

/-- A room id in a message. -/
def RoomIdField.text : RoomIdField → String
  | .undefined => "undefined"
  | .null => "null"
  | .id roomId => roomId

/-- The group sessions of the Olm library. A function that throws gives nothing, or the
message of the exception. -/
structure GroupSessions (Session Plaintext : Type) where
  create : String → Option Session
  importSession : String → Option Session
  sessionId : Session → String
  firstKnownIndex : Session → ℕ
  /-- The plaintext, the message index, which older versions do not tell, and the session
  afterwards. -/
  decrypt : Session → String → Except String (Plaintext × Option ℕ × Session)

/-- What is stored of an inbound group session. -/
structure InboundGroupSessionData (Session : Type) where
  roomId : String
  session : Session
  keysClaimed : Option String
  forwardingCurve25519KeyChain : List String

/-- A call of `addInboundGroupSession`. -/
structure NewSession where
  roomId : String
  senderKey : String
  forwardingKeyChain : List String
  sessionId : String
  sessionKey : String
  keysClaimed : Option String
  exportFormat : Bool

/-- The stored sessions and the notes that one has been withheld, by sender key and session
id, and `_inboundGroupSessionMessageIndexes`. -/
structure GroupSessionStore (Session : Type) where
  sessions : String → String → Option (InboundGroupSessionData Session)
  withheld : String → String → Bool
  messageIndexes : String → Option (Option String × Option ℕ)

/-- An exception: a `DecryptionError` because the session has been withheld, or another. -/
inductive GroupError
  | withheld
  | error (message : String)
  deriving DecidableEq

/-- The event that a group message comes in. -/
structure GroupMessage where
  roomId : RoomIdField
  senderKey : String
  sessionId : String
  /-- The ciphertext, if it is a string. -/
  body : Option String
  eventId : Option String
  timestamp : Option ℕ

section Model

variable {Session Plaintext : Type} (olm : GroupSessions Session Plaintext)
  {s : GroupSessionStore Session} {message : GroupMessage} {messageIndex : Option ℕ}
  {data : InboundGroupSessionData Session}

namespace GroupSessionStore

def empty : GroupSessionStore Session := ⟨fun _ _ => none, fun _ _ => false, fun _ => none⟩

def setSession (s : GroupSessionStore Session) (senderKey sessionId : String)
    (data : Option (InboundGroupSessionData Session)) : GroupSessionStore Session :=
  let ofSender := Function.update (s.sessions senderKey) sessionId data
  { s with sessions := Function.update s.sessions senderKey ofSender }

/-- `addInboundGroupSessionWithheld` -/
def setWithheld (s : GroupSessionStore Session) (senderKey sessionId : String) :
    GroupSessionStore Session :=
  let ofSender := Function.update (s.withheld senderKey) sessionId true
  { s with withheld := Function.update s.withheld senderKey ofSender }

end GroupSessionStore

/-- The exception of `_getInboundGroupSession`. -/
def mismatchedRoom (expected : String) (roomId : RoomIdField) : String :=
  "Mismatched room_id for inbound group session (expected " ++ expected ++ ", was " ++
    roomId.text ++ ")"

/-- Under which key a message index is remembered. -/
def messageIndexKey (senderKey sessionId : String) (messageIndex : ℕ) : String :=
  senderKey ++ "|" ++ sessionId ++ "|" ++ toString messageIndex

/-- "Check if we have seen this message index before to detect replay attacks." The indexes
afterwards, if it is not one. -/
def checkMessageIndex (s : GroupSessionStore Session) (message : GroupMessage)
    (messageIndex : Option ℕ) :
    Except String (String → Option (Option String × Option ℕ)) :=
  match messageIndex with
  -- "Compatibility for older olm versions."
  | none => .ok s.messageIndexes
  | some messageIndex =>
    let key := messageIndexKey message.senderKey message.sessionId messageIndex
    let msgInfo := (message.eventId, message.timestamp)
    if (s.messageIndexes key).getD msgInfo ≠ msgInfo then
      .error ("Duplicate message index, possible replay attack: " ++ key)
    else .ok (Function.update s.messageIndexes key (some msgInfo))

/-- What `decryptGroupMessage` makes of a message: the plaintext, the data of the session, and
the message index, which the source keeps to itself. -/
structure GroupDecryption (Session Plaintext : Type) where
  result : Plaintext
  messageIndex : Option ℕ
  data : InboundGroupSessionData Session

/-- `decryptGroupMessage`; nothing for an unknown session. The session is put back, and the message
index is remembered with the event. -/
def decryptGroupMessage (s : GroupSessionStore Session) (message : GroupMessage) :
    Except GroupError (Option (GroupDecryption Session Plaintext)) × GroupSessionStore Session :=
  match s.sessions message.senderKey message.sessionId with
  | none =>
    if s.withheld message.senderKey message.sessionId then (.error .withheld, s) else (.ok none, s)
  | some data =>
    -- "This stops the HS pretending a message was targeting a different room."
    if message.roomId ≠ .null ∧ message.roomId ≠ .id data.roomId then
      (.error (.error (mismatchedRoom data.roomId message.roomId)), s)
    else
      match message.body with
      | none => (.error (.error "TypeError"), s)
      | some body =>
        match olm.decrypt data.session body with
        | .error e =>
          if e = "OLM.UNKNOWN_MESSAGE_INDEX" ∧ s.withheld message.senderKey message.sessionId then
            (.error .withheld, s)
          else (.error (.error e), s)
        | .ok (plaintext, messageIndex, session) =>
          match checkMessageIndex s message messageIndex with
          | .error e => (.error (.error e), s)
          | .ok messageIndexes =>
            let data := { data with session := session }
            let s := s.setSession message.senderKey message.sessionId (some data)
            (.ok (some ⟨plaintext, messageIndex, data⟩), { s with messageIndexes := messageIndexes })

/-- `addInboundGroupSession`, in its transaction: what is stored, and nothing when the session that
is there is kept. -/
def addInboundGroupSession (s : GroupSessionStore Session) (new : NewSession) :
    Except String (Option (InboundGroupSessionData Session)) :=
  let existing := s.sessions new.senderKey new.sessionId
  match existing.filter fun data => new.roomId ≠ data.roomId with
  | some data => .error (mismatchedRoom data.roomId (.id new.roomId))
  | none =>
    match (if new.exportFormat then olm.importSession else olm.create) new.sessionKey with
    | none => .error "OLM"
    | some session =>
      if new.sessionId ≠ olm.sessionId session then
        .error ("Mismatched group session ID from senderKey: " ++ new.senderKey)
      else if existing.any fun data =>
          olm.firstKnownIndex data.session ≤ olm.firstKnownIndex session then
        -- "existing session has lower index (i.e. can decrypt more), so keep it"
        .ok none
      else .ok (some ⟨new.roomId, session, new.keysClaimed, new.forwardingKeyChain⟩)

/-! ## Decrypting a message -/

theorem GroupSessionStore.setSession_sessions (s : GroupSessionStore Session)
    (senderKey sessionId : String) (data : Option (InboundGroupSessionData Session))
    (senderKey' sessionId' : String) :
    (s.setSession senderKey sessionId data).sessions senderKey' sessionId' =
      if senderKey' = senderKey ∧ sessionId' = sessionId then data
      else s.sessions senderKey' sessionId' := by
  by_cases hsender : senderKey' = senderKey
  · subst hsender
    simp only [setSession, Function.update_self, Function.update_apply, true_and]
  · simp only [setSession, Function.update_of_ne hsender, hsender, false_and, if_false]

/-- An index is not remembered, or is remembered with this event. -/
def GroupSessionStore.Fresh (s : GroupSessionStore Session) (message : GroupMessage)
    (messageIndex : Option ℕ) : Prop :=
  ∀ index ∈ messageIndex, (s.messageIndexes (messageIndexKey message.senderKey message.sessionId
    index)).getD (message.eventId, message.timestamp) = (message.eventId, message.timestamp)

theorem checkMessageIndex_ok_iff :
    (∃ messageIndexes, checkMessageIndex s message messageIndex = .ok messageIndexes) ↔
      s.Fresh message messageIndex := by
  cases messageIndex with
  | none => exact ⟨fun _ index hmem => absurd hmem (Option.not_mem_none index), fun _ => ⟨_, rfl⟩⟩
  | some index =>
    have hfresh : s.Fresh message (some index) ↔ (s.messageIndexes (messageIndexKey
        message.senderKey message.sessionId index)).getD (message.eventId, message.timestamp) =
          (message.eventId, message.timestamp) := by
      simp only [GroupSessionStore.Fresh, Option.mem_some, forall_eq']
    rw [hfresh]
    dsimp only [checkMessageIndex]
    split_ifs with hnew
    · exact ⟨fun ⟨_, h⟩ => (nomatch h), fun h => absurd h hnew⟩
    · exact ⟨fun _ => not_not.1 hnew, fun _ => ⟨_, rfl⟩⟩

/-- **What it takes to decrypt a message.** There is a session for its room that decrypts it, and
its index has not been used by another event. -/
def GroupSessionStore.Opens (s : GroupSessionStore Session) (message : GroupMessage)
    (plaintext : Plaintext) (messageIndex : Option ℕ) : Prop :=
  ∃ data body session,
    s.sessions message.senderKey message.sessionId = some data ∧
    (message.roomId = .null ∨ message.roomId = .id data.roomId) ∧
    message.body = some body ∧
    olm.decrypt data.session body = .ok (plaintext, messageIndex, session) ∧
    s.Fresh message messageIndex

/-- **What decrypting a message does.** If it fails nothing changes; else the session is put back
as Olm leaves it, and the index is remembered. -/
theorem decryptGroupMessage_cases (s : GroupSessionStore Session) (message : GroupMessage) :
    (∃ r, decryptGroupMessage olm s message = (r, s) ∧ ∀ decryption, r ≠ .ok (some decryption)) ∨
    ∃ old body plaintext messageIndex session messageIndexes,
      s.sessions message.senderKey message.sessionId = some old ∧
      (message.roomId = .null ∨ message.roomId = .id old.roomId) ∧
      message.body = some body ∧
      olm.decrypt old.session body = .ok (plaintext, messageIndex, session) ∧
      checkMessageIndex s message messageIndex = .ok messageIndexes ∧
      decryptGroupMessage olm s message =
        (.ok (some ⟨plaintext, messageIndex, { old with session := session }⟩),
          { s.setSession message.senderKey message.sessionId
              (some { old with session := session }) with messageIndexes := messageIndexes }) := by
  cases hres : decryptGroupMessage olm s message with
  | mk r t =>
    unfold decryptGroupMessage at hres
    -- a branch that fails leaves the store alone
    have hfail : ∀ {r' : Except GroupError (Option (GroupDecryption Session Plaintext))},
        (∀ decryption, r' ≠ .ok (some decryption)) → (r', s) = (r, t) →
          ∃ r', (r, t) = (r', s) ∧ ∀ decryption, r' ≠ .ok (some decryption) :=
      fun hr heq => ⟨_, heq.symm, hr⟩
    split at hres
    · split_ifs at hres
      · exact .inl (hfail (by simp) hres)
      · exact .inl (hfail (by simp) hres)
    next old hold =>
      split_ifs at hres with hroom
      · exact .inl (hfail (by simp) hres)
      · have hroom' : message.roomId = .null ∨ message.roomId = .id old.roomId := by
          by_contra hne
          exact hroom (not_or.1 hne)
        split at hres
        · exact .inl (hfail (by simp) hres)
        next body hbody =>
          split at hres
          · split_ifs at hres
            · exact .inl (hfail (by simp) hres)
            · exact .inl (hfail (by simp) hres)
          next plaintext messageIndex session hdec =>
            split at hres
            · exact .inl (hfail (by simp) hres)
            next messageIndexes hcheck =>
              exact .inr ⟨old, body, plaintext, messageIndex, session, messageIndexes, hold,
                hroom', hbody, hdec, hcheck, hres.symm⟩

theorem decryptGroupMessage_ok_iff {plaintext : Plaintext} :
    (∃ data, (decryptGroupMessage olm s message).1 =
      .ok (some ⟨plaintext, messageIndex, data⟩)) ↔
    s.Opens olm message plaintext messageIndex := by
  constructor
  · rintro ⟨data, h⟩
    rcases decryptGroupMessage_cases olm s message with
      ⟨r, heq, hr⟩ | ⟨old, body, plain, index, session, indexes, hold, hroom, hbody, hdec, hcheck, heq⟩
    · rw [heq] at h
      exact absurd h (hr _)
    · rw [heq] at h
      obtain ⟨rfl, rfl, -⟩ := GroupDecryption.mk.inj (Option.some.inj (Except.ok.inj h))
      exact ⟨old, body, session, hold, hroom, hbody, hdec, checkMessageIndex_ok_iff.1 ⟨_, hcheck⟩⟩
  · rintro ⟨old, body, session, hold, hroom, hbody, hdec, hfresh⟩
    obtain ⟨messageIndexes, hcheck⟩ := checkMessageIndex_ok_iff.2 hfresh
    have hroom' : ¬ (message.roomId ≠ .null ∧ message.roomId ≠ .id old.roomId) :=
      not_and_or.2 (hroom.imp not_not.2 not_not.2)
    refine ⟨{ old with session := session }, ?_⟩
    simp only [decryptGroupMessage, hold, if_neg hroom', hbody, hdec, hcheck]

/-- A session is replaced by one for the same room. -/
theorem addInboundGroupSession_room {new : NewSession}
    (h : addInboundGroupSession olm s new = .ok (some data)) :
    ∀ old, s.sessions new.senderKey new.sessionId = some old → old.roomId = data.roomId := by
  intro old hold
  unfold addInboundGroupSession at h
  dsimp only at h
  split at h
  · cases h
  next hroom =>
    split at h
    · cases h
    · split_ifs at h
      · exact absurd (Except.ok.inj h) (by simp)
      · obtain rfl := Option.some.inj (Except.ok.inj h)
        rw [hold, Option.filter_some] at hroom
        split_ifs at hroom with hne
        exact (not_not.1 fun hne' => hne (decide_eq_true hne')).symm

/-- A session that is stored is for the room, and has the session id, of the call. -/
theorem addInboundGroupSession_stored {new : NewSession}
    (h : addInboundGroupSession olm s new = .ok (some data)) :
    data.roomId = new.roomId ∧ olm.sessionId data.session = new.sessionId := by
  unfold addInboundGroupSession at h
  dsimp only at h
  split at h
  · cases h
  · split at h
    · cases h
    next session _ =>
      split_ifs at h with hid
      · cases Except.ok.inj h
      · obtain rfl := Option.some.inj (Except.ok.inj h)
        exact ⟨rfl, (not_not.1 hid).symm⟩

/-! ## Runs -/

/-- A message that has been decrypted, and the session that has done it, as it is put back. -/
structure GroupSuccess (Session Plaintext : Type) where
  message : GroupMessage
  session : Session
  messageIndex : Option ℕ
  result : Plaintext

/-- The store of an `OlmDevice`, and the messages it has decrypted. -/
structure GroupHistory (Session Plaintext : Type) where
  store : GroupSessionStore Session
  decrypted : List (GroupSuccess Session Plaintext)

inductive GroupStep
  | decryptGroupMessage (message : GroupMessage)
  | addInboundGroupSession (new : NewSession)
  | addInboundGroupSessionWithheld (senderKey sessionId : String)

def groupSystem : System (GroupHistory Session Plaintext) GroupStep where
  init := ⟨.empty, []⟩
  step s
    | .decryptGroupMessage message =>
      match decryptGroupMessage olm s.store message with
      | (.ok (some decryption), store) =>
        let success : GroupSuccess Session Plaintext :=
          ⟨message, decryption.data.session, decryption.messageIndex, decryption.result⟩
        some ⟨store, s.decrypted ++ [success]⟩
      | (_, store) => some { s with store := store }
    | .addInboundGroupSession new =>
      match addInboundGroupSession olm s.store new with
      | .ok (some data) =>
        some { s with store := s.store.setSession new.senderKey new.sessionId (some data) }
      | _ => some s
    | .addInboundGroupSessionWithheld senderKey sessionId =>
      some { s with store := s.store.setWithheld senderKey sessionId }

/-- Olm's `decrypt` is a function of the key of the session, which it does not change. -/
structure DecryptsByKey {Key : Type} (key : Session → Key) : Prop where
  same : ∀ {session session' after : Session} {body : String} {plaintext : Plaintext}
    {messageIndex : Option ℕ}, key session = key session' →
      olm.decrypt session body = .ok (plaintext, messageIndex, after) →
        ∃ after', olm.decrypt session' body = .ok (plaintext, messageIndex, after')
  kept : ∀ {session after : Session} {body : String} {plaintext : Plaintext}
    {messageIndex : Option ℕ}, olm.decrypt session body = .ok (plaintext, messageIndex, after) →
      key after = key session

/-- What the store keeps of a message that has been decrypted: its index is remembered with its
event, and there still is a session for its room. -/
structure GroupSuccess.Kept (success : GroupSuccess Session Plaintext)
    (s : GroupSessionStore Session) : Prop where
  remembered : ∀ index ∈ success.messageIndex,
    s.messageIndexes (messageIndexKey success.message.senderKey success.message.sessionId index) =
      some (success.message.eventId, success.message.timestamp)
  stored : ∃ data, s.sessions success.message.senderKey success.message.sessionId = some data ∧
    (success.message.roomId = .null ∨ success.message.roomId = .id data.roomId)

variable {olm}

variable {success : GroupSuccess Session Plaintext}

/-- A room never changes, so a session that is replaced is one for the same room. -/
theorem GroupSuccess.Kept.setSession (h : success.Kept s) {senderKey sessionId : String}
    (hroom : ∀ old, s.sessions senderKey sessionId = some old → old.roomId = data.roomId) :
    success.Kept (s.setSession senderKey sessionId (some data)) := by
  refine ⟨h.remembered, ?_⟩
  obtain ⟨old, hold, holdRoom⟩ := h.stored
  rw [GroupSessionStore.setSession_sessions]
  split_ifs with hsame
  · rw [hsame.1, hsame.2] at hold
    exact ⟨data, rfl, hroom old hold ▸ holdRoom⟩
  · exact ⟨old, hold, holdRoom⟩

/-- An index that is remembered stays so. -/
theorem GroupSuccess.Kept.checkMessageIndex (h : success.Kept s)
    {messageIndexes : String → Option (Option String × Option ℕ)}
    (hcheck : checkMessageIndex s message messageIndex = .ok messageIndexes) :
    success.Kept { s with messageIndexes := messageIndexes } := by
  refine ⟨fun index hindex => ?_, h.stored⟩
  have hold := h.remembered index hindex
  cases messageIndex with
  | none =>
    obtain rfl := Except.ok.inj hcheck
    exact hold
  | some messageIndex =>
    dsimp only [MatrixSdk.Crypto.checkMessageIndex] at hcheck
    split_ifs at hcheck with hnew
    obtain rfl := Except.ok.inj hcheck
    dsimp only
    rw [Function.update_apply]
    split_ifs with hkey
    · -- the entry is the one of this event
      rw [← hkey, hold, Option.getD_some] at hnew
      rw [not_not.1 hnew]
    · exact hold

theorem checkMessageIndex_remembers {messageIndexes : String → Option (Option String × Option ℕ)}
    (hcheck : checkMessageIndex s message messageIndex = .ok messageIndexes) :
    ∀ index ∈ messageIndex, messageIndexes (messageIndexKey message.senderKey message.sessionId
      index) = some (message.eventId, message.timestamp) := by
  intro index hindex
  obtain rfl := Option.mem_def.1 hindex
  dsimp only [checkMessageIndex] at hcheck
  split_ifs at hcheck
  obtain rfl := Except.ok.inj hcheck
  rw [Function.update_self]

/-- What can be decrypted after a message could be decrypted before it. -/
theorem GroupSessionStore.Opens.of_decryptGroupMessage {Key : Type} {key : Session → Key}
    (hkey : DecryptsByKey olm key) {other : GroupMessage} {plaintext : Plaintext}
    (h : (decryptGroupMessage olm s other).2.Opens olm message plaintext messageIndex) :
    s.Opens olm message plaintext messageIndex := by
  rcases decryptGroupMessage_cases olm s other with ⟨r, heq, -⟩ |
    ⟨old, body, plain, index, session, indexes, hold, -, -, hdec, hcheck, heq⟩
  · rwa [heq] at h
  · rw [heq] at h
    obtain ⟨data, body', after, hdata, hroom, hbody, hafter, hfresh⟩ := h
    have hfresh' : s.Fresh message messageIndex := by
      intro i hi
      have hnew := hfresh i hi
      cases index with
      | none =>
        obtain rfl := Except.ok.inj hcheck
        exact hnew
      | some index =>
        dsimp only [checkMessageIndex] at hcheck
        split_ifs at hcheck with hused
        obtain rfl := Except.ok.inj hcheck
        dsimp only at hnew
        rw [Function.update_apply] at hnew
        split_ifs at hnew with hsame
        · -- the index is the one of the other message, which is the same event
          rw [Option.getD_some] at hnew
          rw [hsame, ← hnew]
          exact not_not.1 hused
        · exact hnew
    rw [GroupSessionStore.setSession_sessions] at hdata
    split_ifs at hdata with hsame
    · obtain rfl := Option.some.inj hdata
      obtain ⟨after', hafter'⟩ := hkey.same (hkey.kept hdec) hafter
      refine ⟨old, body', after', ?_, hroom, hbody, hafter', hfresh'⟩
      rw [hsame.1, hsame.2, hold]
    · exact ⟨data, body', after, hdata, hroom, hbody, hafter, hfresh'⟩

variable (olm) in
/-- A session id stands for a ratchet: a session keeps its id, and sessions with one id do not
differ in what they make of a message. -/
structure DecryptsById : Prop where
  kept : ∀ {session after : Session} {body : String} {plaintext : Plaintext}
    {messageIndex : Option ℕ}, olm.decrypt session body = .ok (plaintext, messageIndex, after) →
      olm.sessionId after = olm.sessionId session
  same : ∀ {session session' after after' : Session} {body : String}
    {plaintext plaintext' : Plaintext} {messageIndex messageIndex' : Option ℕ},
      olm.sessionId session = olm.sessionId session' →
        olm.decrypt session body = .ok (plaintext, messageIndex, after) →
          olm.decrypt session' body = .ok (plaintext', messageIndex', after') →
            plaintext = plaintext'

variable (olm) in
/-- The sessions are stored under their ids. -/
def GroupSessionStore.ById (s : GroupSessionStore Session) : Prop :=
  ∀ senderKey sessionId data, s.sessions senderKey sessionId = some data →
    olm.sessionId data.session = sessionId

theorem GroupSessionStore.ById.setSession (h : s.ById olm) {senderKey sessionId : String}
    (hdata : olm.sessionId data.session = sessionId) :
    (s.setSession senderKey sessionId (some data)).ById olm := by
  intro senderKey' sessionId' data' hdata'
  rw [GroupSessionStore.setSession_sessions] at hdata'
  split_ifs at hdata' with hsame
  · rw [← Option.some.inj hdata', hsame.2, hdata]
  · exact h senderKey' sessionId' data' hdata'

theorem GroupSessionStore.ById.decryptGroupMessage (hid : DecryptsById olm) (h : s.ById olm)
    (message : GroupMessage) : (decryptGroupMessage olm s message).2.ById olm := by
  rcases decryptGroupMessage_cases olm s message with ⟨r, heq, -⟩ |
    ⟨old, body, plain, index, session, indexes, hold, -, -, hdec, -, heq⟩
  · rwa [heq]
  · rw [heq]
    let data : InboundGroupSessionData Session := { old with session := session }
    have hdata : olm.sessionId data.session = message.sessionId :=
      (hid.kept hdec).trans (h _ _ _ hold)
    exact fun senderKey sessionId => h.setSession hdata senderKey sessionId

theorem kept_step {s s' : GroupHistory Session Plaintext} {e : GroupStep}
    (h : ∀ success ∈ s.decrypted, success.Kept s.store) (hse : (groupSystem olm).step s e = some s') :
    ∀ success ∈ s'.decrypted, success.Kept s'.store := by
  cases e with
  | decryptGroupMessage message =>
    simp only [groupSystem] at hse
    rcases decryptGroupMessage_cases olm s.store message with ⟨r, heq, hr⟩ |
      ⟨old, body, plaintext, index, session, indexes, hold, hroom, -, -, hcheck, heq⟩
    · rw [heq] at hse
      split at hse
      next hok =>
        obtain ⟨rfl, -⟩ := Prod.mk.inj hok
        exact absurd rfl (hr _)
      next hok =>
        obtain ⟨-, rfl⟩ := Prod.mk.inj hok
        obtain rfl := Option.some.inj hse
        exact h
    · rw [heq] at hse
      obtain rfl := Option.some.inj hse
      have hset : ∀ {success : GroupSuccess Session Plaintext}, success.Kept s.store →
          success.Kept { s.store.setSession message.senderKey message.sessionId
            (some { old with session := session }) with messageIndexes := indexes } := by
        intro success hkept
        refine (hkept.checkMessageIndex hcheck).setSession fun old' hold' => ?_
        obtain rfl := Option.some.inj (hold.symm.trans hold')
        rfl
      intro success hmem
      rcases List.mem_append.1 hmem with hmem | hmem
      · exact hset (h success hmem)
      · obtain rfl := List.mem_singleton.1 hmem
        refine ⟨checkMessageIndex_remembers hcheck, { old with session := session }, ?_, hroom⟩
        exact (GroupSessionStore.setSession_sessions ..).trans (if_pos ⟨rfl, rfl⟩)
  | addInboundGroupSession new =>
    simp only [groupSystem] at hse
    split at hse
    next data hadd =>
      obtain rfl := Option.some.inj hse
      exact fun success hmem => (h success hmem).setSession (addInboundGroupSession_room olm hadd)
    · obtain rfl := Option.some.inj hse
      exact h
  | addInboundGroupSessionWithheld senderKey sessionId =>
    obtain rfl := Option.some.inj hse
    exact fun success hmem => ⟨(h success hmem).remembered, (h success hmem).stored⟩

/-- The session that has decrypted a message gives the same plaintext again. -/
theorem result_step {Key : Type} {key : Session → Key} (hkey : DecryptsByKey olm key)
    {s s' : GroupHistory Session Plaintext} {e : GroupStep}
    (h : ∀ success ∈ s.decrypted, ∃ body after, success.message.body = some body ∧
      olm.decrypt success.session body = .ok (success.result, success.messageIndex, after))
    (hse : (groupSystem olm).step s e = some s') :
    ∀ success ∈ s'.decrypted, ∃ body after, success.message.body = some body ∧
      olm.decrypt success.session body = .ok (success.result, success.messageIndex, after) := by
  cases e with
  | decryptGroupMessage message =>
    simp only [groupSystem] at hse
    rcases decryptGroupMessage_cases olm s.store message with ⟨r, heq, hr⟩ |
      ⟨old, body, plaintext, index, session, indexes, -, -, hbody, hdec, -, heq⟩
    · rw [heq] at hse
      split at hse
      next hok =>
        obtain ⟨rfl, -⟩ := Prod.mk.inj hok
        exact absurd rfl (hr _)
      · obtain rfl := Option.some.inj hse
        exact h
    · rw [heq] at hse
      obtain rfl := Option.some.inj hse
      intro success hmem
      rcases List.mem_append.1 hmem with hmem | hmem
      · exact h success hmem
      · obtain rfl := List.mem_singleton.1 hmem
        obtain ⟨after, hafter⟩ := hkey.same (hkey.kept hdec).symm hdec
        exact ⟨body, after, hbody, hafter⟩
  | addInboundGroupSession new =>
    simp only [groupSystem] at hse
    split at hse
    · obtain rfl := Option.some.inj hse
      exact h
    · obtain rfl := Option.some.inj hse
      exact h
  | addInboundGroupSessionWithheld senderKey sessionId =>
    obtain rfl := Option.some.inj hse
    exact h

/-- No index is used by two events. -/
theorem groupMessage_once {s : GroupHistory Session Plaintext} (h : (groupSystem olm).Reachable s)
    {a b : GroupSuccess Session Plaintext} (ha : a ∈ s.decrypted) (hb : b ∈ s.decrypted)
    (hsender : a.message.senderKey = b.message.senderKey)
    (hsession : a.message.sessionId = b.message.sessionId) {index : ℕ}
    (hia : a.messageIndex = some index) (hib : b.messageIndex = some index) :
    a.message.eventId = b.message.eventId ∧ a.message.timestamp = b.message.timestamp := by
  have hkept : ∀ success ∈ s.decrypted, success.Kept s.store :=
    h.invariant (fun _ hmem => absurd hmem List.not_mem_nil)
      fun s e s' hs hse => kept_step hs hse
  have hra := (hkept a ha).remembered index hia
  have hrb := (hkept b hb).remembered index hib
  rw [hsender, hsession, hrb] at hra
  obtain ⟨hevent, htimestamp⟩ := Prod.mk.inj (Option.some.inj hra)
  exact ⟨hevent.symm, htimestamp.symm⟩

/-- An event can be decrypted again with the session that has decrypted it. -/
theorem groupMessage_again {Key : Type} {key : Session → Key} (hkey : DecryptsByKey olm key)
    {s : GroupHistory Session Plaintext} (h : (groupSystem olm).Reachable s)
    (hmem : success ∈ s.decrypted)
    (hdata : s.store.sessions success.message.senderKey success.message.sessionId = some data)
    (hsame : key data.session = key success.session) :
    ∃ after, (decryptGroupMessage olm s.store success.message).1 =
      .ok (some ⟨success.result, success.messageIndex, after⟩) := by
  have hkept : ∀ success ∈ s.decrypted, success.Kept s.store :=
    h.invariant (fun _ hmem => absurd hmem List.not_mem_nil)
      fun s e s' hs hse => kept_step hs hse
  have hresult := h.invariant (P := fun s => ∀ success ∈ s.decrypted, ∃ body after,
      success.message.body = some body ∧
        olm.decrypt success.session body = .ok (success.result, success.messageIndex, after))
    (fun _ hmem => absurd hmem List.not_mem_nil) fun s e s' hs hse => result_step hkey hs hse
  obtain ⟨old, hold, hroom⟩ := (hkept success hmem).stored
  obtain rfl := Option.some.inj (hdata.symm.trans hold)
  obtain ⟨body, _, hbody, hdec⟩ := hresult success hmem
  obtain ⟨after, hafter⟩ := hkey.same hsame.symm hdec
  refine (decryptGroupMessage_ok_iff olm).2 ⟨data, body, after, hdata, hroom, hbody, hafter, ?_⟩
  intro index hindex
  rw [(hkept success hmem).remembered index hindex, Option.getD_some]

/-- **No message index is decrypted for two events, and each event can be decrypted again**, with
the session that has decrypted it and to the same plaintext. -/
theorem groupMessage_replay {s : GroupHistory Session Plaintext}
    (h : (groupSystem olm).Reachable s) :
    (∀ a ∈ s.decrypted, ∀ b ∈ s.decrypted, a.message.senderKey = b.message.senderKey →
      a.message.sessionId = b.message.sessionId → ∀ index, a.messageIndex = some index →
        b.messageIndex = some index →
          a.message.eventId = b.message.eventId ∧ a.message.timestamp = b.message.timestamp) ∧
    ∀ (Key : Type) (key : Session → Key), DecryptsByKey olm key → ∀ success ∈ s.decrypted,
      ∀ data, s.store.sessions success.message.senderKey success.message.sessionId = some data →
        key data.session = key success.session →
          ∃ after, (decryptGroupMessage olm s.store success.message).1 =
            .ok (some ⟨success.result, success.messageIndex, after⟩) := by
  refine ⟨fun a ha b hb hsender hsession index hia hib => ?_,
    fun Key key hkey success hmem data hdata hsame => ?_⟩
  · exact groupMessage_once h ha hb hsender hsession hia hib
  · exact groupMessage_again hkey h hmem hdata hsame

end Model

/-! A message is decrypted, comes again as another event, and is decrypted once more. -/

section Examples

/-- Sessions that are their keys, and whose ciphertexts are the plaintexts. All are message 0. -/
def plainSessions : GroupSessions String String where
  create key := some key
  importSession key := some key
  sessionId session := session
  firstKnownIndex _ := 0
  decrypt session body := .ok (body, some 0, session)

theorem plainSessions_decryptsByKey : DecryptsByKey plainSessions id := by
  constructor
  · intro session session' after body plaintext index hsame h
    obtain rfl : session = session' := hsame
    exact ⟨after, h⟩
  · intro session after body plaintext index h
    obtain ⟨-, -, rfl⟩ := Prod.mk.inj (Except.ok.inj h)
    rfl

def messageAs (eventId : String) : GroupMessage :=
  ⟨.id "!room:a", "alice", "session", some "hello", some eventId, some 0⟩

def replayed : List GroupStep :=
  [.addInboundGroupSession ⟨"!room:a", "alice", [], "session", "session", none, false⟩,
    .decryptGroupMessage (messageAs "$1"), .decryptGroupMessage (messageAs "$2"),
    .decryptGroupMessage (messageAs "$1")]

theorem replayed_runs : ((groupSystem plainSessions).run replayed).isSome := by decide

/-- The state it ends in. -/
def replayedHistory : GroupHistory String String :=
  ((groupSystem plainSessions).run replayed).get replayed_runs

theorem groupMessage_replay_replayed :
    replayedHistory.decrypted.map (fun success => success.message.eventId) =
        [some "$1", some "$1"] ∧
      ∃ after, (decryptGroupMessage plainSessions replayedHistory.store (messageAs "$1")).1 =
        .ok (some ⟨"hello", some 0, after⟩) := by
  have h := (groupMessage_replay (System.reachable_get replayed_runs)).2 String id
    plainSessions_decryptsByKey
  refine ⟨by decide, h ⟨messageAs "$1", "session", some 0, "hello"⟩ List.mem_cons_self
    ⟨"!room:a", "session", none, []⟩ rfl rfl⟩

end Examples

end MatrixSdk.Crypto
