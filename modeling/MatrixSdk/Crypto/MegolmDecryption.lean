/-
Decrypting the events of a room while their keys arrive: `attemptDecryption` of
`models/event.js`, and `decryptEvent`, the pending list and `_retryDecryption` of
`MegolmDecryption` in `crypto/algorithms/megolm.js`.

An event is put on the pending list before its session is looked up. A key that arrives is
stored first and then tried on the events that are on the list, so it does not matter where
between the lookup and the failure of an attempt it arrives: either the event is found on
the list, or an attempt is on its way with the retry flag set.

The list is a map of maps. When the last event of a session leaves it, what is deleted is
the entry of the session whose id is the sender key. So the entry of the session stays,
empty, and events that wait for a session with such an id are forgotten.

Each `await` is a boundary between steps. The session lookup is the transaction of
`decryptGroupMessage`.
-/
import MatrixSdk.Crypto.KeyEvents
import MatrixSdk.Lib.JsObject

set_option autoImplicit false

namespace MatrixSdk.Crypto

open MatrixSdk.Lib JsObject

/-! ## The pending list -/

section PendingList

variable {Ev : Type} [DecidableEq Ev]

/-- `_pendingEvents` of the decryptor of a room: an object of `Map`s of `Set`s, by sender key and
session id. -/
abbrev PendingList (Ev : Type) := JsObject String (JsObject String (List Ev))

/-- `Set.prototype.add`. -/
def addToSet (events : List Ev) (ev : Ev) : List Ev :=
  if ev ∈ events then events else events ++ [ev]

namespace PendingList

/-- The `Set` of a session. -/
def lookup (p : PendingList Ev) (senderKey sessionId : String) : Option (List Ev) :=
  (p.get senderKey).bind fun senderPendingEvents => senderPendingEvents.get sessionId

/-- `_addEventToPendingList`. -/
def addEvent (p : PendingList Ev) (senderKey sessionId : String) (ev : Ev) : PendingList Ev :=
  let senderPendingEvents := (p.get senderKey).getD .empty
  let pendingEvents := (senderPendingEvents.get sessionId).getD []
  p.set senderKey (senderPendingEvents.set sessionId (addToSet pendingEvents ev))

/-- `_removeEventFromPendingList`. -/
def removeEvent (p : PendingList Ev) (senderKey sessionId : String) (ev : Ev) : PendingList Ev :=
  match p.get senderKey with
  | none => p
  | some senderPendingEvents =>
    match senderPendingEvents.get sessionId with
    | none => p
    | some pendingEvents =>
      let pendingEvents := pendingEvents.filter fun ev' => ev' ≠ ev
      let senderPendingEvents := senderPendingEvents.set sessionId pendingEvents
      -- the key of the entry is `sessionId`
      let senderPendingEvents :=
        if pendingEvents = [] then senderPendingEvents.delete senderKey else senderPendingEvents
      if senderPendingEvents.keys = [] then p.delete senderKey
      else p.set senderKey senderPendingEvents

/-- `delete this._pendingEvents[senderKey]`. -/
def deleteSender (p : PendingList Ev) (senderKey : String) : PendingList Ev :=
  JsObject.delete p senderKey

/-- The events that wait for a session. -/
def events (p : PendingList Ev) (senderKey sessionId : String) : List Ev :=
  (p.lookup senderKey sessionId).getD []

/-- There is an entry for the session, and none is left in it without the event. -/
def emptied (p : PendingList Ev) (senderKey sessionId : String) (ev : Ev) : Bool :=
  (p.lookup senderKey sessionId).any fun pendingEvents =>
    pendingEvents.filter (fun ev' => ev' ≠ ev) = []

/-- No entry is left behind without an event in it. -/
structure NoEmptyEntry (p : PendingList Ev) : Prop where
  sender : ∀ senderKey senderPendingEvents, p.get senderKey = some senderPendingEvents →
    senderPendingEvents.keys ≠ []
  session : ∀ senderKey sessionId pendingEvents,
    p.lookup senderKey sessionId = some pendingEvents → pendingEvents ≠ []

end PendingList

theorem mem_addToSet {events : List Ev} {ev ev' : Ev} :
    ev' ∈ addToSet events ev ↔ ev' ∈ events ∨ ev' = ev := by
  unfold addToSet
  split_ifs with h
  · exact ⟨.inl, fun hmem => hmem.elim id fun heq => heq ▸ h⟩
  · rw [List.mem_append, List.mem_singleton]

namespace PendingList

variable {p : PendingList Ev} {senderKey sessionId : String} {ev : Ev} {senderKey' : String}

omit [DecidableEq Ev] in
theorem mem_events :
    ev ∈ p.events senderKey sessionId ↔
      ∃ pendingEvents, p.lookup senderKey sessionId = some pendingEvents ∧ ev ∈ pendingEvents := by
  unfold events
  cases p.lookup senderKey sessionId with
  | none => simp
  | some pendingEvents => simp

theorem lookup_addEvent (p : PendingList Ev) (senderKey sessionId : String) (ev : Ev)
    (senderKey' sessionId' : String) :
    (p.addEvent senderKey sessionId ev).lookup senderKey' sessionId' =
      if senderKey' = senderKey ∧ sessionId' = sessionId then
        some (addToSet (p.events senderKey sessionId) ev)
      else p.lookup senderKey' sessionId' := by
  by_cases hsender : senderKey' = senderKey
  · subst hsender
    simp only [lookup, events, addEvent, get_set_self, Option.bind_some, get_set,
      true_and]
    -- the map of the sender may have to be made
    cases p.get senderKey' with
    | none => rfl
    | some senderPendingEvents => rfl
  · simp only [lookup, addEvent, get_set_ne hsender, hsender, false_and, if_false]

theorem mem_events_addEvent {sessionId' : String} {ev' : Ev} :
    ev' ∈ (p.addEvent senderKey sessionId ev).events senderKey' sessionId' ↔
      ev' ∈ p.events senderKey' sessionId' ∨
        (ev' = ev ∧ senderKey' = senderKey ∧ sessionId' = sessionId) := by
  rw [events, lookup_addEvent]
  split_ifs with hsame
  · obtain ⟨rfl, rfl⟩ := hsame
    rw [Option.getD_some, mem_addToSet]
    simp only [and_true]
  · simp only [hsame, and_false, or_false, events]

omit [DecidableEq Ev] in
/-- The map of a sender is put back, and not when it is empty. -/
theorem lookup_replaced (p : PendingList Ev) (senderKey : String)
    (senderPendingEvents : JsObject String (List Ev)) (senderKey' sessionId' : String) :
    (if senderPendingEvents.keys = [] then p.delete senderKey
      else p.set senderKey senderPendingEvents : PendingList Ev).lookup senderKey' sessionId' =
      if senderKey' = senderKey then senderPendingEvents.get sessionId'
      else p.lookup senderKey' sessionId' := by
  split_ifs with hempty hsender hsender
  · subst hsender
    have hnone : senderPendingEvents.get sessionId' = none := by
      rw [get_eq_none_iff, hempty]
      exact List.not_mem_nil
    rw [lookup, get_delete_self, hnone, Option.bind_none]
  · rw [lookup, get_delete_ne hsender, lookup]
  · subst hsender
    rw [lookup, get_set_self, Option.bind_some]
  · rw [lookup, get_set_ne hsender, lookup]

/-- **What removing an event does.** The event leaves its session. If none is left there, the
entry of the session whose id is the sender key goes. -/
theorem lookup_removeEvent (p : PendingList Ev) (senderKey sessionId : String) (ev : Ev)
    (senderKey' sessionId' : String) :
    (p.removeEvent senderKey sessionId ev).lookup senderKey' sessionId' =
      if p.emptied senderKey sessionId ev ∧ senderKey' = senderKey ∧ sessionId' = senderKey then none
      else if senderKey' = senderKey ∧ sessionId' = sessionId then
        (p.lookup senderKey sessionId).map fun pendingEvents =>
          pendingEvents.filter fun ev' => ev' ≠ ev
      else p.lookup senderKey' sessionId' := by
  cases hlookup : p.lookup senderKey sessionId with
  | none =>
    have hsame : p.removeEvent senderKey sessionId ev = p := by
      unfold removeEvent
      split
      · rfl
      next hsender =>
        rw [lookup, hsender, Option.bind_some] at hlookup
        rw [hlookup]
    rw [hsame, emptied, hlookup, Option.any_none, if_neg (fun h => Bool.false_ne_true h.1),
      Option.map_none]
    split_ifs with h
    · rw [h.1, h.2, hlookup]
    · rfl
  | some pendingEvents =>
    obtain ⟨senderPendingEvents, hsender, hsession⟩ := Option.bind_eq_some_iff.1 hlookup
    simp only [removeEvent, hsender, hsession, lookup_replaced, emptied, hlookup, Option.any_some,
      Option.map_some, decide_eq_true_eq]
    by_cases hkey : senderKey' = senderKey
    · subst hkey
      have hold : p.lookup senderKey' sessionId' = senderPendingEvents.get sessionId' := by
        rw [lookup, hsender, Option.bind_some]
      rw [hold, if_pos rfl]
      by_cases hempty : pendingEvents.filter (fun ev' => ev' ≠ ev) = []
      · rw [if_pos hempty, get_delete, get_set]
        simp only [hempty, true_and]
      · rw [if_neg hempty, get_set]
        simp only [hempty, true_and, false_and, if_false]
    · simp only [hkey, false_and, and_false, if_false]

theorem emptied_eq_true :
    p.emptied senderKey sessionId ev = true ↔
      ∃ pendingEvents, p.lookup senderKey sessionId = some pendingEvents ∧
        pendingEvents.filter (fun ev' => ev' ≠ ev) = [] := by
  rw [emptied, Option.any_eq_true_iff_get]
  constructor
  · rintro ⟨hsome, h⟩
    exact ⟨_, (Option.some_get hsome).symm, of_decide_eq_true h⟩
  · rintro ⟨pendingEvents, hlookup, h⟩
    simp only [hlookup, Option.isSome_some, Option.get_some, h, decide_true, exists_const]

/-- An event stays on the list when another is removed, if the session whose entry goes is not
the one it waits for. -/
theorem mem_events_removeEvent {ev' : Ev} {sessionId' : String}
    (hmem : ev' ∈ p.events senderKey' sessionId') (hne : ev' ≠ ev)
    (hspared : p.emptied senderKey sessionId ev = true → sessionId ≠ senderKey →
      ev' ∉ p.events senderKey senderKey) :
    ev' ∈ (p.removeEvent senderKey sessionId ev).events senderKey' sessionId' := by
  obtain ⟨pendingEvents, hlookup, hmem'⟩ := mem_events.1 hmem
  rw [mem_events, lookup_removeEvent]
  split_ifs with hempty hsame
  · obtain ⟨hempty, rfl, rfl⟩ := hempty
    by_cases hsession : sessionId = sessionId'
    · -- the event waits for the session that is empty
      subst hsession
      obtain ⟨pendingEvents', hlookup', hfilter⟩ := emptied_eq_true.1 hempty
      obtain rfl := Option.some.inj (hlookup.symm.trans hlookup')
      have hmem'' : ev' ∈ pendingEvents.filter fun ev' => ev' ≠ ev :=
        List.mem_filter.2 ⟨hmem', decide_eq_true hne⟩
      rw [hfilter] at hmem''
      exact absurd hmem'' List.not_mem_nil
    · exact absurd hmem (hspared hempty hsession)
  · obtain ⟨rfl, rfl⟩ := hsame
    rw [hlookup, Option.map_some]
    exact ⟨_, rfl, List.mem_filter.2 ⟨hmem', decide_eq_true hne⟩⟩
  · exact ⟨pendingEvents, hlookup, hmem'⟩

/-- What is on the list after an event has been removed was there before, and is not the event. -/
theorem mem_events_of_removeEvent {ev' : Ev} {sessionId' : String}
    (hmem : ev' ∈ (p.removeEvent senderKey sessionId ev).events senderKey' sessionId') :
    ev' ∈ p.events senderKey' sessionId' ∧
      ¬ (ev' = ev ∧ senderKey' = senderKey ∧ sessionId' = sessionId) := by
  obtain ⟨pendingEvents, hlookup, hmem⟩ := mem_events.1 hmem
  rw [lookup_removeEvent] at hlookup
  split_ifs at hlookup with hempty hsame
  · obtain ⟨rfl, rfl⟩ := hsame
    obtain ⟨old, hold, rfl⟩ := Option.map_eq_some_iff.1 hlookup
    obtain ⟨hmem, hne⟩ := List.mem_filter.1 hmem
    exact ⟨mem_events.2 ⟨old, hold, hmem⟩, fun h => of_decide_eq_true hne h.1⟩
  · exact ⟨mem_events.2 ⟨pendingEvents, hlookup, hmem⟩, fun h => hsame h.2⟩

/-- A map that is put back is not empty. -/
theorem keys_removeEvent (hp : p.NoEmptyEntry) (senderKey sessionId : String) (ev : Ev)
    {senderPendingEvents : JsObject String (List Ev)}
    (h : (p.removeEvent senderKey sessionId ev).get senderKey' = some senderPendingEvents) :
    senderPendingEvents.keys ≠ [] := by
  unfold removeEvent at h
  split at h
  · exact hp.sender senderKey' senderPendingEvents h
  · split at h
    · exact hp.sender senderKey' senderPendingEvents h
    next sessions _ pendingEvents _ =>
      dsimp only at h
      split_ifs at h with hfilter hkeys hkeys
      all_goals
        first
          | rw [get_delete] at h
          | rw [get_set] at h
        split_ifs at h with hsender
      all_goals
        first
          | exact hp.sender senderKey' senderPendingEvents h
          | exact Option.some.inj h ▸ hkeys

/-- **An empty entry is left behind** when the last event of a session goes, unless the session id
is the sender key. -/
theorem noEmptyEntry_removeEvent_iff (hp : p.NoEmptyEntry) :
    (p.removeEvent senderKey sessionId ev).NoEmptyEntry ↔
      (p.emptied senderKey sessionId ev = true → sessionId = senderKey) := by
  constructor
  · intro h hempty
    by_contra hne
    obtain ⟨pendingEvents, hlookup, hfilter⟩ := emptied_eq_true.1 hempty
    refine h.session senderKey sessionId [] ?_ rfl
    rw [lookup_removeEvent, if_neg (fun h => hne h.2.2), if_pos ⟨rfl, rfl⟩, hlookup,
      Option.map_some, hfilter]
  · intro h
    refine ⟨fun _ _ hget => keys_removeEvent hp senderKey sessionId ev hget, ?_⟩
    intro senderKey' sessionId' pendingEvents hlookup
    rw [lookup_removeEvent] at hlookup
    split_ifs at hlookup with hempty hsame
    · obtain ⟨rfl, rfl⟩ := hsame
      obtain ⟨old, hold, rfl⟩ := Option.map_eq_some_iff.1 hlookup
      intro hfilter
      have hempty' := emptied_eq_true.2 ⟨old, hold, hfilter⟩
      exact hempty ⟨hempty', rfl, h hempty'⟩
    · exact hp.session senderKey' sessionId' pendingEvents hlookup

theorem noEmptyEntry_addEvent (hp : p.NoEmptyEntry) (senderKey sessionId : String) (ev : Ev) :
    (p.addEvent senderKey sessionId ev).NoEmptyEntry := by
  constructor
  · intro senderKey' senderPendingEvents h
    rw [addEvent, get_set] at h
    split_ifs at h with hsender
    · obtain rfl := Option.some.inj h
      exact List.ne_nil_of_mem (mem_keys_set.2 (.inl rfl))
    · exact hp.sender senderKey' senderPendingEvents h
  · intro senderKey' sessionId' pendingEvents h
    rw [lookup_addEvent] at h
    split_ifs at h
    · obtain rfl := Option.some.inj h
      exact List.ne_nil_of_mem (mem_addToSet.2 (.inr rfl))
    · exact hp.session senderKey' sessionId' pendingEvents h

omit [DecidableEq Ev] in
theorem lookup_deleteSender (p : PendingList Ev) (senderKey senderKey' sessionId : String) :
    (p.deleteSender senderKey).lookup senderKey' sessionId =
      if senderKey' = senderKey then none else p.lookup senderKey' sessionId := by
  rw [lookup, deleteSender, get_delete, lookup]
  split_ifs
  · rfl
  · rfl

omit [DecidableEq Ev] in
theorem noEmptyEntry_deleteSender (hp : p.NoEmptyEntry) (senderKey : String) :
    (p.deleteSender senderKey).NoEmptyEntry := by
  constructor
  · intro senderKey' senderPendingEvents h
    rw [deleteSender, get_delete] at h
    split_ifs at h
    exact hp.sender senderKey' senderPendingEvents h
  · intro senderKey' sessionId pendingEvents h
    rw [lookup_deleteSender] at h
    split_ifs at h
    exact hp.session senderKey' sessionId pendingEvents h

end PendingList

end PendingList

/-! ## Attempts -/

/-- A Megolm event of a room. The decryptor of the room is kept, which it is for each room that has
an id. -/
structure RoomEvent where
  event : MatrixEvent
  roomId : String
  inRoom : event.event.roomId = .id roomId
  nonempty : roomId ≠ ""

/-- The sender key and the session id, if no field is missing. -/
def RoomEvent.session? (ev : RoomEvent) : Option (String × String) :=
  let content := ev.event.getWireContent
  match truthy content.senderKey, truthy content.sessionId, content.ciphertext with
  | none, _, _ | _, none, _ | _, _, .missing => none
  | some senderKey, some sessionId, _ => some (senderKey, sessionId)

/-- What `decryptGroupMessage` returns or throws. -/
abbrev GroupResult (Session : Type) :=
  Except GroupError (Option (GroupDecryption Session (Option Payload)))

/-- Where `_decryptionLoop` of an event is. -/
inductive DecryptionPhase (Session : Type)
  /-- There is no `_decryptionPromise`. -/
  | idle
  /-- Before the first pass of the loop. -/
  | starting
  /-- On the pending list, and the session is being looked up. -/
  | looking
  /-- Back from `decryptGroupMessage`. -/
  | looked (res : GroupResult Session)
  /-- Back from `decryptEvent`. -/
  | settling (res : Except DecryptFailure DecryptionResult)

/-- The fields of a `MatrixEvent` that decrypting it changes. `attempted` says that
`attemptDecryption` has been called, `completed` how many of its promises are resolved. -/
structure EventState (Session : Type) where
  phase : DecryptionPhase Session
  retryDecryption : Bool
  clear : Option DecryptionResult
  attempted : Bool
  completed : ℕ

/-- A session whose key has arrived. -/
structure RoomKey where
  roomId : String
  senderKey : String
  sessionId : String
  /-- It has come in a key event, and has not been imported. -/
  fromEvent : Bool

/-- A call of `_retryDecryption` that waits for attempts, each with the number of promises that
were resolved before. -/
structure Retry (Ev : Type) where
  key : RoomKey
  awaited : List (Ev × ℕ)

/-- A call of `_retryDecryption` that has returned true, so that requests for the key are cancelled
if the key is from an event. `left` are the events that waited then and had not been decrypted. -/
structure Report (Ev : Type) where
  key : RoomKey
  left : List Ev

/-- The store, the pending lists of the decryptors, and the events. `keys` have been stored, and
`_retryDecryption` is yet to be called for them. `waiting` are the events that have been added to
a list and not yet removed. -/
structure DecryptionState (Session Ev : Type) where
  store : GroupSessionStore Session
  pendingEvents : String → PendingList Ev
  events : Ev → EventState Session
  keys : List RoomKey
  retries : List (Retry Ev)
  waiting : List Ev
  reports : List (Report Ev)

section Model

variable {Session Ev : Type} [DecidableEq Ev] (olm : GroupSessions Session (Option Payload))
  (wire : Ev → RoomEvent)

/-- `MegolmDecryption.decryptEvent`, from the result of `decryptGroupMessage` on. -/
def megolmResult (ev : RoomEvent) (senderKey sessionId : String) (res : GroupResult Session) :
    Except DecryptFailure DecryptionResult :=
  match res with
  | .error .withheld => .error (.decryptionError "MEGOLM_UNKNOWN_INBOUND_SESSION_ID")
  | .error (.error message) =>
    .error (.decryptionError (if message = "OLM.UNKNOWN_MESSAGE_INDEX" then
      "OLM_UNKNOWN_MESSAGE_INDEX" else "OLM_DECRYPT_GROUP_MESSAGE_ERROR"))
  | .ok none => .error (.decryptionError "MEGOLM_UNKNOWN_INBOUND_SESSION_ID")
  | .ok (some ⟨none, _, _⟩) => .error .other
  | .ok (some ⟨some payload, _, data⟩) =>
    if payload.roomId ≠ ev.event.event.roomId then .error (.decryptionError "MEGOLM_BAD_ROOM")
    else
      .ok
        { clearEvent := payload
          senderCurve25519Key := some senderKey
          claimedEd25519Key := data.keysClaimed
          forwardingCurve25519KeyChain := data.forwardingCurve25519KeyChain
          decryptedBy := some (.megolm senderKey sessionId) }

namespace EventState

/-- It is a session that has given the clear event. -/
def decrypted (e : EventState Session) : Bool := e.clear.any fun res => res.decryptedBy.isSome

/-- "Attempt to decrypt event which has already been decrypted". -/
def alreadyDecrypted (e : EventState Session) : Bool :=
  (e.clear.bind fun res => res.clearEvent.content).any fun content =>
    content.msgtype ≠ some "m.bad.encrypted"

/-- `attemptDecryption`. -/
def attemptDecryption (e : EventState Session) : EventState Session :=
  let e := { e with attempted := true }
  if e.alreadyDecrypted then e
  else
    match e.phase with
    | .idle => { e with phase := .starting }
    | _ => { e with retryDecryption := true }

/-- The promise of the attempt is resolved. -/
def finish (e : EventState Session) (clear : Option DecryptionResult) : EventState Session :=
  { e with
    phase := .idle, retryDecryption := false, clear := clear, completed := e.completed + 1 }

end EventState

namespace DecryptionState

def setEvent (s : DecryptionState Session Ev) (ev : Ev) (e : EventState Session) :
    DecryptionState Session Ev :=
  { s with events := Function.update s.events ev e }

def setPending (s : DecryptionState Session Ev) (roomId : String) (p : PendingList Ev) :
    DecryptionState Session Ev :=
  { s with pendingEvents := Function.update s.pendingEvents roomId p }

/-- Attempts for the events of `Set`s. Each is in one of them once. -/
def attemptAll (s : DecryptionState Session Ev) (events : List Ev) : DecryptionState Session Ev :=
  { s with
    events := fun ev => if ev ∈ events then (s.events ev).attemptDecryption else s.events ev }

/-- The loop calls `decryptEvent`, which looks for missing fields and puts the event on the list. -/
def beginDecryption (s : DecryptionState Session Ev) (ev : Ev) : DecryptionState Session Ev :=
  let e := { s.events ev with retryDecryption := false }
  match (wire ev).session? with
  | none =>
    s.setEvent ev { e with phase := .settling (.error (.decryptionError "MEGOLM_MISSING_FIELDS")) }
  | some (senderKey, sessionId) =>
    let roomId := (wire ev).roomId
    let p := (s.pendingEvents roomId).addEvent senderKey sessionId ev
    let s := { s.setPending roomId p with waiting := addToSet s.waiting ev }
    s.setEvent ev { e with phase := .looking }

/-- The transaction of `decryptGroupMessage`. -/
def lookUp (s : DecryptionState Session Ev) (ev : Ev) : DecryptionState Session Ev :=
  match (wire ev).session? with
  | none => s
  | some (senderKey, sessionId) =>
    let (res, store) :=
      decryptGroupMessage olm s.store ((wire ev).event.groupMessage senderKey sessionId)
    { s with store := store }.setEvent ev { s.events ev with phase := .looked res }

/-- `decryptEvent` goes on. After a success the event leaves the list. -/
def resume (s : DecryptionState Session Ev) (ev : Ev) (res : GroupResult Session) :
    DecryptionState Session Ev :=
  match (wire ev).session? with
  | none => s
  | some (senderKey, sessionId) =>
    let e := { s.events ev with phase := .settling (megolmResult (wire ev) senderKey sessionId res) }
    match res with
    | .ok (some _) =>
      let roomId := (wire ev).roomId
      let p := (s.pendingEvents roomId).removeEvent senderKey sessionId ev
      let waiting := s.waiting.filter fun ev' => ev' ≠ ev
      { s.setPending roomId p with waiting := waiting }.setEvent ev e
    | _ => s.setEvent ev e

/-- The loop goes on. -/
def settle (s : DecryptionState Session Ev) (ev : Ev)
    (res : Except DecryptFailure DecryptionResult) : DecryptionState Session Ev :=
  let e := s.events ev
  match res with
  | .ok res => s.setEvent ev (e.finish (some res))
  -- "don't bother with a retry"
  | .error .other => s.setEvent ev (e.finish e.clear)
  | .error (.decryptionError _) =>
    if e.retryDecryption then s.beginDecryption wire ev
    else s.setEvent ev (e.finish (some badEncryptedMessage))

end DecryptionState

/-- An event waits for the session. -/
def RoomEvent.Awaits (ev : RoomEvent) (roomId senderKey sessionId : String) : Prop :=
  ev.roomId = roomId ∧ ev.session? = some (senderKey, sessionId)

instance (ev : RoomEvent) (roomId senderKey sessionId : String) :
    Decidable (ev.Awaits roomId senderKey sessionId) :=
  inferInstanceAs (Decidable (_ ∧ _))

/-- What a `Map` has under a property of that name: `set` makes entries, and not properties. -/
def mapProperty (_ : JsObject String (List Ev)) (_ : String) : Option (List Ev) := none

/-- What `_retryDecryption` returns in the end. -/
def retrySuccess (p : PendingList Ev) (senderKey sessionId : String) : Bool :=
  !((p.get senderKey).bind fun senderPendingEvents =>
    mapProperty senderPendingEvents sessionId).isSome

/-- `_retryDecryption` returns. -/
def DecryptionState.report (s : DecryptionState Session Ev) (key : RoomKey) (success : Bool) :
    DecryptionState Session Ev :=
  if success then
    let left := s.waiting.filter fun ev =>
      (wire ev).Awaits key.roomId key.senderKey key.sessionId ∧ (s.events ev).decrypted = false
    { s with reports := s.reports ++ [⟨key, left⟩] }
  else s

/-! ## The system -/

inductive DecryptionStep (Ev : Type)
  /-- `attemptDecryption` is called. -/
  | attempt (ev : Ev)
  /-- An attempt goes on to its next `await`. -/
  | proceed (ev : Ev)
  /-- The transaction of a call of `addInboundGroupSession` by `onRoomKeyEvent` or
  `importRoomKey`. -/
  | storeKey (new : NewSession) (fromEvent : Bool)
  /-- `_retryDecryption` is called for a key that has been stored. -/
  | retry (i : ℕ)
  /-- A call of `_retryDecryption` whose attempts are done returns. -/
  | finishRetry (i : ℕ)
  /-- `retryDecryptionFromSender` of the decryptor of a room. -/
  | retryFromSender (roomId senderKey : String)
  | withhold (senderKey sessionId : String)

def decryptionSystem : System (DecryptionState Session Ev) (DecryptionStep Ev) where
  init := ⟨.empty, fun _ => .empty, fun _ => ⟨.idle, false, none, false, 0⟩, [], [], [], []⟩
  step s
    | .attempt ev => some (s.setEvent ev (s.events ev).attemptDecryption)
    | .proceed ev =>
      match (s.events ev).phase with
      | .idle => none
      | .starting => some (s.beginDecryption wire ev)
      | .looking => some (s.lookUp olm wire ev)
      | .looked res => some (s.resume wire ev res)
      | .settling res => some (s.settle wire ev res)
    | .storeKey new fromEvent =>
      match addInboundGroupSession olm s.store new with
      | .error _ => some s
      | .ok data =>
        let store := data.elim s.store fun data =>
          s.store.setSession new.senderKey new.sessionId (some data)
        let key : RoomKey := ⟨new.roomId, new.senderKey, new.sessionId, fromEvent⟩
        some { s with store := store, keys := s.keys ++ [key] }
    | .retry i =>
      match s.keys[i]? with
      | none => none
      | some key =>
        let s := { s with keys := s.keys.eraseIdx i }
        match (s.pendingEvents key.roomId).lookup key.senderKey key.sessionId with
        | none => some (s.report wire key true)
        | some pending =>
          -- an attempt that throws is not waited for
          let tried := pending.filter fun ev => !(s.events ev).alreadyDecrypted
          let awaited := tried.map fun ev => (ev, (s.events ev).completed)
          some { s.attemptAll pending with retries := s.retries ++ [⟨key, awaited⟩] }
    | .finishRetry i =>
      match s.retries[i]? with
      | none => none
      | some ⟨key, awaited⟩ =>
        if awaited.all fun (ev, completed) => completed < (s.events ev).completed then
          let s := { s with retries := s.retries.eraseIdx i }
          let p := s.pendingEvents key.roomId
          some (s.report wire key (retrySuccess p key.senderKey key.sessionId))
        else none
    | .retryFromSender roomId senderKey =>
      match (s.pendingEvents roomId).get senderKey with
      | none => some s
      | some senderPendingEvents =>
        let pending := senderPendingEvents.keys.flatMap fun sessionId =>
          (senderPendingEvents.get sessionId).getD []
        let s := s.setPending roomId ((s.pendingEvents roomId).deleteSender senderKey)
        let waiting := s.waiting.filter fun ev =>
          ¬ ((wire ev).roomId = roomId ∧ (wire ev).session?.map Prod.fst = some senderKey)
        some ({ s with waiting := waiting }.attemptAll pending)
    | .withhold senderKey sessionId =>
      some { s with store := s.store.setWithheld senderKey sessionId }

/-! ## What the pending list holds -/

/-- **The pending list is exact.** It holds the events that have been added and not yet removed,
there is no empty entry, and whenever `_retryDecryption` has reported success no event of the
session was left. -/
structure DecryptionState.Exact (s : DecryptionState Session Ev) : Prop where
  same : ∀ roomId senderKey sessionId ev,
    ev ∈ (s.pendingEvents roomId).events senderKey sessionId ↔
      ev ∈ s.waiting ∧ (wire ev).Awaits roomId senderKey sessionId
  noEmptyEntry : ∀ roomId, (s.pendingEvents roomId).NoEmptyEntry
  reports : ∀ report ∈ s.reports, report.left = []

/-- An event that is decrypted is not the last one that waits for its session, unless the session
id is the sender key; and no event waits for a session when a call of `_retryDecryption` for it
returns. -/
def DecryptionState.StaysExact (s : DecryptionState Session Ev) : DecryptionStep Ev → Prop
  | .proceed ev => ∀ decryption, (s.events ev).phase = .looked (.ok (some decryption)) →
      ∀ senderKey sessionId, (wire ev).session? = some (senderKey, sessionId) →
        (s.pendingEvents (wire ev).roomId).emptied senderKey sessionId ev = true →
          sessionId = senderKey
  | .finishRetry i => ∀ retry ∈ s.retries[i]?, ∀ ev ∈ s.waiting,
      (wire ev).Awaits retry.key.roomId retry.key.senderKey retry.key.sessionId →
        (s.events ev).decrypted = true
  | _ => True

variable {wire} {s : DecryptionState Session Ev}

section

omit [DecidableEq Ev]

theorem DecryptionState.Exact.congr {t : DecryptionState Session Ev} (h : s.Exact wire)
    (hpending : t.pendingEvents = s.pendingEvents) (hwaiting : t.waiting = s.waiting)
    (hreports : t.reports = s.reports) : t.Exact wire := by
  obtain ⟨hsame, hentry, hreport⟩ := h
  rw [← hpending, ← hwaiting] at hsame
  exact ⟨hsame, hpending ▸ hentry, hreports ▸ hreport⟩

theorem retrySuccess_eq_true (p : PendingList Ev) (senderKey sessionId : String) :
    retrySuccess p senderKey sessionId = true := by
  unfold retrySuccess
  cases p.get senderKey with
  | none => rfl
  | some senderPendingEvents => rfl

theorem DecryptionState.setPending_pendingEvents (s : DecryptionState Session Ev) (roomId : String)
    (p : PendingList Ev) (roomId' : String) :
    (s.setPending roomId p).pendingEvents roomId' =
      if roomId' = roomId then p else s.pendingEvents roomId' :=
  Function.update_apply ..

/-- Events wait for the session that they name. -/
theorem RoomEvent.Awaits.unique {ev : RoomEvent} {roomId senderKey sessionId : String}
    (h : ev.Awaits roomId senderKey sessionId) {roomId' senderKey' sessionId' : String} :
    ev.Awaits roomId' senderKey' sessionId' ↔
      roomId' = roomId ∧ senderKey' = senderKey ∧ sessionId' = sessionId := by
  obtain ⟨rfl, hsession⟩ := h
  rw [RoomEvent.Awaits, hsession, Option.some_inj, Prod.mk.injEq, eq_comm, @eq_comm _ senderKey,
    @eq_comm _ sessionId]

end

theorem exact_beginDecryption (h : s.Exact wire) (ev : Ev) :
    (s.beginDecryption wire ev).Exact wire := by
  unfold DecryptionState.beginDecryption
  split
  · exact h.congr rfl rfl rfl
  next senderKey sessionId hsession =>
    have hawaits : (wire ev).Awaits (wire ev).roomId senderKey sessionId := ⟨rfl, hsession⟩
    refine ⟨fun roomId' senderKey' sessionId' ev' => ?_, fun roomId' => ?_, h.reports⟩
    · change ev' ∈ ((s.setPending _ _).pendingEvents roomId').events _ _ ↔
        ev' ∈ addToSet s.waiting ev ∧ _
      rw [DecryptionState.setPending_pendingEvents, mem_addToSet]
      have hsame := h.same roomId' senderKey' sessionId' ev'
      split_ifs with hroom
      · subst hroom
        rw [PendingList.mem_events_addEvent, hsame, or_and_right]
        refine or_congr Iff.rfl (and_congr_right fun heq => ?_)
        rw [heq, hawaits.unique]
        simp only [true_and]
      · rw [hsame, or_and_right]
        refine (or_iff_left ?_).symm
        rintro ⟨rfl, hawaits'⟩
        exact hroom hawaits'.1.symm
    · change ((s.setPending _ _).pendingEvents roomId').NoEmptyEntry
      rw [DecryptionState.setPending_pendingEvents]
      split_ifs
      · exact PendingList.noEmptyEntry_addEvent (h.noEmptyEntry _) senderKey sessionId ev
      · exact h.noEmptyEntry roomId'

/-- **A success keeps the list exact** if and only if the event is not the last one that waits, or
the session id is the sender key. -/
theorem exact_resume_iff (h : s.Exact wire) (ev : Ev) (res : GroupResult Session) :
    (s.resume wire ev res).Exact wire ↔
      ∀ decryption, res = .ok (some decryption) →
        ∀ senderKey sessionId, (wire ev).session? = some (senderKey, sessionId) →
          (s.pendingEvents (wire ev).roomId).emptied senderKey sessionId ev = true →
            sessionId = senderKey := by
  unfold DecryptionState.resume
  split
  next hsession => simp [h, hsession]
  next senderKey sessionId hsession =>
    have hawaits : (wire ev).Awaits (wire ev).roomId senderKey sessionId := ⟨rfl, hsession⟩
    split
    next decryption =>
      have hentry : ((s.pendingEvents (wire ev).roomId).removeEvent senderKey sessionId
          ev).NoEmptyEntry ↔ ((s.pendingEvents (wire ev).roomId).emptied senderKey sessionId ev =
            true → sessionId = senderKey) :=
        PendingList.noEmptyEntry_removeEvent_iff (h.noEmptyEntry _)
      constructor
      · rintro h' _ - senderKey' sessionId' hsession'
        obtain ⟨rfl, rfl⟩ := Prod.mk.inj (Option.some.inj (hsession.symm.trans hsession'))
        refine hentry.1 ?_
        have hroom := h'.noEmptyEntry (wire ev).roomId
        change ((s.setPending _ _).pendingEvents _).NoEmptyEntry at hroom
        rwa [DecryptionState.setPending_pendingEvents, if_pos rfl] at hroom
      · intro hlast
        have hlast' := hlast decryption rfl senderKey sessionId hsession
        refine ⟨fun roomId' senderKey' sessionId' ev' => ?_, fun roomId' => ?_, h.reports⟩
        · change ev' ∈ ((s.setPending _ _).pendingEvents roomId').events _ _ ↔
            ev' ∈ s.waiting.filter (fun ev' => ev' ≠ ev) ∧ _
          rw [DecryptionState.setPending_pendingEvents, List.mem_filter, decide_eq_true_iff]
          have hsame := h.same roomId' senderKey' sessionId' ev'
          constructor
          · intro hmem
            split_ifs at hmem with hroom
            · subst hroom
              obtain ⟨hmem, hne⟩ := PendingList.mem_events_of_removeEvent hmem
              obtain ⟨hwaits, hawaits'⟩ := hsame.1 hmem
              refine ⟨⟨hwaits, fun heq => hne ?_⟩, hawaits'⟩
              subst heq
              exact ⟨rfl, (hawaits.unique.1 hawaits').2⟩
            · obtain ⟨hwaits, hawaits'⟩ := hsame.1 hmem
              refine ⟨⟨hwaits, fun heq => hroom ?_⟩, hawaits'⟩
              rw [← hawaits'.1, heq]
          · rintro ⟨⟨hwaits, hne⟩, hawaits'⟩
            have hmem := hsame.2 ⟨hwaits, hawaits'⟩
            split_ifs with hroom
            · subst hroom
              exact PendingList.mem_events_removeEvent hmem hne fun hempty hother =>
                absurd (hlast' hempty) hother
            · exact hmem
        · change ((s.setPending _ _).pendingEvents roomId').NoEmptyEntry
          rw [DecryptionState.setPending_pendingEvents]
          split_ifs
          · exact hentry.2 hlast'
          · exact h.noEmptyEntry roomId'
    next hfail =>
      refine iff_of_true (h.congr rfl rfl rfl) ?_
      exact fun decryption hres => absurd hres (hfail decryption)

theorem exact_settle (h : s.Exact wire) (ev : Ev) (res : Except DecryptFailure DecryptionResult) :
    (s.settle wire ev res).Exact wire := by
  unfold DecryptionState.settle
  dsimp only
  split
  · exact h.congr rfl rfl rfl
  · exact h.congr rfl rfl rfl
  · split_ifs
    · exact exact_beginDecryption h ev
    · exact h.congr rfl rfl rfl

omit [DecidableEq Ev] in
theorem exact_report_iff (h : s.Exact wire) (key : RoomKey) :
    (s.report wire key true).Exact wire ↔ ∀ ev ∈ s.waiting,
      (wire ev).Awaits key.roomId key.senderKey key.sessionId → (s.events ev).decrypted = true := by
  have hleft : (s.waiting.filter fun ev => (wire ev).Awaits key.roomId key.senderKey key.sessionId ∧
      (s.events ev).decrypted = false) = [] ↔ ∀ ev ∈ s.waiting,
        (wire ev).Awaits key.roomId key.senderKey key.sessionId →
          (s.events ev).decrypted = true := by
    simp only [List.filter_eq_nil_iff, decide_eq_true_eq, not_and, Bool.not_eq_false]
  rw [← hleft]
  constructor
  · intro h'
    exact h'.reports ⟨key, _⟩ (List.mem_append_right _ (List.mem_singleton_self _))
  · intro hnone
    refine ⟨h.same, h.noEmptyEntry, fun report hmem => ?_⟩
    rcases List.mem_append.1 hmem with hmem | hmem
    · exact h.reports report hmem
    · rw [List.mem_singleton.1 hmem]
      exact hnone

/-- A step keeps the list exact if and only if it is one of those above. -/
theorem exact_step {s' : DecryptionState Session Ev} {e : DecryptionStep Ev} (h : s.Exact wire)
    (hse : (decryptionSystem olm wire).step s e = some s') :
    s'.Exact wire ↔ s.StaysExact wire e := by
  cases e with
  | attempt ev =>
    obtain rfl := Option.some.inj hse
    exact iff_of_true (h.congr rfl rfl rfl) trivial
  | proceed ev =>
    simp only [decryptionSystem] at hse
    simp only [DecryptionState.StaysExact]
    split at hse
    next => cases hse
    next hphase =>
      obtain rfl := Option.some.inj hse
      refine iff_of_true (exact_beginDecryption h ev) fun decryption hlooked => ?_
      rw [hphase] at hlooked
      cases hlooked
    next hphase =>
      obtain rfl := Option.some.inj hse
      refine iff_of_true ?_ fun decryption hlooked => ?_
      · unfold DecryptionState.lookUp
        split
        · exact h
        · exact h.congr rfl rfl rfl
      · rw [hphase] at hlooked
        cases hlooked
    next res hphase =>
      obtain rfl := Option.some.inj hse
      rw [exact_resume_iff h]
      refine forall_congr' fun decryption => ?_
      rw [hphase, DecryptionPhase.looked.injEq]
    next res hphase =>
      obtain rfl := Option.some.inj hse
      refine iff_of_true (exact_settle h ev res) fun decryption hlooked => ?_
      rw [hphase] at hlooked
      cases hlooked
  | storeKey new fromEvent =>
    refine iff_of_true ?_ trivial
    simp only [decryptionSystem] at hse
    split at hse
    · exact Option.some.inj hse ▸ h
    · obtain rfl := Option.some.inj hse
      exact h.congr rfl rfl rfl
  | retry i =>
    refine iff_of_true ?_ trivial
    simp only [decryptionSystem] at hse
    split at hse
    · cases hse
    next key hkey =>
      have h' : ({ s with keys := s.keys.eraseIdx i } : DecryptionState Session Ev).Exact wire :=
        h.congr rfl rfl rfl
      split at hse
      next hnone =>
        obtain rfl := Option.some.inj hse
        refine (exact_report_iff h' key).2 fun ev hwaits hawaits => ?_
        -- nothing waits for the session
        obtain ⟨pending, hlookup, -⟩ := PendingList.mem_events.1
          ((h.same key.roomId key.senderKey key.sessionId ev).2 ⟨hwaits, hawaits⟩)
        rw [hnone] at hlookup
        cases hlookup
      next pending _ =>
        obtain rfl := Option.some.inj hse
        exact h'.congr rfl rfl rfl
  | finishRetry i =>
    simp only [decryptionSystem, retrySuccess_eq_true] at hse
    split at hse
    · cases hse
    next key awaited hretry =>
      split_ifs at hse
      obtain rfl := Option.some.inj hse
      have h' : ({ s with retries := s.retries.eraseIdx i } : DecryptionState Session Ev).Exact
          wire := h.congr rfl rfl rfl
      rw [exact_report_iff h']
      simp only [DecryptionState.StaysExact, hretry, Option.mem_some, forall_eq']
  | retryFromSender roomId senderKey =>
    refine iff_of_true ?_ trivial
    simp only [decryptionSystem] at hse
    split at hse
    · exact Option.some.inj hse ▸ h
    next senderPendingEvents _ =>
      obtain rfl := Option.some.inj hse
      refine ⟨fun roomId' senderKey' sessionId' ev => ?_, fun roomId' => ?_, h.reports⟩
      · change ev ∈ ((s.setPending _ _).pendingEvents roomId').events _ _ ↔
          ev ∈ s.waiting.filter _ ∧ _
        rw [DecryptionState.setPending_pendingEvents, List.mem_filter, decide_eq_true_iff]
        have hsame := h.same roomId' senderKey' sessionId' ev
        have hgone : (wire ev).Awaits roomId' senderKey' sessionId' →
            (((wire ev).roomId = roomId ∧ (wire ev).session?.map Prod.fst = some senderKey) ↔
              roomId' = roomId ∧ senderKey' = senderKey) := by
          rintro ⟨rfl, hsession⟩
          rw [hsession, Option.map_some, Option.some_inj]
        split_ifs with hroom
        · subst hroom
          rw [PendingList.events, PendingList.lookup_deleteSender]
          split_ifs with hsender
          · subst hsender
            refine iff_of_false List.not_mem_nil ?_
            rintro ⟨⟨-, hkept⟩, hawaits⟩
            exact hkept ((hgone hawaits).2 ⟨rfl, rfl⟩)
          · refine hsame.trans ⟨fun ⟨hwaits, hawaits⟩ => ⟨⟨hwaits, fun hkept => ?_⟩, hawaits⟩,
              fun ⟨⟨hwaits, _⟩, hawaits⟩ => ⟨hwaits, hawaits⟩⟩
            exact hsender ((hgone hawaits).1 hkept).2
        · refine hsame.trans ⟨fun ⟨hwaits, hawaits⟩ => ⟨⟨hwaits, fun hkept => ?_⟩, hawaits⟩,
            fun ⟨⟨hwaits, _⟩, hawaits⟩ => ⟨hwaits, hawaits⟩⟩
          exact hroom ((hgone hawaits).1 hkept).1
      · change ((s.setPending _ _).pendingEvents roomId').NoEmptyEntry
        rw [DecryptionState.setPending_pendingEvents]
        split_ifs
        · exact PendingList.noEmptyEntry_deleteSender (h.noEmptyEntry _) senderKey
        · exact h.noEmptyEntry roomId'
  | withhold senderKey sessionId =>
    obtain rfl := Option.some.inj hse
    exact iff_of_true (h.congr rfl rfl rfl) trivial

/-- A key is stored with which the event can be decrypted. -/
def Usable (s : GroupSessionStore Session) (ev : RoomEvent) : Prop :=
  ∃ res, (megolmDecryptEvent olm s ev.event).1 = .ok res

theorem usable_iff {s : GroupSessionStore Session} {ev : RoomEvent} :
    Usable olm s ev ↔ ∃ senderKey sessionId payload messageIndex,
      ev.session? = some (senderKey, sessionId) ∧
      s.Opens olm (ev.event.groupMessage senderKey sessionId) (some payload) messageIndex ∧
      payload.roomId = ev.event.event.roomId := by
  constructor
  · rintro ⟨res, hres⟩
    obtain ⟨senderKey, -, sessionId, index, hsender, hsession, hopen, hroom⟩ :=
      megolmDecryptEvent_ok olm hres
    refine ⟨senderKey, sessionId, res.clearEvent, index, ?_, hopen, hroom⟩
    obtain ⟨_, body, _, -, -, hbody, -⟩ := hopen
    have hcipher := Ciphertext.body?_eq_some.1 hbody
    simp only [RoomEvent.session?, hsender, hsession, hcipher]
  · rintro ⟨senderKey, sessionId, payload, index, hsession, hopen, hroom⟩
    unfold RoomEvent.session? at hsession
    dsimp only at hsession
    split at hsession
    · cases hsession
    · cases hsession
    · cases hsession
    next hsender hsess _ =>
      obtain ⟨rfl, rfl⟩ := Prod.mk.inj (Option.some.inj hsession)
      have hopens : MegolmOpens olm s ev.event _ payload := ⟨_, index, hsender, hsess, hopen, hroom⟩
      obtain ⟨res, hres, -⟩ := hopens.decryptEvent olm
      exact ⟨res, hres⟩

/-- No session can decrypt the event: a field is missing, or what its session makes of it is not a
payload for the room. -/
def Hopeless (ev : RoomEvent) : Prop :=
  ∀ senderKey sessionId, ev.session? = some (senderKey, sessionId) →
    ∃ session body plaintext messageIndex after, olm.sessionId session = sessionId ∧
      ev.event.getWireContent.ciphertext.body? = some body ∧
      olm.decrypt session body = .ok (plaintext, messageIndex, after) ∧
      ∀ payload, plaintext = some payload → payload.roomId ≠ ev.event.event.roomId

variable {olm} in
theorem Hopeless.not_usable (hid : DecryptsById olm) {s : GroupSessionStore Session} (hs : s.ById olm)
    {ev : RoomEvent} (h : Hopeless olm ev) : ¬ Usable olm s ev := by
  intro husable
  obtain ⟨senderKey, sessionId, payload, index, hsession, hopen, hroom⟩ := (usable_iff olm).1 husable
  obtain ⟨data, body, after, hdata, -, hbody, hdec, -⟩ := hopen
  obtain ⟨session, body', plaintext, index', after', hsame, hbody', hdec', hbad⟩ :=
    h senderKey sessionId hsession
  obtain rfl := Option.some.inj (hbody.symm.trans hbody')
  have hids : olm.sessionId session = olm.sessionId data.session :=
    hsame.trans (hs senderKey sessionId data hdata).symm
  exact hbad payload (hid.same hids hdec' hdec) hroom

namespace DecryptionState

variable (wire)

/-- The event is on the pending list. -/
def Tracked (s : DecryptionState Session Ev) (ev : Ev) : Prop :=
  ∃ senderKey sessionId, (wire ev).session? = some (senderKey, sessionId) ∧
    ev ∈ (s.pendingEvents (wire ev).roomId).events senderKey sessionId

/-- `_retryDecryption` is yet to be called for the session of the event. -/
def HasKey (s : DecryptionState Session Ev) (ev : Ev) : Prop :=
  ∃ key ∈ s.keys, (wire ev).Awaits key.roomId key.senderKey key.sessionId

/-- The attempt fails, but it will be repeated if a key has come since the lookup. -/
def WillRetry (s : DecryptionState Session Ev) (ev : Ev) : Prop :=
  (s.events ev).retryDecryption = true ∨
    (s.Tracked wire ev ∧ (Usable olm s.store (wire ev) → s.HasKey wire ev))

/-- **What is known of an event**, by where its attempt is. -/
def PhaseOk (s : DecryptionState Session Ev) (ev : Ev) : Prop :=
  match (s.events ev).phase with
  | .idle => (s.events ev).attempted = false ∨ (s.events ev).decrypted = true ∨
      Hopeless olm (wire ev) ∨
        (s.Tracked wire ev ∧ (Usable olm s.store (wire ev) → s.HasKey wire ev))
  | .starting => True
  | .looking => (s.events ev).retryDecryption = true ∨ s.Tracked wire ev
  | .looked (.ok (some decryption)) => Hopeless olm (wire ev) ∨
      ∃ payload, decryption.result = some payload ∧ payload.roomId = (wire ev).event.event.roomId
  | .looked _ => s.WillRetry olm wire ev
  | .settling (.ok res) => res.decryptedBy.isSome = true
  | .settling (.error .other) => Hopeless olm (wire ev)
  | .settling (.error (.decryptionError _)) => Hopeless olm (wire ev) ∨ s.WillRetry olm wire ev

/-- What holds along the runs. -/
structure KeysTried (s : DecryptionState Session Ev) : Prop where
  byId : s.store.ById olm
  clear : ∀ ev, (s.events ev).alreadyDecrypted = true → (s.events ev).decrypted = true
  busy : ∀ ev, (s.events ev).alreadyDecrypted = true → (s.events ev).phase = .idle
  phase : ∀ ev, s.PhaseOk olm wire ev

/-- No event is being decrypted, and no key is being handled. -/
structure Quiescent (s : DecryptionState Session Ev) : Prop where
  events : ∀ ev, (s.events ev).phase = .idle
  keys : s.keys = []
  retries : s.retries = []

/-- A decrypted event is not the last one that waits for its session, or no event waits for the
session whose id is the sender key, or that is its session. -/
def SparesWaiting (s : DecryptionState Session Ev) : DecryptionStep Ev → Prop
  | .proceed ev => ∀ decryption, (s.events ev).phase = .looked (.ok (some decryption)) →
      ∀ senderKey sessionId, (wire ev).session? = some (senderKey, sessionId) →
        (s.pendingEvents (wire ev).roomId).emptied senderKey sessionId ev = true →
          sessionId ≠ senderKey →
            (s.pendingEvents (wire ev).roomId).events senderKey senderKey = []
  | _ => True

variable {olm wire} {s t s' : DecryptionState Session Ev} {ev : Ev}

omit [DecidableEq Ev] in
/-- Nothing is known less of an event that a step leaves alone. -/
theorem PhaseOk.mono (h : s.PhaseOk olm wire ev) (hevent : t.events ev = s.events ev)
    (htracked : s.Tracked wire ev → t.Tracked wire ev)
    (husable : Usable olm t.store (wire ev) → Usable olm s.store (wire ev) ∨ t.HasKey wire ev)
    (hkey : s.Tracked wire ev → s.HasKey wire ev → t.HasKey wire ev) : t.PhaseOk olm wire ev := by
  have hwaits : s.Tracked wire ev ∧ (Usable olm s.store (wire ev) → s.HasKey wire ev) →
      t.Tracked wire ev ∧ (Usable olm t.store (wire ev) → t.HasKey wire ev) := by
    rintro ⟨htrack, h⟩
    refine ⟨htracked htrack, fun husable' => ?_⟩
    exact (husable husable').elim (fun husable => hkey htrack (h husable)) id
  have hretry : s.WillRetry olm wire ev → t.WillRetry olm wire ev := by
    unfold WillRetry
    rw [hevent]
    exact Or.imp_right hwaits
  unfold PhaseOk at h ⊢
  rw [hevent]
  split at h
  · exact h.imp_right (Or.imp_right (Or.imp_right hwaits))
  · exact h
  · exact h.imp_right htracked
  · exact h
  · exact hretry h
  · exact h
  · exact h
  · exact h.imp_right hretry

omit [DecidableEq Ev] in
/-- An attempt for an event makes up for what may have been lost for it. -/
theorem PhaseOk.attempt (h : s.PhaseOk olm wire ev)
    (hclear : (s.events ev).alreadyDecrypted = true → (s.events ev).decrypted = true)
    (hbusy : (s.events ev).alreadyDecrypted = true → (s.events ev).phase = .idle)
    (hevent : t.events ev = (s.events ev).attemptDecryption) : t.PhaseOk olm wire ev := by
  unfold EventState.attemptDecryption at hevent
  dsimp only at hevent
  split_ifs at hevent with halready
  · -- it throws
    have hdone : (t.events ev).decrypted = true := by
      rw [hevent]
      exact hclear halready
    have hphase : (t.events ev).phase = .idle := by
      rw [hevent]
      exact hbusy halready
    rw [PhaseOk, hphase]
    exact .inr (.inl hdone)
  · split at hevent
    · rw [PhaseOk, hevent]
      trivial
    next hidle =>
      -- the retry flag is set
      have hretry : t.WillRetry olm wire ev := .inl (by rw [hevent])
      unfold PhaseOk at h ⊢
      rw [hevent]
      dsimp only
      split at h
      next hphase => exact absurd hphase hidle
      · trivial
      · exact .inl rfl
      · exact h
      · exact hretry
      · exact h
      · exact h
      · exact .inr hretry

/-- What is settled is not decrypted before, and an attempt that throws leaves it alone. -/
theorem attemptDecryption_alreadyDecrypted (e : EventState Session) :
    e.attemptDecryption.alreadyDecrypted = e.alreadyDecrypted ∧
      e.attemptDecryption.decrypted = e.decrypted := by
  unfold EventState.attemptDecryption
  dsimp only
  split_ifs
  · exact ⟨rfl, rfl⟩
  · split
    · exact ⟨rfl, rfl⟩
    · exact ⟨rfl, rfl⟩

theorem attemptDecryption_busy {e : EventState Session}
    (h : e.alreadyDecrypted = true → e.phase = .idle) :
    e.attemptDecryption.alreadyDecrypted = true → e.attemptDecryption.phase = .idle := by
  rw [(attemptDecryption_alreadyDecrypted e).1]
  intro halready
  have halready' : EventState.alreadyDecrypted { e with attempted := true } = true := halready
  unfold EventState.attemptDecryption
  rw [if_pos halready']
  exact h halready

theorem setEvent_self (s : DecryptionState Session Ev) (ev : Ev) (e : EventState Session) :
    (s.setEvent ev e).events ev = e :=
  Function.update_self ..

theorem setEvent_of_ne (s : DecryptionState Session Ev) {ev' : Ev} (hne : ev' ≠ ev)
    (e : EventState Session) : (s.setEvent ev e).events ev' = s.events ev' :=
  Function.update_of_ne hne ..

/-- A step that changes the state of one event. -/
theorem KeysTried.setEvent (h : s.KeysTried olm wire) {e : EventState Session}
    (ht : t.events = (s.setEvent ev e).events) (hbyId : t.store.ById olm)
    (hclear : e.alreadyDecrypted = true → e.decrypted = true)
    (hbusy : e.alreadyDecrypted = true → e.phase = .idle) (hphase : t.PhaseOk olm wire ev)
    (hother : ∀ ev', ev' ≠ ev → s.PhaseOk olm wire ev' → t.events ev' = s.events ev' →
      t.PhaseOk olm wire ev') : t.KeysTried olm wire := by
  have hself : t.events ev = e := by
    rw [ht]
    exact s.setEvent_self ev e
  have hne : ∀ ev', ev' ≠ ev → t.events ev' = s.events ev' := by
    intro ev' hne
    rw [ht]
    exact s.setEvent_of_ne hne e
  refine ⟨hbyId, fun ev' => ?_, fun ev' => ?_, fun ev' => ?_⟩
  · by_cases heq : ev' = ev
    · rw [heq, hself]
      exact hclear
    · rw [hne ev' heq]
      exact h.clear ev'
  · by_cases heq : ev' = ev
    · rw [heq, hself]
      exact hbusy
    · rw [hne ev' heq]
      exact h.busy ev'
  · by_cases heq : ev' = ev
    · exact heq ▸ hphase
    · exact hother ev' heq (h.phase ev') (hne ev' heq)

theorem keysTried_beginDecryption (h : s.KeysTried olm wire)
    (hundone : (s.events ev).alreadyDecrypted = false) :
    (s.beginDecryption wire ev).KeysTried olm wire := by
  have hbusy : ∀ {phase : DecryptionPhase Session},
      ¬ ({ s.events ev with retryDecryption := false, phase := phase } :
        EventState Session).alreadyDecrypted = true := by
    intro phase halready
    exact Bool.false_ne_true (hundone.symm.trans halready)
  unfold beginDecryption
  split
  next hsession =>
    refine h.setEvent rfl h.byId (fun halready => absurd halready hbusy)
      (fun halready => absurd halready hbusy) ?_ fun ev' hne hok hsame => ?_
    · rw [PhaseOk, setEvent_self]
      refine .inl fun senderKey sessionId hsession' => ?_
      rw [hsession] at hsession'
      cases hsession'
    · exact hok.mono hsame id .inl fun _ hkey => hkey
  next senderKey sessionId hsession =>
    -- all that were on the list still are
    have hlist : ∀ ev' roomId senderKey' sessionId',
        ev' ∈ (s.pendingEvents roomId).events senderKey' sessionId' ∨
          (ev' = ev ∧ roomId = (wire ev).roomId ∧ senderKey' = senderKey ∧ sessionId' = sessionId) →
        ev' ∈ ((s.setPending (wire ev).roomId ((s.pendingEvents (wire ev).roomId).addEvent senderKey
          sessionId ev)).pendingEvents roomId).events senderKey' sessionId' := by
      intro ev' roomId senderKey' sessionId' hmem
      rw [setPending_pendingEvents]
      split_ifs with hroom
      · subst hroom
        rw [PendingList.mem_events_addEvent]
        exact hmem.imp_right fun hnew => ⟨hnew.1, hnew.2.2⟩
      · exact hmem.elim id fun hnew => absurd hnew.2.1 hroom
    refine h.setEvent rfl h.byId (fun halready => absurd halready hbusy)
      (fun halready => absurd halready hbusy) ?_ fun ev' hne hok hsame => ?_
    · rw [PhaseOk, setEvent_self]
      exact .inr ⟨senderKey, sessionId, hsession, hlist _ _ _ _ (.inr ⟨rfl, rfl, rfl, rfl⟩)⟩
    · refine hok.mono hsame ?_ .inl fun _ hkey => hkey
      rintro ⟨senderKey', sessionId', hsession', hmem⟩
      exact ⟨senderKey', sessionId', hsession', hlist _ _ _ _ (.inl hmem)⟩

theorem keysTried_lookUp {Key : Type} {key : Session → Key} (hkey : DecryptsByKey olm key)
    (hid : DecryptsById olm) (h : s.KeysTried olm wire) (hphase : (s.events ev).phase = .looking) :
    (s.lookUp olm wire ev).KeysTried olm wire := by
  have hundone : ¬ (s.events ev).alreadyDecrypted = true := by
    intro halready
    have hidle := h.busy ev halready
    rw [hphase] at hidle
    cases hidle
  unfold lookUp
  split
  · exact h
  next senderKey sessionId hsession =>
    generalize hmessage : (wire ev).event.groupMessage senderKey sessionId = message
    cases hres : decryptGroupMessage olm s.store message with
    | mk res store =>
      have hstore : store = (decryptGroupMessage olm s.store message).2 := by rw [hres]
      -- what can be decrypted now could be decrypted before
      have husable : ∀ ev', Usable olm store (wire ev') → Usable olm s.store (wire ev') := by
        intro ev' h'
        obtain ⟨senderKey', sessionId', payload, index, hsession', hopen, hroom⟩ :=
          (usable_iff olm).1 h'
        rw [hstore] at hopen
        exact (usable_iff olm).2 ⟨senderKey', sessionId', payload, index, hsession',
          hopen.of_decryptGroupMessage hkey, hroom⟩
      have hbyId : store.ById olm := by
        rw [hstore]
        exact h.byId.decryptGroupMessage hid message
      refine h.setEvent rfl hbyId (fun halready => absurd halready hundone)
        (fun halready => absurd halready hundone) ?_ fun ev' hne hok hsame => ?_
      · have hold := h.phase ev
        rw [PhaseOk, hphase] at hold
        rw [PhaseOk, setEvent_self]
        dsimp only at hold ⊢
        -- a lookup that fails has found no key
        have hfail : (∀ decryption, res ≠ .ok (some decryption)) →
            ({ s with store := store }.setEvent ev { s.events ev with phase := .looked res } :
              DecryptionState Session Ev).WillRetry olm wire ev := by
          intro hfail
          rw [WillRetry, setEvent_self]
          refine hold.imp_right fun htracked => ⟨htracked, fun h' => ?_⟩
          obtain ⟨senderKey', sessionId', payload, index, hsession', hopen, -⟩ :=
            (usable_iff olm).1 (husable ev h')
          obtain ⟨rfl, rfl⟩ := Prod.mk.inj (Option.some.inj (hsession.symm.trans hsession'))
          rw [hmessage] at hopen
          obtain ⟨data, hdata⟩ := (decryptGroupMessage_ok_iff olm).2 hopen
          rw [hres] at hdata
          exact absurd hdata (hfail _)
        split
        next hlooked => cases hlooked
        next hlooked => cases hlooked
        next hlooked => cases hlooked
        next decryption hlooked =>
          obtain rfl := DecryptionPhase.looked.inj hlooked
          by_cases hgood : ∃ payload, decryption.result = some payload ∧
              payload.roomId = (wire ev).event.event.roomId
          · exact .inr hgood
          · refine .inl fun senderKey' sessionId' hsession' => ?_
            obtain ⟨rfl, rfl⟩ := Prod.mk.inj (Option.some.inj (hsession.symm.trans hsession'))
            have hopen : s.store.Opens olm message decryption.result decryption.messageIndex :=
              (decryptGroupMessage_ok_iff olm).1 ⟨decryption.data, congrArg Prod.fst hres⟩
            subst hmessage
            obtain ⟨data, body, after, hdata, -, hbody, hdec, -⟩ := hopen
            refine ⟨data.session, body, decryption.result, decryption.messageIndex, after,
              h.byId _ _ _ hdata, hbody, hdec, fun payload hpayload hroom => ?_⟩
            exact hgood ⟨payload, hpayload, hroom⟩
        next res' hsuccess hlooked =>
          obtain rfl := DecryptionPhase.looked.inj hlooked
          exact hfail fun decryption heq => hsuccess decryption heq
        next hlooked => cases hlooked
        next hlooked => cases hlooked
        next hlooked => cases hlooked
      · exact hok.mono hsame id (fun h' => .inl (husable ev' h')) fun _ hkey => hkey

/-- **What comes of a result**: a clear event, another exception for a plaintext that cannot be
parsed, or a decryption error, for a failure or a payload that is not for the room. -/
theorem megolmResult_cases (ev : RoomEvent) (senderKey sessionId : String)
    (res : GroupResult Session) :
    (∃ out, megolmResult ev senderKey sessionId res = .ok out ∧ out.decryptedBy.isSome = true) ∨
    (megolmResult ev senderKey sessionId res = .error .other ∧
      ∃ decryption, res = .ok (some decryption) ∧ decryption.result = none) ∨
    ∃ code, megolmResult ev senderKey sessionId res = .error (.decryptionError code) ∧
      ∀ decryption, res = .ok (some decryption) → ∃ payload, decryption.result = some payload ∧
        payload.roomId ≠ ev.event.event.roomId := by
  unfold megolmResult
  split
  · exact .inr (.inr ⟨_, rfl, fun decryption heq => (nomatch heq)⟩)
  · exact .inr (.inr ⟨_, rfl, fun decryption heq => (nomatch heq)⟩)
  · exact .inr (.inr ⟨_, rfl, fun decryption heq => (nomatch heq)⟩)
  · exact .inr (.inl ⟨rfl, _, rfl, rfl⟩)
  next payload _ data =>
    split_ifs with hroom
    · refine .inr (.inr ⟨_, rfl, fun decryption heq => ?_⟩)
      obtain rfl := Option.some.inj (Except.ok.inj heq)
      exact ⟨payload, rfl, hroom⟩
    · exact .inl ⟨_, rfl, rfl⟩

omit [DecidableEq Ev] in
/-- An event that has a result keeps what is known of it. -/
theorem phaseOk_megolmResult {res : GroupResult Session} {senderKey sessionId : String}
    (hgood : ∀ decryption, res = .ok (some decryption) → Hopeless olm (wire ev) ∨
      ∃ payload, decryption.result = some payload ∧ payload.roomId = (wire ev).event.event.roomId)
    (hfail : (∀ decryption, res ≠ .ok (some decryption)) → s.WillRetry olm wire ev)
    (hphase : (s.events ev).phase = .settling (megolmResult (wire ev) senderKey sessionId res)) :
    s.PhaseOk olm wire ev := by
  rcases megolmResult_cases (wire ev) senderKey sessionId res with
    ⟨out, heq, hby⟩ | ⟨heq, decryption, hres, hnone⟩ | ⟨code, heq, hbad⟩
  all_goals rw [PhaseOk, hphase, heq]
  · exact hby
  · refine (hgood decryption hres).resolve_right ?_
    rintro ⟨payload, hpayload, -⟩
    rw [hnone] at hpayload
    cases hpayload
  · by_cases hsuccess : ∃ decryption, res = .ok (some decryption)
    · obtain ⟨decryption, hres⟩ := hsuccess
      refine .inl ((hgood decryption hres).resolve_right ?_)
      rintro ⟨payload, hpayload, hroom⟩
      obtain ⟨payload', hpayload', hroom'⟩ := hbad decryption hres
      obtain rfl := Option.some.inj (hpayload.symm.trans hpayload')
      exact hroom' hroom
    · exact .inr (hfail (not_exists.1 hsuccess))

theorem keysTried_resume (h : s.KeysTried olm wire) {res : GroupResult Session}
    (hphase : (s.events ev).phase = .looked res) (hspares : s.SparesWaiting wire (.proceed ev)) :
    (s.resume wire ev res).KeysTried olm wire := by
  have hundone : ¬ (s.events ev).alreadyDecrypted = true := by
    intro halready
    have hidle := h.busy ev halready
    rw [hphase] at hidle
    cases hidle
  have hold := h.phase ev
  rw [PhaseOk, hphase] at hold
  unfold resume
  split
  · exact h
  next senderKey sessionId hsession =>
    split
    next decryption =>
      refine h.setEvent rfl h.byId (fun halready => absurd halready hundone)
        (fun halready => absurd halready hundone) ?_ fun ev' hne hok hsame => ?_
      · refine phaseOk_megolmResult (fun decryption' heq => ?_)
          (fun hfail => absurd rfl (hfail decryption)) (by rw [setEvent_self])
        obtain rfl := Option.some.inj (Except.ok.inj heq)
        exact hold
      · -- the others stay on the list
        refine hok.mono hsame ?_ .inl fun _ hkey => hkey
        rintro ⟨senderKey', sessionId', hsession', hmem⟩
        refine ⟨senderKey', sessionId', hsession', ?_⟩
        change ev' ∈ ((s.setPending _ _).pendingEvents _).events _ _
        rw [setPending_pendingEvents]
        split_ifs with hroom
        · rw [hroom] at hmem
          refine PendingList.mem_events_removeEvent hmem hne fun hempty hother => ?_
          rw [hspares decryption hphase senderKey sessionId hsession hempty hother]
          exact List.not_mem_nil
        · exact hmem
    next hfail =>
      refine h.setEvent rfl h.byId (fun halready => absurd halready hundone)
        (fun halready => absurd halready hundone) ?_ fun ev' hne hok hsame => ?_
      · refine phaseOk_megolmResult (fun decryption heq => absurd heq (hfail decryption))
          (fun _ => ?_) (by rw [setEvent_self])
        rw [WillRetry, setEvent_self]
        split at hold
        all_goals try (rename_i hlooked; cases hlooked)
        · exact absurd rfl (hfail _)
        · exact hold
      · exact hok.mono hsame id .inl fun _ hkey => hkey

theorem keysTried_settle (h : s.KeysTried olm wire) {res : Except DecryptFailure DecryptionResult}
    (hphase : (s.events ev).phase = .settling res) : (s.settle wire ev res).KeysTried olm wire := by
  have hundone : (s.events ev).alreadyDecrypted = false := by
    by_contra halready
    rw [Bool.not_eq_false] at halready
    have hidle := h.busy ev halready
    rw [hphase] at hidle
    cases hidle
  have hold := h.phase ev
  rw [PhaseOk, hphase] at hold
  have hother : ∀ e ev', ev' ≠ ev → s.PhaseOk olm wire ev' →
      (s.setEvent ev e).events ev' = s.events ev' → (s.setEvent ev e).PhaseOk olm wire ev' :=
    fun e ev' _ hok hsame => hok.mono hsame id .inl fun _ hkey => hkey
  unfold settle
  dsimp only
  split
  next res =>
    -- the event is decrypted
    refine h.setEvent rfl h.byId (fun _ => hold) (fun _ => rfl) ?_ (hother _)
    rw [PhaseOk, setEvent_self]
    exact .inr (.inl hold)
  · refine h.setEvent rfl h.byId (fun halready => ?_) (fun _ => rfl) ?_ (hother _)
    · exact absurd (hundone.symm.trans halready) Bool.false_ne_true
    · rw [PhaseOk, setEvent_self]
      exact .inr (.inr (.inl hold))
  · split_ifs with hretry
    · exact keysTried_beginDecryption h hundone
    · refine h.setEvent rfl h.byId (fun halready => ?_) (fun _ => rfl) ?_ (hother _)
      · exact absurd halready Bool.false_ne_true
      · rw [PhaseOk, setEvent_self]
        rcases hold with hhopeless | hwill
        · exact .inr (.inr (.inl hhopeless))
        · exact .inr (.inr (.inr (hwill.resolve_left hretry)))

/-- Attempts for all that is on some of the lists. -/
theorem keysTried_attemptAll (h : s.KeysTried olm wire) {pending : List Ev}
    (ht : t.events = (s.attemptAll pending).events) (hbyId : t.store.ById olm)
    (hother : ∀ ev, ev ∉ pending → s.PhaseOk olm wire ev → t.events ev = s.events ev →
      t.PhaseOk olm wire ev) : t.KeysTried olm wire := by
  have hevent : ∀ ev, t.events ev =
      if ev ∈ pending then (s.events ev).attemptDecryption else s.events ev := by
    intro ev
    rw [ht]
    rfl
  refine ⟨hbyId, fun ev => ?_, fun ev => ?_, fun ev => ?_⟩
  · rw [hevent]
    split_ifs
    · rw [(attemptDecryption_alreadyDecrypted _).1, (attemptDecryption_alreadyDecrypted _).2]
      exact h.clear ev
    · exact h.clear ev
  · rw [hevent]
    split_ifs
    · exact attemptDecryption_busy (h.busy ev)
    · exact h.busy ev
  · by_cases hmem : ev ∈ pending
    · exact (h.phase ev).attempt (h.clear ev) (h.busy ev) (by rw [hevent, if_pos hmem])
    · exact hother ev hmem (h.phase ev) (by rw [hevent, if_neg hmem])

theorem keysTried_storeKey (h : s.KeysTried olm wire) {new : NewSession} {fromEvent : Bool}
    (hse : (decryptionSystem olm wire).step s (.storeKey new fromEvent) = some s') :
    s'.KeysTried olm wire := by
  simp only [decryptionSystem] at hse
  split at hse
  · exact Option.some.inj hse ▸ h
  next data hadd =>
    obtain rfl := Option.some.inj hse
    cases data with
    | none =>
      -- the session that is there is kept
      refine ⟨h.byId, h.clear, h.busy, fun ev => (h.phase ev).mono rfl id .inl fun _ => ?_⟩
      rintro ⟨key, hmem, hawaits⟩
      exact ⟨key, List.mem_append_left _ hmem, hawaits⟩
    | some data =>
      obtain ⟨hroom, hid⟩ := addInboundGroupSession_stored olm hadd
      refine ⟨h.byId.setSession hid, h.clear, h.busy, fun ev => ?_⟩
      refine (h.phase ev).mono rfl id (fun husable => ?_) fun _ => ?_
      · obtain ⟨senderKey, sessionId, payload, index, hsession, hopen, hpayload⟩ :=
          (usable_iff olm).1 husable
        obtain ⟨data', body, after, hdata', hroom', hopen⟩ := hopen
        rw [Option.elim_some, GroupSessionStore.setSession_sessions] at hdata'
        split_ifs at hdata' with hsame
        · -- the key that has come is the one for the event
          obtain rfl := Option.some.inj hdata'
          have hinRoom : (wire ev).roomId = new.roomId := by
            have hid := (wire ev).inRoom
            rcases hroom' with hnull | hroom'
            · rw [show (wire ev).event.event.roomId = .null from hnull] at hid
              cases hid
            · rw [show (wire ev).event.event.roomId = .id data.roomId from hroom'] at hid
              exact (RoomIdField.id.inj hid).symm.trans hroom
          refine .inr ⟨_, List.mem_append_right _ (List.mem_singleton_self _), hinRoom, ?_⟩
          rw [hsession]
          exact congrArg some (Prod.ext hsame.1 hsame.2)
        · exact .inl ((usable_iff olm).2 ⟨senderKey, sessionId, payload, index, hsession,
            ⟨data', body, after, hdata', hroom', hopen⟩, hpayload⟩)
      · rintro ⟨key, hmem, hawaits⟩
        exact ⟨key, List.mem_append_left _ hmem, hawaits⟩

omit [DecidableEq Ev] in
/-- A key that is not for the event is no loss to it. -/
theorem HasKey.eraseIdx (h : s.HasKey wire ev) {i : ℕ} {key : RoomKey}
    (hkey : s.keys[i]? = some key) (ht : t.keys = s.keys.eraseIdx i)
    (hother : ¬ (wire ev).Awaits key.roomId key.senderKey key.sessionId) : t.HasKey wire ev := by
  obtain ⟨key', hmem, hawaits⟩ := h
  obtain ⟨j, hj⟩ := List.mem_iff_getElem?.1 hmem
  have hne : j ≠ i := by
    rintro rfl
    obtain rfl := Option.some.inj (hkey.symm.trans hj)
    exact hother hawaits
  refine ⟨key', ?_, hawaits⟩
  rw [ht]
  exact List.mem_eraseIdx_iff_getElem?.2 ⟨j, hne, hj⟩

theorem keysTried_retry (h : s.KeysTried olm wire) {i : ℕ}
    (hse : (decryptionSystem olm wire).step s (.retry i) = some s') : s'.KeysTried olm wire := by
  simp only [decryptionSystem] at hse
  split at hse
  · cases hse
  next key hkey =>
    -- an event of the session that is on the list is in its set
    have hlist : ∀ ev, s.Tracked wire ev → (wire ev).Awaits key.roomId key.senderKey key.sessionId →
        ev ∈ (s.pendingEvents key.roomId).events key.senderKey key.sessionId := by
      rintro ev ⟨senderKey, sessionId, hsession, hmem⟩ hawaits
      obtain ⟨hroom, hsession'⟩ := hawaits
      obtain ⟨rfl, rfl⟩ := Prod.mk.inj (Option.some.inj (hsession.symm.trans hsession'))
      exact hroom ▸ hmem
    split at hse
    next hnone =>
      obtain rfl := Option.some.inj hse
      refine ⟨h.byId, h.clear, h.busy, fun ev => ?_⟩
      refine (h.phase ev).mono rfl id .inl fun htracked hhas => hhas.eraseIdx hkey rfl ?_
      intro hawaits
      obtain ⟨pending, hlookup, -⟩ := PendingList.mem_events.1 (hlist ev htracked hawaits)
      rw [hnone] at hlookup
      cases hlookup
    next pending hlookup =>
      obtain rfl := Option.some.inj hse
      refine keysTried_attemptAll h rfl h.byId fun ev hmem hok hsame => ?_
      refine hok.mono hsame id .inl fun htracked hhas => hhas.eraseIdx hkey rfl fun hawaits => ?_
      obtain ⟨pending', hlookup', hmem'⟩ := PendingList.mem_events.1 (hlist ev htracked hawaits)
      obtain rfl := Option.some.inj (hlookup.symm.trans hlookup')
      exact hmem hmem'

theorem keysTried_retryFromSender (h : s.KeysTried olm wire) {roomId senderKey : String}
    (hse : (decryptionSystem olm wire).step s (.retryFromSender roomId senderKey) = some s') :
    s'.KeysTried olm wire := by
  simp only [decryptionSystem] at hse
  split at hse
  · exact Option.some.inj hse ▸ h
  next senderPendingEvents hsender =>
    obtain rfl := Option.some.inj hse
    refine keysTried_attemptAll h rfl h.byId fun ev hmem hok hsame => ?_
    refine hok.mono hsame ?_ .inl fun _ hkey => hkey
    -- what is taken off the list is tried
    rintro ⟨senderKey', sessionId, hsession, hwaits⟩
    refine ⟨senderKey', sessionId, hsession, ?_⟩
    change ev ∈ ((s.setPending _ _).pendingEvents _).events _ _
    rw [setPending_pendingEvents]
    split_ifs with hroom
    · rw [hroom] at hwaits
      rw [PendingList.events, PendingList.lookup_deleteSender]
      split_ifs with hsame'
      · subst hsame'
        obtain ⟨pending, hlookup, hpending⟩ := PendingList.mem_events.1 hwaits
        rw [PendingList.lookup, hsender, Option.bind_some] at hlookup
        refine absurd (List.mem_flatMap.2 ⟨sessionId, mem_keys_of_get hlookup, ?_⟩) hmem
        rw [hlookup]
        exact hpending
      · exact hwaits
    · exact hwaits

/-- A step that spares the waiting events preserves it. -/
theorem keysTried_step {Key : Type} {key : Session → Key} (hkey : DecryptsByKey olm key)
    (hid : DecryptsById olm) {e : DecryptionStep Ev} (h : s.KeysTried olm wire)
    (he : s.SparesWaiting wire e) (hse : (decryptionSystem olm wire).step s e = some s') :
    s'.KeysTried olm wire := by
  cases e with
  | attempt ev =>
    obtain rfl := Option.some.inj hse
    refine h.setEvent rfl h.byId ?_ (attemptDecryption_busy (h.busy ev)) ?_ ?_
    · rw [(attemptDecryption_alreadyDecrypted _).1, (attemptDecryption_alreadyDecrypted _).2]
      exact h.clear ev
    · exact (h.phase ev).attempt (h.clear ev) (h.busy ev) (setEvent_self ..)
    · exact fun ev' hne hok hsame => hok.mono hsame id .inl fun _ hkey => hkey
  | proceed ev =>
    simp only [decryptionSystem] at hse
    split at hse
    next => cases hse
    next hphase =>
      obtain rfl := Option.some.inj hse
      refine keysTried_beginDecryption h ?_
      by_contra halready
      rw [Bool.not_eq_false] at halready
      have hidle := h.busy ev halready
      rw [hphase] at hidle
      cases hidle
    next hphase =>
      obtain rfl := Option.some.inj hse
      exact keysTried_lookUp hkey hid h hphase
    next res hphase =>
      obtain rfl := Option.some.inj hse
      exact keysTried_resume h hphase he
    next res hphase =>
      obtain rfl := Option.some.inj hse
      exact keysTried_settle h hphase
  | storeKey new fromEvent => exact keysTried_storeKey h hse
  | retry i => exact keysTried_retry h hse
  | finishRetry i =>
    simp only [decryptionSystem, retrySuccess_eq_true] at hse
    split at hse
    · cases hse
    · split_ifs at hse
      obtain rfl := Option.some.inj hse
      exact ⟨h.byId, h.clear, h.busy, fun ev => (h.phase ev).mono rfl id .inl fun _ hkey => hkey⟩
  | retryFromSender roomId senderKey => exact keysTried_retryFromSender h hse
  | withhold senderKey sessionId =>
    obtain rfl := Option.some.inj hse
    refine ⟨h.byId, h.clear, h.busy, fun ev => (h.phase ev).mono rfl id ?_ fun _ hkey => hkey⟩
    intro husable
    obtain ⟨senderKey', sessionId', payload, index, hsession, hopen, hroom⟩ :=
      (usable_iff olm).1 husable
    exact .inl ((usable_iff olm).2 ⟨senderKey', sessionId', payload, index, hsession, hopen, hroom⟩)

end DecryptionState

end Model

/-! Three runs for events of Alice. The key of the first arrives between its lookup and its failure.
Then one waits for a session whose id is the sender key, and is forgotten when the other one is
decrypted. At last there is a message that its session cannot decrypt. -/

section Examples

def roomEvent (sessionId body : String) : RoomEvent where
  event := MatrixEvent.new
    { type := .encrypted, isState := false, roomId := .id "!room:a", sender := "@alice:a"
      eventId := "$1", originServerTs := some 0, isRedacted := false
      content := some { KeyContent.empty with
        algorithm := some .megolm, senderKey := "alice", sessionId := sessionId
        ciphertext := .group body } }
  roomId := "!room:a"
  inRoom := rfl
  nonempty := by decide

def messagePayload : Payload :=
  { Payload.empty with
    type := some .message, content := some .empty, roomId := .id "!room:a" }

theorem exampleSessions_decryptsByKey (payload : Payload) :
    DecryptsByKey (exampleSessions payload) id := by
  constructor
  · rintro session session' after body plaintext index rfl h
    exact ⟨after, h⟩
  · intro session after body plaintext index h
    simp only [exampleSessions] at h
    split_ifs at h
    obtain ⟨-, -, rfl⟩ := Prod.mk.inj (Except.ok.inj h)
    rfl

theorem exampleSessions_decryptsById (payload : Payload) :
    DecryptsById (exampleSessions payload) := by
  constructor
  · intro session after body plaintext index h
    exact (exampleSessions_decryptsByKey payload).kept h
  · rintro session session' after after' body plaintext plaintext' index index' rfl h h'
    obtain ⟨rfl, -⟩ := Prod.mk.inj (Except.ok.inj (h.symm.trans h'))
    rfl

/-- The session id of one of the events is their sender key. -/
def twoEvents (ev : Bool) : RoomEvent :=
  if ev then roomEvent "alice" "alice" else roomEvent "first" "first"

abbrev twoEventSystem : System (DecryptionState String Bool) (DecryptionStep Bool) :=
  decryptionSystem (exampleSessions messagePayload) twoEvents

def newSession (sessionId : String) : NewSession :=
  ⟨"!room:a", "alice", [], sessionId, sessionId, none, false⟩

def keyDuringAttempt : List (DecryptionStep Bool) :=
  [.attempt false, .proceed false, .proceed false, .storeKey (newSession "first") true, .retry 0,
    .proceed false, .proceed false, .proceed false, .proceed false, .proceed false, .finishRetry 0]

theorem keyDuringAttempt_runs : (twoEventSystem.run keyDuringAttempt).isSome := by decide

def sessionIdIsSenderKey : List (DecryptionStep Bool) :=
  [.attempt false, .proceed false, .proceed false, .proceed false, .proceed false,
    .attempt true, .proceed true, .proceed true, .proceed true, .proceed true,
    .storeKey (newSession "first") true, .retry 0,
    .proceed false, .proceed false, .proceed false, .proceed false, .finishRetry 0,
    .storeKey (newSession "alice") true, .retry 0]

theorem sessionIdIsSenderKey_runs : (twoEventSystem.run sessionIdIsSenderKey).isSome := by decide

/-- One event, of a session that cannot decrypt it. -/
def oneEvent (_ : Unit) : RoomEvent := roomEvent "first" "other"

abbrev oneEventSystem : System (DecryptionState String Unit) (DecryptionStep Unit) :=
  decryptionSystem (exampleSessions messagePayload) oneEvent

/-- The key of another session arrives. -/
def otherKey : List (DecryptionStep Unit) :=
  [.attempt (), .proceed (), .proceed (), .proceed (), .proceed (),
    .storeKey (newSession "second") true, .retry 0]

theorem otherKey_runs : (oneEventSystem.run otherKey).isSome := by decide

/-- The key of the session arrives, and does not decrypt the event. -/
def uselessKey : List (DecryptionStep Unit) :=
  [.attempt (), .proceed (), .proceed (), .proceed (), .proceed (),
    .storeKey (newSession "first") true, .retry 0,
    .proceed (), .proceed (), .proceed (), .proceed (), .finishRetry 0]

theorem uselessKey_runs : (oneEventSystem.run uselessKey).isSome := by decide

end Examples

end MatrixSdk.Crypto
