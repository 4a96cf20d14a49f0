/-
Out-of-band members in the two stores of the client: `MemoryStore` of `store/memory.js`, and
`IndexedDBStore` of `store/indexeddb.js` with its backend `store/indexeddb-local-backend.js`.

`IndexedDBStore` repeats every change in memory, and becomes a `MemoryStore` when the backend fails.
So a store that has failed gives what a `MemoryStore` gives, see [`Stores.Inv.get_of_degraded`].
While the backend works the two differ: the memory store forgets all rooms when one is cleared, and
the backend keeps the members of a room that are not written again.
[`Stores.sameMembers_iff`] says when neither shows.
-/
import MatrixSdk.Lib.JsObject
import MatrixSdk.Lib.System
import Mathlib.Data.String.Basic
import Mathlib.Order.WithBot
import Mathlib.Data.List.Perm.Subperm

set_option autoImplicit false

namespace MatrixSdk.Store

open MatrixSdk.Lib

/-! ## The stores -/

/-- A membership event as the server sends it. -/
structure MembershipEvent where
  room_id : Option String
  state_key : Option String
  /-- Whether there is such a field and it is true; no event of the protocol has it. -/
  oob_written : Bool
  content : String
  deriving DecidableEq

/-- `null` for a room that was not stored. -/
abbrev Members := Option (List MembershipEvent)

/-- The calls, each for a room. -/
inductive Call
  | getOutOfBandMembers (roomId : String)
  | setOutOfBandMembers (roomId : String) (membershipEvents : List MembershipEvent)
  | clearOutOfBandMembers (roomId : String)

/-- `_oobMembers` of a `MemoryStore`. -/
structure MemoryStore where
  oobMembers : JsObject String (List MembershipEvent)

namespace MemoryStore

variable (s : MemoryStore)

def getOutOfBandMembers (roomId : String) : Members := s.oobMembers.get roomId

def setOutOfBandMembers (roomId : String) (membershipEvents : List MembershipEvent) :
    MemoryStore :=
  { s with oobMembers := s.oobMembers.set roomId membershipEvents }

/-- It takes no room, and forgets all. -/
def clearOutOfBandMembers : MemoryStore := ⟨.empty⟩

/-- The store after a call, and what the call returns. -/
def call : Call → MemoryStore × Members
  | .getOutOfBandMembers roomId => (s, s.getOutOfBandMembers roomId)
  | .setOutOfBandMembers roomId membershipEvents =>
    (s.setOutOfBandMembers roomId membershipEvents, none)
  | .clearOutOfBandMembers _ => (clearOutOfBandMembers, none)

end MemoryStore

/-- The second part of a key of the object store: the number 0, which comes before all strings, or
a state key. -/
abbrev StateKey := WithBot String

/-- A record of the object store. -/
inductive OobRecord
  | markerObject (roomId : String)
  | event (e : MembershipEvent)
  deriving DecidableEq

def OobRecord.oob_written : OobRecord → Bool
  | markerObject _ => true
  | event e => e.oob_written

/-- What is read of a record, unless it is a marker. -/
def OobRecord.membershipEvent : OobRecord → Option MembershipEvent
  | markerObject _ => none
  | event e => if e.oob_written then none else some e

/-- The object store "oob_membership_events", with the key path `["room_id", "state_key"]`. -/
structure LocalIndexedDBStoreBackend where
  records : JsObject (String × StateKey) OobRecord

namespace LocalIndexedDBStoreBackend

variable (s : LocalIndexedDBStoreBackend)

/-- The records of a room; their order plays no part here. -/
def recordsOf (roomId : String) : List OobRecord :=
  (s.records.entries.filter fun entry => entry.1.1 = roomId).map (·.2)

def getOutOfBandMembers (roomId : String) : Members :=
  let membershipEvents := (s.recordsOf roomId).filterMap OobRecord.membershipEvent
  let oobWritten := (s.recordsOf roomId).any OobRecord.oob_written
  if membershipEvents = [] ∧ ¬ oobWritten then none else some membershipEvents

/-- `put` fails when the event lacks a part of the key. -/
def put (e : MembershipEvent) : Except String LocalIndexedDBStoreBackend :=
  match e.room_id, e.state_key with
  | some roomId, some stateKey =>
    .ok { s with records := s.records.set (roomId, (stateKey : StateKey)) (.event e) }
  | _, _ => .error "DataError"

/-- `membershipEvents.forEach((e) => store.put(e))` -/
def putAll : LocalIndexedDBStoreBackend → List MembershipEvent →
    Except String LocalIndexedDBStoreBackend
  | s, [] => .ok s
  | s, e :: events => (s.put e).bind fun s => putAll s events

def setOutOfBandMembers (roomId : String) (membershipEvents : List MembershipEvent) :
    Except String LocalIndexedDBStoreBackend :=
  (s.putAll membershipEvents).map fun s =>
    { s with records := s.records.set (roomId, ⊥) (.markerObject roomId) }

def stateKeysOf (roomId : String) : List StateKey :=
  (s.records.keys.filter fun key => key.1 = roomId).map (·.2)

/-- Delete what lies between the first and the last key of the room; without any the range would
have `null` in it, which is no key. -/
def clearOutOfBandMembers (roomId : String) : Except String LocalIndexedDBStoreBackend :=
  match (s.stateKeysOf roomId).min?, (s.stateKeysOf roomId).max? with
  | some minStateKey, some maxStateKey =>
    .ok { s with records := s.records.filter fun key =>
      ¬ (key.1 = roomId ∧ minStateKey ≤ key.2 ∧ key.2 ≤ maxStateKey) }
  | _, _ => .error "DataError"

/-- The backend after a call, and what the call returns. -/
def call : Call → Except String (LocalIndexedDBStoreBackend × Members)
  | .getOutOfBandMembers roomId => .ok (s, s.getOutOfBandMembers roomId)
  | .setOutOfBandMembers roomId membershipEvents =>
    (s.setOutOfBandMembers roomId membershipEvents).map (·, none)
  | .clearOutOfBandMembers roomId => (s.clearOutOfBandMembers roomId).map (·, none)

end LocalIndexedDBStoreBackend

/-- An `IndexedDBStore`, which is a `MemoryStore` with a backend. -/
structure IndexedDBStore extends MemoryStore where
  backend : LocalIndexedDBStoreBackend
  /-- Whether its prototype is that of `MemoryStore` by now. -/
  degraded : Bool

namespace IndexedDBStore

variable (s : IndexedDBStore)

/-- What a call does in memory before it goes to the backend: nothing when it only reads. -/
def mirrored (c : Call) : IndexedDBStore := { s with toMemoryStore := (s.toMemoryStore.call c).1 }

/-- A call, which `fails` for a reason of the backend's own. -/
def call (fails : Bool) (c : Call) : IndexedDBStore × Members :=
  if s.degraded then
    ({ s with toMemoryStore := (s.toMemoryStore.call c).1 }, (s.toMemoryStore.call c).2)
  else
    match (if fails then .error "UnknownError" else s.backend.call c) with
    | .ok (backend, result) => ({ s.mirrored c with backend := backend }, result)
    | .error _ =>
      -- degrade, and call the function of `MemoryStore` on what is in memory
      ({ s.mirrored c with
          toMemoryStore := ((s.mirrored c).toMemoryStore.call c).1
          degraded := true },
        ((s.mirrored c).toMemoryStore.call c).2)

end IndexedDBStore

/-! ## What the calls are for -/

/-- The event has the two parts of a key. -/
def MembershipEvent.HasKey (e : MembershipEvent) : Prop := e.room_id ≠ none ∧ e.state_key ≠ none

/-- The events are members of the room, one for each state key, and leave out none of those with an
event before. -/
def Replaces (roomId : String) (membershipEvents : List MembershipEvent) (before : Members) :
    Prop :=
  (∀ e ∈ membershipEvents, e.room_id = some roomId ∧ e.oob_written = false) ∧
    (membershipEvents.map MembershipEvent.state_key).Nodup ∧
      ∀ old ∈ before.getD [], old.state_key ∈ membershipEvents.map MembershipEvent.state_key

/-- Both stores, and for each room what was last set and not cleared since. -/
structure Stores where
  memory : MemoryStore
  indexedDB : IndexedDBStore
  members : String → Members

namespace Stores

/-- The room gets the members that are set, and loses them when it is cleared. -/
def expect (members : String → Members) : Call → String → Members
  | .getOutOfBandMembers _ => members
  | .setOutOfBandMembers roomId membershipEvents =>
    Function.update members roomId (some membershipEvents)
  | .clearOutOfBandMembers roomId => Function.update members roomId none

/-- A call of both stores; whether the backend fails at it comes with the call. -/
def step (s : Stores) (input : Bool × Call) : Stores where
  memory := (s.memory.call input.2).1
  indexedDB := (s.indexedDB.call input.1 input.2).1
  members := expect s.members input.2

/-- Any sequence of calls, from empty stores. -/
def system : System Stores (Bool × Call) where
  init := ⟨⟨.empty⟩, ⟨⟨.empty⟩, ⟨.empty⟩, false⟩, fun _ => none⟩
  step s input := some (s.step input)

/-- **The stores give the same members**, those last set, whether the backend fails or not. -/
def SameMembers (s : Stores) : Prop :=
  (∀ roomId, s.memory.getOutOfBandMembers roomId = s.members roomId) ∧
    ∀ fails roomId, Option.Rel List.Perm
      (s.indexedDB.call fails (.getOutOfBandMembers roomId)).2 (s.members roomId)

/-- The call is one at which the stores do not come apart. -/
def Harmless (s : Stores) (input : Bool × Call) : Prop :=
  match input.2 with
  | .getOutOfBandMembers _ => True
  | .setOutOfBandMembers roomId membershipEvents =>
    s.indexedDB.degraded = true ∨ input.1 = true ∨
      (∃ e ∈ membershipEvents, ¬ e.HasKey) ∨
        Replaces roomId membershipEvents (s.members roomId)
  | .clearOutOfBandMembers roomId => ∀ other, other ≠ roomId → s.members other = none

end Stores

/-! ## The records of the backend -/

namespace LocalIndexedDBStoreBackend

/-- A record is stored under the key that its path gives. -/
def Keyed (key : String × StateKey) : OobRecord → Prop
  | .markerObject roomId => key = (roomId, ⊥)
  | .event e => ∃ stateKey : String,
      e.room_id = some key.1 ∧ e.state_key = some stateKey ∧ key.2 = stateKey

/-- Every record is. -/
def WellKeyed (s : LocalIndexedDBStoreBackend) : Prop :=
  ∀ key record, s.records.get key = some record → Keyed key record

/-- The event is stored for the room, and none that counts as a marker. -/
def Stored (s : LocalIndexedDBStoreBackend) (roomId : String) (e : MembershipEvent) : Prop :=
  (∃ key, s.records.get (roomId, key) = some (.event e)) ∧ e.oob_written = false

variable {s : LocalIndexedDBStoreBackend} {roomId : String} {e : MembershipEvent}
  {key : String × StateKey} {events : List MembershipEvent} {s' : LocalIndexedDBStoreBackend}

theorem mem_recordsOf {record : OobRecord} :
    record ∈ s.recordsOf roomId ↔ ∃ key, s.records.get (roomId, key) = some record := by
  rw [recordsOf, List.mem_map]
  constructor
  · rintro ⟨⟨⟨room, key⟩, value⟩, hmem, rfl⟩
    rw [List.mem_filter] at hmem
    obtain rfl : room = roomId := of_decide_eq_true hmem.2
    exact ⟨key, JsObject.mem_entries.1 hmem.1⟩
  · rintro ⟨key, hget⟩
    exact ⟨((roomId, key), record),
      List.mem_filter.2 ⟨JsObject.mem_entries.2 hget, decide_eq_true rfl⟩, rfl⟩

theorem recordsOf_eq_nil : s.recordsOf roomId = [] ↔ ∀ key, s.records.get (roomId, key) = none := by
  rw [List.eq_nil_iff_forall_not_mem]
  constructor
  · intro hnone key
    cases hget : s.records.get (roomId, key) with
    | none => rfl
    | some record => exact absurd (mem_recordsOf.2 ⟨key, hget⟩) (hnone record)
  · intro hnone record hmem
    obtain ⟨key, hget⟩ := mem_recordsOf.1 hmem
    exact nomatch (hnone key).symm.trans hget

theorem mem_membershipEvents :
    e ∈ (s.recordsOf roomId).filterMap OobRecord.membershipEvent ↔ s.Stored roomId e := by
  rw [List.mem_filterMap]
  constructor
  · rintro ⟨record, hmem, hread⟩
    cases record with
    | markerObject room => exact nomatch hread
    | event e' =>
      rw [OobRecord.membershipEvent] at hread
      split at hread
      · exact nomatch hread
      next hwritten =>
        obtain rfl := Option.some.inj hread
        exact ⟨mem_recordsOf.1 hmem, eq_false_of_ne_true hwritten⟩
  · rintro ⟨hget, hwritten⟩
    refine ⟨.event e, mem_recordsOf.2 hget, ?_⟩
    rw [OobRecord.membershipEvent, hwritten]
    rfl

/-- A record is stored under one key only. -/
theorem recordsOf_nodup (hkeyed : s.WellKeyed) (roomId : String) :
    (s.recordsOf roomId).Nodup := by
  refine List.Nodup.map_on ?_ (s.records.entries_nodup.of_map.filter _)
  rintro ⟨⟨room, key⟩, record⟩ hmem ⟨⟨room', key'⟩, record'⟩ hmem' (rfl : record = record')
  rw [List.mem_filter] at hmem hmem'
  obtain rfl : room = roomId := of_decide_eq_true hmem.2
  obtain rfl : room' = room := of_decide_eq_true hmem'.2
  have hkey := hkeyed _ _ (JsObject.mem_entries.1 hmem.1)
  have hkey' := hkeyed _ _ (JsObject.mem_entries.1 hmem'.1)
  cases record with
  | markerObject _ => rw [hkey.trans hkey'.symm]
  | event e =>
    obtain ⟨stateKey, -, hstate, rfl⟩ := hkey
    obtain ⟨stateKey', -, hstate', rfl⟩ := hkey'
    rw [Option.some.inj (hstate.symm.trans hstate')]

/-- **What is read**: nothing from a room without records, else the events stored for it. -/
theorem rel_getOutOfBandMembers (hkeyed : s.WellKeyed) (roomId : String) (m : Members) :
    Option.Rel List.Perm (s.getOutOfBandMembers roomId) m ↔
      match m with
      | none => ∀ key, s.records.get (roomId, key) = none
      | some events => (∃ key, s.records.get (roomId, key) ≠ none) ∧ events.Nodup ∧
          ∀ e, e ∈ events ↔ s.Stored roomId e := by
  have hnodup : ((s.recordsOf roomId).filterMap OobRecord.membershipEvent).Nodup := by
    refine (recordsOf_nodup hkeyed roomId).filterMap ?_
    intro record record' e he he'
    cases record with
    | markerObject _ => exact nomatch he
    | event e₁ =>
      cases record' with
      | markerObject _ => exact nomatch he'
      | event e₂ =>
        simp only [OobRecord.membershipEvent, Option.mem_def, Option.ite_none_left_eq_some,
          Option.some.injEq] at he he'
        rw [he.2, he'.2]
  have hnone : ((s.recordsOf roomId).filterMap OobRecord.membershipEvent = [] ∧
      ¬ (s.recordsOf roomId).any OobRecord.oob_written) ↔
        ∀ key, s.records.get (roomId, key) = none := by
    rw [← recordsOf_eq_nil]
    constructor
    · rintro ⟨hread, hmarker⟩
      rw [List.eq_nil_iff_forall_not_mem]
      intro record hmem
      have hunmarked : record.oob_written = false := by
        rw [List.any_eq_true, not_exists] at hmarker
        exact eq_false_of_ne_true fun hcontra => hmarker record ⟨hmem, hcontra⟩
      cases record with
      | markerObject _ => exact nomatch hunmarked
      | event e =>
        have hstored := mem_membershipEvents.2 ⟨mem_recordsOf.1 hmem, hunmarked⟩
        rw [hread] at hstored
        exact List.not_mem_nil hstored
    · intro hnil
      rw [hnil]
      exact ⟨rfl, fun hcontra => nomatch hcontra⟩
  rw [getOutOfBandMembers]
  by_cases hempty : ∀ key, s.records.get (roomId, key) = none
  · rw [if_pos (hnone.2 hempty)]
    cases m with
    | none => exact iff_of_true .none hempty
    | some events =>
      refine iff_of_false (fun hcontra => nomatch hcontra) ?_
      rintro ⟨⟨key, hkey⟩, -⟩
      exact hkey (hempty key)
  · rw [if_neg (fun hcontra => hempty (hnone.1 hcontra))]
    cases m with
    | none => exact iff_of_false (fun hcontra => nomatch hcontra) hempty
    | some events =>
      constructor
      · rintro (hperm | _)
        refine ⟨not_forall.1 hempty, hperm.nodup hnodup, fun e => ?_⟩
        rw [← hperm.mem_iff, mem_membershipEvents]
      · rintro ⟨-, hevents, hmem⟩
        refine .some ((List.perm_ext_iff_of_nodup hnodup hevents).2 fun e => ?_)
        rw [mem_membershipEvents, hmem]

/-! ## Storing members -/

theorem exists_keyed (h : e.HasKey) : ∃ key, Keyed key (.event e) := by
  obtain ⟨roomId, hroom⟩ := Option.ne_none_iff_exists'.1 h.1
  obtain ⟨stateKey, hstate⟩ := Option.ne_none_iff_exists'.1 h.2
  exact ⟨(roomId, stateKey), stateKey, hroom, hstate, rfl⟩

theorem put_eq (h : Keyed key (.event e)) : s.put e = .ok ⟨s.records.set key (.event e)⟩ := by
  obtain ⟨stateKey, hroom, hstate, hkey⟩ := h
  rw [put, hroom, hstate]
  show Except.ok (⟨s.records.set (key.1, (stateKey : StateKey)) _⟩ : LocalIndexedDBStoreBackend) = _
  rw [← hkey]

theorem put_error (h : ¬ e.HasKey) : s.put e = .error "DataError" := by
  rw [MembershipEvent.HasKey, not_and_or, not_not, not_not] at h
  rw [put]
  rcases h with hroom | hstate
  · rw [hroom]
  · rw [hstate]
    cases e.room_id <;> rfl

theorem WellKeyed.set (h : s.WellKeyed) {record : OobRecord} (hkey : Keyed key record) :
    WellKeyed ⟨s.records.set key record⟩ := by
  intro key' record' hget
  rw [JsObject.get_set] at hget
  split at hget
  next heq =>
    obtain rfl := Option.some.inj hget
    rw [heq]
    exact hkey
  next => exact h key' record' hget

/-- **The loop of `put`s** overwrites what has the key of one of the events and keeps the rest. -/
theorem putAll_ok (events : List MembershipEvent) (hkeys : ∀ e ∈ events, e.HasKey) :
    ∀ s : LocalIndexedDBStoreBackend, s.WellKeyed → ∃ s', s.putAll events = .ok s' ∧ s'.WellKeyed ∧
      ∀ key, (∃ e ∈ events, Keyed key (.event e) ∧ s'.records.get key = some (.event e)) ∨
        (∀ e ∈ events, ¬ Keyed key (.event e)) ∧ s'.records.get key = s.records.get key := by
  induction events with
  | nil =>
    intro s hs
    exact ⟨s, rfl, hs, fun key => .inr ⟨fun e he => absurd he List.not_mem_nil, rfl⟩⟩
  | cons first events ih =>
    intro s hs
    obtain ⟨key₁, hkey₁⟩ := exists_keyed (hkeys first List.mem_cons_self)
    obtain ⟨s', hput, hs', hget⟩ := ih (fun e he => hkeys e (List.mem_cons_of_mem _ he)) _
      (hs.set hkey₁)
    refine ⟨s', ?_, hs', fun key => ?_⟩
    · rw [putAll, put_eq hkey₁]
      exact hput
    · rcases hget key with ⟨e, he, hkey, hstored⟩ | ⟨hnone, hkept⟩
      · exact .inl ⟨e, List.mem_cons_of_mem _ he, hkey, hstored⟩
      · rw [JsObject.get_set] at hkept
        by_cases heq : key = key₁
        · rw [if_pos heq] at hkept
          exact .inl ⟨first, List.mem_cons_self, heq ▸ hkey₁, hkept⟩
        · rw [if_neg heq] at hkept
          refine .inr ⟨fun e he => ?_, hkept⟩
          rcases List.mem_cons.1 he with rfl | he
          · intro hkey
            obtain ⟨stateKey, hroom, hstate, hpart⟩ := hkey
            obtain ⟨stateKey₁, hroom₁, hstate₁, hpart₁⟩ := hkey₁
            refine heq (Prod.ext (Option.some.inj (hroom.symm.trans hroom₁)) ?_)
            rw [hpart, hpart₁, Option.some.inj (hstate.symm.trans hstate₁)]
          · exact hnone e he

/-- One event without a key is enough for the loop to fail. -/
theorem putAll_error (events : List MembershipEvent) (h : ∃ e ∈ events, ¬ e.HasKey) :
    ∀ s : LocalIndexedDBStoreBackend, s.putAll events = .error "DataError" := by
  induction events with
  | nil =>
    obtain ⟨e, he, -⟩ := h
    exact absurd he List.not_mem_nil
  | cons first events ih =>
    intro s
    rw [putAll]
    by_cases hfirst : first.HasKey
    · obtain ⟨key, hkey⟩ := exists_keyed hfirst
      obtain ⟨e, he, hnone⟩ := h
      rw [put_eq hkey]
      refine ih ⟨e, ?_, hnone⟩ _
      rcases List.mem_cons.1 he with rfl | he
      · exact absurd hfirst hnone
      · exact he
    · rw [put_error hfirst]
      rfl

theorem setOutOfBandMembers_error (h : ∃ e ∈ events, ¬ e.HasKey) :
    s.setOutOfBandMembers roomId events = .error "DataError" := by
  rw [setOutOfBandMembers, putAll_error events h]
  rfl

/-- **Storing members**: besides the events there is a marker for the room afterwards. -/
theorem setOutOfBandMembers_ok (hs : s.WellKeyed) (roomId : String)
    (hkeys : ∀ e ∈ events, e.HasKey) : ∃ s', s.setOutOfBandMembers roomId events = .ok s' ∧
      s'.WellKeyed ∧ s'.records.get (roomId, ⊥) = some (.markerObject roomId) ∧
      ∀ key, key ≠ (roomId, ⊥) →
        (∃ e ∈ events, Keyed key (.event e) ∧ s'.records.get key = some (.event e)) ∨
        (∀ e ∈ events, ¬ Keyed key (.event e)) ∧ s'.records.get key = s.records.get key := by
  obtain ⟨s₁, hput, hs₁, hget⟩ := putAll_ok events hkeys s hs
  refine ⟨⟨s₁.records.set (roomId, ⊥) (.markerObject roomId)⟩, ?_, hs₁.set rfl,
    JsObject.get_set_self _ _ _, ?_⟩
  · rw [setOutOfBandMembers, hput]
    rfl
  · intro key hkey
    rw [JsObject.get_set_ne hkey]
    exact hget key

theorem ne_marker_of_keyed (h : Keyed key (.event e)) : key ≠ (roomId, ⊥) := by
  rintro rfl
  obtain ⟨stateKey, -, -, hcontra⟩ := h
  exact WithBot.bot_ne_coe hcontra

/-- **A room has exactly the members that are stored** when they replace those from before. -/
theorem rel_setOutOfBandMembers_iff (hs : s.WellKeyed) {before : Members}
    (hbefore : Option.Rel List.Perm (s.getOutOfBandMembers roomId) before)
    (hkeys : ∀ e ∈ events, e.HasKey) (hok : s.setOutOfBandMembers roomId events = .ok s') :
    Option.Rel List.Perm (s'.getOutOfBandMembers roomId) (some events) ↔
      Replaces roomId events before := by
  obtain ⟨_, hok', hs', hmarker, hget⟩ := setOutOfBandMembers_ok hs roomId hkeys
  obtain rfl := Except.ok.inj (hok.symm.trans hok')
  -- the events from before are those the backend had
  have hold : ∀ old, old ∈ before.getD [] ↔ s.Stored roomId old := by
    intro old
    rw [rel_getOutOfBandMembers hs] at hbefore
    cases before with
    | none =>
      refine iff_of_false List.not_mem_nil ?_
      rintro ⟨⟨key, hstored⟩, -⟩
      exact nomatch (hbefore key).symm.trans hstored
    | some l => exact hbefore.2.2 old
  rw [rel_getOutOfBandMembers hs']
  constructor
  · rintro ⟨-, hnodup, hmem⟩
    refine ⟨fun e he => ?_, hnodup.map_on fun e he e' he' hstate => ?_, fun old hbefore => ?_⟩
    · obtain ⟨⟨key, hstored⟩, hwritten⟩ := (hmem e).1 he
      obtain ⟨stateKey, hroom, -, -⟩ := hs' _ _ hstored
      exact ⟨hroom, hwritten⟩
    · -- two events with one state key are under one key
      obtain ⟨⟨key, hstored⟩, -⟩ := (hmem e).1 he
      obtain ⟨⟨key', hstored'⟩, -⟩ := (hmem e').1 he'
      obtain ⟨stateKey, -, hkey, rfl⟩ := hs' _ _ hstored
      obtain ⟨stateKey', -, hkey', rfl⟩ := hs' _ _ hstored'
      obtain rfl : stateKey = stateKey' :=
        Option.some.inj (hkey.symm.trans (hstate.trans hkey'))
      exact OobRecord.event.inj (Option.some.inj (hstored.symm.trans hstored'))
    · -- an event from before that is not overwritten is still there, so it is one of the new ones
      obtain ⟨⟨key, hstored⟩, hwritten⟩ := (hold old).1 hbefore
      obtain ⟨stateKey, -, hstate, hkey⟩ := hs _ _ hstored
      rcases hget (roomId, key) (ne_marker_of_keyed (hs _ _ hstored)) with
        ⟨e, he, hover, -⟩ | ⟨-, hkept⟩
      · obtain ⟨stateKey', -, hstate', hkey'⟩ := hover
        obtain rfl : stateKey = stateKey' := WithBot.coe_injective (hkey.symm.trans hkey')
        rw [hstate, ← hstate']
        exact List.mem_map_of_mem he
      · exact List.mem_map_of_mem ((hmem old).2 ⟨⟨key, hkept.trans hstored⟩, hwritten⟩)
  · rintro ⟨hown, hnodup, hcovered⟩
    refine ⟨⟨⊥, fun hcontra => nomatch hmarker.symm.trans hcontra⟩, hnodup.of_map, fun e => ?_⟩
    constructor
    · intro he
      obtain ⟨stateKey, hstate⟩ := Option.ne_none_iff_exists'.1 (hkeys e he).2
      have hkeyed : Keyed (roomId, (stateKey : StateKey)) (.event e) :=
        ⟨stateKey, (hown e he).1, hstate, rfl⟩
      refine ⟨⟨stateKey, ?_⟩, (hown e he).2⟩
      rcases hget _ (ne_marker_of_keyed hkeyed) with ⟨e', he', hover, hstored⟩ | ⟨hnone, -⟩
      · obtain ⟨stateKey', -, hstate', hkey'⟩ := hover
        obtain rfl : stateKey = stateKey' := WithBot.coe_injective hkey'
        rw [List.inj_on_of_nodup_map hnodup he he' (hstate.trans hstate'.symm)]
        exact hstored
      · exact absurd hkeyed (hnone e he)
    · rintro ⟨⟨key, hstored⟩, hwritten⟩
      have hkeyed := hs' _ _ hstored
      rcases hget _ (ne_marker_of_keyed hkeyed) with ⟨e', he', -, hstored'⟩ | ⟨hnone, hkept⟩
      · rw [hstored] at hstored'
        rw [OobRecord.event.inj (Option.some.inj hstored')]
        exact he'
      · -- it is from before, and then an event with its state key has overwritten it
        have hbefore := (hold e).2 ⟨⟨key, hkept.symm.trans hstored⟩, hwritten⟩
        obtain ⟨e', he', hsame⟩ := List.mem_map.1 (hcovered e hbefore)
        obtain ⟨stateKey, -, hstate, hkey⟩ := hkeyed
        exact absurd ⟨stateKey, (hown e' he').1, hsame.trans hstate, hkey⟩ (hnone e' he')

/-- The other rooms stay as they are when the events are members of this one. -/
theorem rel_setOutOfBandMembers_other (hs : s.WellKeyed) {other : String} {m : Members}
    (hother : other ≠ roomId) (hown : ∀ e ∈ events, e.room_id = some roomId)
    (hkeys : ∀ e ∈ events, e.HasKey) (hok : s.setOutOfBandMembers roomId events = .ok s')
    (h : Option.Rel List.Perm (s.getOutOfBandMembers other) m) :
    Option.Rel List.Perm (s'.getOutOfBandMembers other) m := by
  obtain ⟨_, hok', hs', -, hget⟩ := setOutOfBandMembers_ok hs roomId hkeys
  obtain rfl := Except.ok.inj (hok.symm.trans hok')
  have hsame : ∀ key, s'.records.get (other, key) = s.records.get (other, key) := by
    intro key
    rcases hget (other, key) (fun hcontra => hother (Prod.mk.inj hcontra).1) with
      ⟨e, he, hkeyed, -⟩ | ⟨-, hkept⟩
    · obtain ⟨-, hroom, -, -⟩ := hkeyed
      exact absurd (Option.some.inj (hroom.symm.trans (hown e he))) hother
    · exact hkept
  rw [rel_getOutOfBandMembers hs] at h
  rw [rel_getOutOfBandMembers hs']
  simp only [Stored, hsame] at h ⊢
  exact h

/-! ## Clearing a room -/

/-- Clearing a room that has records removes these and no others. -/
theorem clearOutOfBandMembers_ok (hok : s.clearOutOfBandMembers roomId = .ok s')
    (key : String × StateKey) :
    s'.records.get key = if key.1 = roomId then none else s.records.get key := by
  have hmem : ∀ key, (s.records.get (roomId, key)).isSome → key ∈ s.stateKeysOf roomId := by
    intro key hkey
    refine List.mem_map.2 ⟨(roomId, key), List.mem_filter.2 ⟨?_, decide_eq_true rfl⟩, rfl⟩
    rw [JsObject.mem_keys]
    exact hkey
  rw [clearOutOfBandMembers] at hok
  cases hmin : (s.stateKeysOf roomId).min? with
  | none =>
    rw [hmin] at hok
    exact nomatch hok
  | some minStateKey =>
    cases hmax : (s.stateKeysOf roomId).max? with
    | none =>
      rw [hmin, hmax] at hok
      exact nomatch hok
    | some maxStateKey =>
      rw [hmin, hmax] at hok
      obtain rfl := Except.ok.inj hok
      obtain ⟨room, stateKey⟩ := key
      simp only [JsObject.get_filter, decide_not, Bool.not_eq_eq_eq_not, Bool.not_true,
        decide_eq_false_iff_not]
      by_cases hroom : room = roomId
      · subst hroom
        rw [if_pos rfl]
        cases hget : s.records.get (room, stateKey) with
        | none => exact ite_self _
        | some record =>
          have hkey := hmem stateKey (by rw [hget]; rfl)
          refine if_neg (not_not_intro ⟨rfl, ?_, ?_⟩)
          · exact (List.min?_eq_some_iff.1 hmin).2 _ hkey
          · exact (List.max?_eq_some_iff.1 hmax).2 _ hkey
      · rw [if_neg hroom, if_pos (fun hcontra => hroom hcontra.1)]

theorem WellKeyed.clear (hs : s.WellKeyed) (hok : s.clearOutOfBandMembers roomId = .ok s') :
    s'.WellKeyed := by
  intro key record hget
  rw [clearOutOfBandMembers_ok hok] at hget
  split at hget
  · exact nomatch hget
  · exact hs key record hget

/-- When no other room has records, none has any afterwards. -/
theorem rel_clearOutOfBandMembers (hs : s.WellKeyed) (hok : s.clearOutOfBandMembers roomId = .ok s')
    (hothers : ∀ other, other ≠ roomId → Option.Rel List.Perm (s.getOutOfBandMembers other) none)
    (room : String) : Option.Rel List.Perm (s'.getOutOfBandMembers room) none := by
  rw [rel_getOutOfBandMembers (hs.clear hok)]
  intro key
  rw [clearOutOfBandMembers_ok hok]
  by_cases hroom : room = roomId
  · exact if_pos hroom
  · rw [if_neg hroom]
    exact (rel_getOutOfBandMembers hs room none).1 (hothers room hroom) key

end LocalIndexedDBStoreBackend

/-! ## What is in memory -/

namespace MemoryStore

/-- The members that a `MemoryStore` has after a call. -/
def after (members : String → Members) : Call → String → Members
  | .getOutOfBandMembers _ => members
  | .setOutOfBandMembers roomId membershipEvents =>
    Function.update members roomId (some membershipEvents)
  | .clearOutOfBandMembers _ => fun _ => none

theorem get_call (s : MemoryStore) (c : Call) :
    (s.call c).1.getOutOfBandMembers = after s.getOutOfBandMembers c := by
  cases c with
  | getOutOfBandMembers roomId => rfl
  | setOutOfBandMembers roomId membershipEvents => rfl
  | clearOutOfBandMembers roomId => rfl

/-- Doing it twice changes nothing more. -/
theorem after_after (members : String → Members) (c : Call) :
    after (after members c) c = after members c := by
  cases c with
  | getOutOfBandMembers roomId => rfl
  | setOutOfBandMembers roomId membershipEvents => exact Function.update_idem _ _ _
  | clearOutOfBandMembers roomId => rfl

end MemoryStore

namespace IndexedDBStore

variable {s : IndexedDBStore} {fails : Bool} {c : Call}

theorem call_of_degraded (h : s.degraded = true) : s.call fails c =
    ({ s with toMemoryStore := (s.toMemoryStore.call c).1 }, (s.toMemoryStore.call c).2) := by
  rw [call, if_pos h]

/-- The call does not get past the backend. -/
def Fails (s : IndexedDBStore) (fails : Bool) (c : Call) : Prop :=
  fails = true ∨ ∃ e, s.backend.call c = .error e

theorem call_of_fails (hworks : s.degraded = false) (h : s.Fails fails c) : s.call fails c =
    ({ s.mirrored c with
        toMemoryStore := ((s.mirrored c).toMemoryStore.call c).1
        degraded := true },
      ((s.mirrored c).toMemoryStore.call c).2) := by
  rw [call, if_neg (by rw [hworks]; exact Bool.false_ne_true)]
  rcases h with rfl | ⟨e, herror⟩
  · rfl
  · cases fails with
    | true => rfl
    | false =>
      rw [if_neg Bool.false_ne_true, herror]

theorem call_ok (hworks : s.degraded = false) {backend : LocalIndexedDBStoreBackend}
    {result : Members} (h : s.backend.call c = .ok (backend, result)) :
    s.call false c = ({ s.mirrored c with backend := backend }, result) := by
  rw [call, if_neg (by rw [hworks]; exact Bool.false_ne_true), if_neg Bool.false_ne_true, h]

/-- A call works, fails at the backend, or goes to memory at once. -/
theorem call_cases (s : IndexedDBStore) (fails : Bool) (c : Call) :
    s.degraded = true ∨ s.degraded = false ∧ (s.Fails fails c ∨
      fails = false ∧ ∃ backend result, s.backend.call c = .ok (backend, result)) := by
  cases s.degraded with
  | true => exact .inl rfl
  | false =>
    refine .inr ⟨rfl, ?_⟩
    cases fails with
    | true => exact .inl (.inl rfl)
    | false =>
      cases hcall : s.backend.call c with
      | error e => exact .inl (.inr ⟨e, hcall⟩)
      | ok after => exact .inr ⟨rfl, after.1, after.2, rfl⟩

/-- **Every call is repeated in memory**, whether the backend fails or not. -/
theorem get_call (s : IndexedDBStore) (fails : Bool) (c : Call) :
    (s.call fails c).1.getOutOfBandMembers = MemoryStore.after s.getOutOfBandMembers c := by
  have htwice : ((s.mirrored c).toMemoryStore.call c).1.getOutOfBandMembers =
      MemoryStore.after s.getOutOfBandMembers c := by
    rw [MemoryStore.get_call, mirrored, MemoryStore.get_call, MemoryStore.after_after]
  rcases s.call_cases fails c with hdegraded | ⟨hworks, hfails | ⟨rfl, backend, result, hok⟩⟩
  · rw [call_of_degraded hdegraded]
    exact s.toMemoryStore.get_call c
  · rw [call_of_fails hworks hfails]
    exact htwice
  · rw [call_ok hworks hok]
    exact s.toMemoryStore.get_call c

/-- What is read, from the backend while it works. -/
theorem call_get (s : IndexedDBStore) (fails : Bool) (roomId : String) :
    (s.call fails (.getOutOfBandMembers roomId)).2 =
      if s.degraded = true ∨ fails = true then s.getOutOfBandMembers roomId
      else s.backend.getOutOfBandMembers roomId := by
  rcases s.call_cases fails (.getOutOfBandMembers roomId) with
    hdegraded | ⟨hworks, hfails | ⟨rfl, backend, result, hok⟩⟩
  · rw [call_of_degraded hdegraded, if_pos (.inl hdegraded)]
    rfl
  · rw [call_of_fails hworks hfails]
    rcases hfails with rfl | ⟨e, herror⟩
    · rw [if_pos (.inr rfl)]
      rfl
    · exact nomatch herror
  · rw [call_ok hworks hok, if_neg (by rw [hworks]; exact fun hcontra => nomatch hcontra)]
    exact (Prod.mk.inj (Except.ok.inj hok)).2.symm

end IndexedDBStore

/-! ## Both stores -/

theorem LocalIndexedDBStoreBackend.of_call {s s' : LocalIndexedDBStoreBackend}
    (hs : s.WellKeyed) {c : Call} {result : Members} (hok : s.call c = .ok (s', result)) :
    s'.WellKeyed := by
  cases c with
  | getOutOfBandMembers roomId =>
    rw [← (Prod.mk.inj (Except.ok.inj hok)).1]
    exact hs
  | setOutOfBandMembers roomId events =>
    by_cases hkeys : ∀ e ∈ events, e.HasKey
    · obtain ⟨s₁, hset, hs₁, -⟩ := setOutOfBandMembers_ok hs roomId hkeys
      rw [call, hset] at hok
      rw [← (Prod.mk.inj (Except.ok.inj hok)).1]
      exact hs₁
    · push Not at hkeys
      rw [call, setOutOfBandMembers_error hkeys] at hok
      exact nomatch hok
  | clearOutOfBandMembers roomId =>
    cases hclear : s.clearOutOfBandMembers roomId with
    | error e =>
      rw [call, hclear] at hok
      exact nomatch hok
    | ok s₁ =>
      rw [call, hclear] at hok
      rw [← (Prod.mk.inj (Except.ok.inj hok)).1]
      exact hs.clear hclear

namespace Stores

/-- What holds in every run. -/
structure Inv (s : Stores) : Prop where
  mirrored : s.indexedDB.getOutOfBandMembers = s.memory.getOutOfBandMembers
  wellKeyed : s.indexedDB.backend.WellKeyed

theorem Inv.init : Inv system.init where
  mirrored := rfl
  wellKeyed := fun _ _ hget => nomatch hget

variable {s : Stores}

theorem Inv.step (h : s.Inv) (input : Bool × Call) : (s.step input).Inv where
  mirrored := by
    show (s.indexedDB.call input.1 input.2).1.getOutOfBandMembers =
      (s.memory.call input.2).1.getOutOfBandMembers
    rw [IndexedDBStore.get_call, MemoryStore.get_call, h.mirrored]
  wellKeyed := by
    show (s.indexedDB.call input.1 input.2).1.backend.WellKeyed
    rcases s.indexedDB.call_cases input.1 input.2 with
      hdegraded | ⟨hworks, hfails | ⟨hfails, backend, result, hok⟩⟩
    · rw [IndexedDBStore.call_of_degraded hdegraded]
      exact h.wellKeyed
    · rw [IndexedDBStore.call_of_fails hworks hfails]
      exact h.wellKeyed
    · rw [hfails, IndexedDBStore.call_ok hworks hok]
      exact LocalIndexedDBStoreBackend.of_call h.wellKeyed hok

/-- A store whose backend has failed gives what the memory store gives. -/
theorem Inv.get_of_degraded (h : s.Inv) (hdegraded : s.indexedDB.degraded = true) (fails : Bool)
    (roomId : String) :
    (s.indexedDB.call fails (.getOutOfBandMembers roomId)).2 =
      s.memory.getOutOfBandMembers roomId := by
  rw [IndexedDBStore.call_get, if_pos (.inl hdegraded), h.mirrored]

theorem rel_refl (m : Members) : Option.Rel List.Perm m m := by
  cases m with
  | none => exact .none
  | some events => exact .some (List.Perm.refl events)

/-- Only a backend that works can give something else than the memory store. -/
theorem Inv.sameMembers_backend (h : s.Inv) : s.SameMembers ↔
    s.memory.getOutOfBandMembers = s.members ∧ (s.indexedDB.degraded = false →
      ∀ roomId, Option.Rel List.Perm (s.indexedDB.backend.getOutOfBandMembers roomId)
        (s.members roomId)) := by
  rw [SameMembers, ← funext_iff]
  refine and_congr_right fun hmemory => ?_
  constructor
  · intro hsame hworks roomId
    have hread := hsame false roomId
    rw [IndexedDBStore.call_get, if_neg (by rw [hworks]; exact fun hcontra => nomatch hcontra)]
      at hread
    exact hread
  · intro hsame fails roomId
    rw [IndexedDBStore.call_get]
    split
    · rw [h.mirrored, hmemory]
      exact rel_refl _
    next hworks => exact hsame (eq_false_of_ne_true fun hcontra => hworks (.inl hcontra)) roomId

theorem Inv.sameMembers_get (h : s.Inv) (hsame : s.SameMembers) (fails : Bool) (roomId : String) :
    (s.step (fails, .getOutOfBandMembers roomId)).SameMembers := by
  rw [(h.step _).sameMembers_backend]
  rw [h.sameMembers_backend] at hsame
  refine ⟨hsame.1, fun hworks room => ?_⟩
  change (s.indexedDB.call fails (.getOutOfBandMembers roomId)).1.degraded = false at hworks
  show Option.Rel List.Perm
    ((s.indexedDB.call fails (.getOutOfBandMembers roomId)).1.backend.getOutOfBandMembers room)
      (s.members room)
  rcases s.indexedDB.call_cases fails (.getOutOfBandMembers roomId) with
    hdegraded | ⟨hworked, hfails | ⟨rfl, backend, result, hok⟩⟩
  · rw [IndexedDBStore.call_of_degraded hdegraded] at hworks
    exact absurd hworks (by rw [hdegraded]; exact Bool.true_eq_false_eq_False)
  · rw [IndexedDBStore.call_of_fails hworked hfails] at hworks
    exact nomatch hworks
  · rw [IndexedDBStore.call_ok hworked hok, ← (Prod.mk.inj (Except.ok.inj hok)).1]
    exact hsame.2 hworked room

theorem Inv.sameMembers_set (h : s.Inv) (hsame : s.SameMembers) (fails : Bool) (roomId : String)
    (events : List MembershipEvent) :
    (s.step (fails, .setOutOfBandMembers roomId events)).SameMembers ↔
      s.Harmless (fails, .setOutOfBandMembers roomId events) := by
  rw [(h.step _).sameMembers_backend]
  rw [h.sameMembers_backend] at hsame
  have hmemory : (s.step (fails, .setOutOfBandMembers roomId events)).memory.getOutOfBandMembers =
      (s.step (fails, .setOutOfBandMembers roomId events)).members := by
    show (s.memory.call _).1.getOutOfBandMembers = Function.update s.members roomId (some events)
    rw [MemoryStore.get_call, hsame.1]
    rfl
  rw [and_iff_right hmemory]
  show ((s.indexedDB.call fails _).1.degraded = false → ∀ room, Option.Rel List.Perm
    ((s.indexedDB.call fails _).1.backend.getOutOfBandMembers room)
      (Function.update s.members roomId (some events) room)) ↔ (_ ∨ _ ∨ _ ∨ _)
  rcases s.indexedDB.call_cases fails (.setOutOfBandMembers roomId events) with
    hdegraded | ⟨hworked, hfails | ⟨rfl, backend, result, hok⟩⟩
  · refine iff_of_true (fun hworks => ?_) (.inl hdegraded)
    rw [IndexedDBStore.call_of_degraded hdegraded] at hworks
    exact nomatch hdegraded.symm.trans hworks
  · refine iff_of_true (fun hworks => ?_) (.inr ?_)
    · rw [IndexedDBStore.call_of_fails hworked hfails] at hworks
      exact nomatch hworks
    · rcases hfails with hfails | ⟨e, herror⟩
      · exact .inl hfails
      · right
        left
        by_contra! hkeys
        obtain ⟨s₁, hset, -⟩ := LocalIndexedDBStoreBackend.setOutOfBandMembers_ok h.wellKeyed
          roomId hkeys
        rw [LocalIndexedDBStoreBackend.call, hset] at herror
        exact nomatch herror
  · -- the backend has stored the events
    have hkeys : ∀ e ∈ events, e.HasKey := by
      by_contra! hkeys
      rw [LocalIndexedDBStoreBackend.call,
        LocalIndexedDBStoreBackend.setOutOfBandMembers_error hkeys] at hok
      exact nomatch hok
    have hset : s.indexedDB.backend.setOutOfBandMembers roomId events = .ok backend := by
      cases hset : s.indexedDB.backend.setOutOfBandMembers roomId events with
      | error e =>
        rw [LocalIndexedDBStoreBackend.call, hset] at hok
        exact nomatch hok
      | ok s₁ =>
        rw [LocalIndexedDBStoreBackend.call, hset] at hok
        rw [(Prod.mk.inj (Except.ok.inj hok)).1]
    have hreplaces := LocalIndexedDBStoreBackend.rel_setOutOfBandMembers_iff h.wellKeyed
      (hsame.2 hworked roomId) hkeys hset
    rw [IndexedDBStore.call_ok hworked hok]
    constructor
    · intro hread
      have hroom := hread hworked roomId
      rw [Function.update_self] at hroom
      exact .inr (.inr (.inr (hreplaces.1 hroom)))
    · rintro (hdegraded | hfails | ⟨e, he, hkeyless⟩ | hharmless) - room
      · exact nomatch hdegraded.symm.trans hworked
      · exact nomatch hfails
      · exact absurd (hkeys e he) hkeyless
      · by_cases hroom : room = roomId
        · rw [hroom, Function.update_self]
          exact hreplaces.2 hharmless
        · rw [Function.update_of_ne hroom]
          exact LocalIndexedDBStoreBackend.rel_setOutOfBandMembers_other h.wellKeyed hroom
            (fun e he => (hharmless.1 e he).1) hkeys hset (hsame.2 hworked room)

theorem Inv.sameMembers_clear (h : s.Inv) (hsame : s.SameMembers) (fails : Bool) (roomId : String) :
    (s.step (fails, .clearOutOfBandMembers roomId)).SameMembers ↔
      s.Harmless (fails, .clearOutOfBandMembers roomId) := by
  rw [(h.step _).sameMembers_backend]
  rw [h.sameMembers_backend] at hsame
  have hmemory : (s.step (fails, .clearOutOfBandMembers roomId)).memory.getOutOfBandMembers =
      (s.step (fails, .clearOutOfBandMembers roomId)).members ↔
        ∀ other, other ≠ roomId → s.members other = none := by
    show (fun _ => none) = Function.update s.members roomId none ↔ _
    rw [funext_iff]
    constructor
    · intro hnone other hother
      have hother' := hnone other
      rw [Function.update_of_ne hother] at hother'
      exact hother'.symm
    · intro hnone room
      by_cases hroom : room = roomId
      · rw [hroom, Function.update_self]
      · rw [Function.update_of_ne hroom, hnone room hroom]
  constructor
  · rintro ⟨hmembers, -⟩
    exact hmemory.1 hmembers
  · intro hothers
    refine ⟨hmemory.2 hothers, fun hworks room => ?_⟩
    have hnone : (s.step (fails, .clearOutOfBandMembers roomId)).members room = none := by
      rw [← hmemory.2 hothers]
      rfl
    rw [hnone]
    change (s.indexedDB.call fails (.clearOutOfBandMembers roomId)).1.degraded = false at hworks
    show Option.Rel List.Perm ((s.indexedDB.call fails
      (.clearOutOfBandMembers roomId)).1.backend.getOutOfBandMembers room) none
    rcases s.indexedDB.call_cases fails (.clearOutOfBandMembers roomId) with
      hdegraded | ⟨hworked, hfails | ⟨rfl, backend, result, hok⟩⟩
    · rw [IndexedDBStore.call_of_degraded hdegraded] at hworks
      exact nomatch hdegraded.symm.trans hworks
    · rw [IndexedDBStore.call_of_fails hworked hfails] at hworks
      exact nomatch hworks
    · rw [IndexedDBStore.call_ok hworked hok]
      cases hclear : s.indexedDB.backend.clearOutOfBandMembers roomId with
      | error e =>
        rw [LocalIndexedDBStoreBackend.call, hclear] at hok
        exact nomatch hok
      | ok s₁ =>
        rw [LocalIndexedDBStoreBackend.call, hclear] at hok
        obtain rfl := (Prod.mk.inj (Except.ok.inj hok)).1
        refine LocalIndexedDBStoreBackend.rel_clearOutOfBandMembers h.wellKeyed hclear ?_ room
        intro other hother
        rw [← hothers other hother]
        exact hsame.2 hworked other

/-- **The two stores give the same members all along a run** exactly when every call of it is
harmless. -/
theorem sameMembers_iff {calls : List (Stores × (Bool × Call))} {s : Stores}
    (h : system.Trace calls s) :
    System.HoldsAlong SameMembers calls s ↔ System.Meets Harmless calls := by
  refine h.holdsAlong_iff (I := Inv) Inv.init ?_ ?_ ?_
  · intro s input s' hs hstep
    obtain rfl := Option.some.inj hstep
    exact hs.step input
  · rw [Inv.init.sameMembers_backend]
    refine ⟨rfl, fun _ roomId => ?_⟩
    rw [LocalIndexedDBStoreBackend.rel_getOutOfBandMembers Inv.init.wellKeyed]
    exact fun _ => rfl
  · rintro s ⟨fails, c⟩ s' hs hsame hstep
    obtain rfl := Option.some.inj hstep
    cases c with
    | getOutOfBandMembers roomId =>
      exact iff_of_true (hs.sameMembers_get hsame fails roomId) trivial
    | setOutOfBandMembers roomId events => exact hs.sameMembers_set hsame fails roomId events
    | clearOutOfBandMembers roomId => exact hs.sameMembers_clear hsame fails roomId

/-- The member event of a user. -/
def memberEvent (roomId userId : String) : MembershipEvent :=
  ⟨some roomId, some userId, false, "join"⟩

/-- The members of a room are replaced, the room is cleared, and at the last call the backend
fails. -/
def oneRoomAtATime : List (Bool × Call) :=
  [(false, .setOutOfBandMembers "!a" [memberEvent "!a" "@alice"]),
    (false, .setOutOfBandMembers "!a" [memberEvent "!a" "@bob", memberEvent "!a" "@alice"]),
    (false, .clearOutOfBandMembers "!a"),
    (true, .setOutOfBandMembers "!b" [memberEvent "!b" "@alice", memberEvent "!b" "@alice"])]

theorem oneRoomAtATime_runs : (system.run oneRoomAtATime).isSome := rfl

theorem sameMembers_oneRoomAtATime : System.HoldsAlong SameMembers (system.steps oneRoomAtATime)
    ((system.run oneRoomAtATime).get oneRoomAtATime_runs) := by
  refine (sameMembers_iff (System.trace_get oneRoomAtATime_runs)).2 ?_
  refine List.forall_mem_cons.2 ⟨?_, List.forall_mem_cons.2 ⟨?_, List.forall_mem_cons.2 ⟨?_,
    List.forall_mem_cons.2 ⟨?_, fun _ hp => absurd hp List.not_mem_nil⟩⟩⟩⟩
  · exact .inr (.inr (.inr ⟨by decide, by decide, by decide⟩))
  · exact .inr (.inr (.inr ⟨by decide, by decide, by decide⟩))
  · intro other hother
    exact (Function.update_of_ne hother _ _).trans (Function.update_of_ne hother _ _)
  · exact .inr (.inl rfl)

/-- One of two rooms is cleared. -/
def oneOfTwoCleared : List (Bool × Call) :=
  [(false, .setOutOfBandMembers "!a" [memberEvent "!a" "@alice"]),
    (false, .setOutOfBandMembers "!b" [memberEvent "!b" "@bob"]),
    (false, .clearOutOfBandMembers "!a")]

theorem oneOfTwoCleared_runs : (system.run oneOfTwoCleared).isSome := rfl

/-- The memory store forgets the other room as well. -/
theorem sameMembers_fails : ¬ ∀ (calls : List (Stores × (Bool × Call))) (s : Stores),
    system.Trace calls s → ∀ fails roomId, Option.Rel List.Perm
      (s.indexedDB.call fails (.getOutOfBandMembers roomId)).2
      (s.memory.getOutOfBandMembers roomId) := by
  intro hsame
  have hrel := hsame _ _ (System.trace_get oneOfTwoCleared_runs) false "!b"
  have hindexed : (((system.run oneOfTwoCleared).get oneOfTwoCleared_runs).indexedDB.call false
      (.getOutOfBandMembers "!b")).2 = some [memberEvent "!b" "@bob"] := by
    decide +kernel
  rw [hindexed] at hrel
  exact nomatch hrel

end Stores

end MatrixSdk.Store
