/-
Filters of room events: `Filter` of `filter.js` and `FilterComponent` of `filter-component.js`.

A definition has a part for rooms and a part for timelines. `setDefinition` makes a component of
each, and copies the excluded rooms of the first only where it has included rooms; so a filter that
merely excludes rooms lets their events through, [`filterRoomTimeline_iff`].
-/
import Mathlib.Data.List.Basic

set_option autoImplicit false

namespace MatrixSdk.Filters

/-! ## Definitions -/

/-- What is read of an event. -/
structure FilteredEvent where
  roomId : Option String
  sender : Option String
  type : String
  /-- `getContent().url !== undefined` -/
  hasUrl : Bool
  deriving DecidableEq

/-- The JSON of a component. -/
structure FilterJson where
  types : Option (List String)
  not_types : Option (List String)
  rooms : Option (List String)
  not_rooms : Option (List String)
  senders : Option (List String)
  not_senders : Option (List String)
  contains_url : Option Bool

/-- `{}` -/
def FilterJson.empty : FilterJson := ⟨none, none, none, none, none, none, none⟩

/-- `definition.room` -/
structure RoomFilterJson where
  rooms : Option (List String)
  not_rooms : Option (List String)
  timeline : Option FilterJson

structure FilterDefinition where
  room : Option RoomFilterJson

/-! ## Components -/

/-- `_matches_wildcard`, over the characters. -/
def matchesWildcard (actual_value filter_value : String) : Bool :=
  if filter_value.toList.getLast? = some '*' then
    let type_prefix := filter_value.toList.dropLast
    actual_value.toList.take type_prefix.length = type_prefix
  else actual_value = filter_value

structure FilterComponent where
  filter_json : FilterJson
  types : Option (List String)
  not_types : List String
  rooms : Option (List String)
  not_rooms : List String
  senders : Option (List String)
  not_senders : List String

namespace FilterComponent

def new (filter_json : FilterJson) : FilterComponent where
  filter_json := filter_json
  types := filter_json.types
  not_types := filter_json.not_types.getD []
  rooms := filter_json.rooms
  not_rooms := filter_json.not_rooms.getD []
  senders := filter_json.senders
  not_senders := filter_json.not_senders.getD []

/-- A turn of the loop of `_checkFields`. -/
def checkField (disallowed_values : List String) (allowed_values : Option (List String))
    (match_func : String → Bool) : Bool :=
  if 0 < (disallowed_values.filter match_func).length then false
  else
    match allowed_values with
    | some allowed_values =>
      if 0 < allowed_values.length then allowed_values.any match_func else true
    | none => true

variable (c : FilterComponent)

/-- `_checkFields` -/
def checkFields (room_id sender : Option String) (event_type : String) (contains_url : Bool) :
    Bool :=
  checkField c.not_rooms c.rooms (fun v => room_id = some v) &&
    checkField c.not_senders c.senders (fun v => sender = some v) &&
    checkField c.not_types c.types (fun v => matchesWildcard event_type v) &&
    match c.filter_json.contains_url with
    | some contains_url_filter => contains_url_filter = contains_url
    | none => true

def check (event : FilteredEvent) : Bool :=
  c.checkFields event.roomId event.sender event.type event.hasUrl

def filter (events : List FilteredEvent) : List FilteredEvent := events.filter c.check

end FilterComponent

/-! ## The filter -/

structure Filter where
  room_filter : FilterComponent
  room_timeline_filter : FilterComponent

/-- `room_filter_fields` of `setDefinition`. -/
def roomFilterFields (room_filter_json : RoomFilterJson) : FilterJson :=
  let fields := FilterJson.empty
  let fields :=
    match room_filter_json.rooms with
    | some rooms => { fields with rooms := some rooms }
    | none => fields
  match room_filter_json.rooms with
  | some _ => { fields with not_rooms := room_filter_json.not_rooms }
  | none => fields

def Filter.setDefinition (definition : FilterDefinition) : Filter :=
  match definition.room with
  | some room_filter_json =>
    { room_filter := .new (roomFilterFields room_filter_json)
      room_timeline_filter := .new (room_filter_json.timeline.getD .empty) }
  | none => ⟨.new .empty, .new .empty⟩

def Filter.filterRoomTimeline (f : Filter) (events : List FilteredEvent) : List FilteredEvent :=
  f.room_timeline_filter.filter (f.room_filter.filter events)

/-! ## What a filter should admit -/

/-- The type is the entry, or begins with what is before the star at its end. -/
def MatchesType (type entry : String) : Prop :=
  (entry.toList.getLast? ≠ some '*' ∧ type = entry) ∨
    entry.toList.getLast? = some '*' ∧ entry.toList.dropLast <+: type.toList
  deriving Decidable

/-- A list of included values that is not empty has one that matches, and a list of excluded
values has none. -/
def AdmitsValue (included excluded : Option (List String)) (holds : String → Prop) : Prop :=
  (∀ values ∈ included, values ≠ [] → ∃ v ∈ values, holds v) ∧
    ∀ values ∈ excluded, ∀ v ∈ values, ¬ holds v

instance (included excluded : Option (List String)) (holds : String → Prop)
    [DecidablePred holds] : Decidable (AdmitsValue included excluded holds) :=
  inferInstanceAs (Decidable (_ ∧ _))

/-- What a component is for. -/
structure FilterJson.Admits (json : FilterJson) (event : FilteredEvent) : Prop where
  rooms : AdmitsValue json.rooms json.not_rooms (event.roomId = some ·)
  senders : AdmitsValue json.senders json.not_senders (event.sender = some ·)
  types : AdmitsValue json.types json.not_types (MatchesType event.type)
  contains_url : ∀ b ∈ json.contains_url, b = event.hasUrl

/-- What a definition is for: both parts admit the event. -/
structure FilterDefinition.Admits (definition : FilterDefinition) (event : FilteredEvent) :
    Prop where
  room : ∀ room ∈ definition.room,
    AdmitsValue room.rooms room.not_rooms (event.roomId = some ·)
  timeline : ∀ room ∈ definition.room, ∀ timeline ∈ room.timeline, timeline.Admits event

/-! ## What a component checks -/

theorem matchesWildcard_iff (actual_value filter_value : String) :
    matchesWildcard actual_value filter_value = true ↔ MatchesType actual_value filter_value := by
  rw [matchesWildcard, MatchesType]
  by_cases hstar : filter_value.toList.getLast? = some '*'
  · rw [if_pos hstar]
    have hstart : actual_value.toList.take filter_value.toList.dropLast.length =
        filter_value.toList.dropLast ↔ filter_value.toList.dropLast <+: actual_value.toList :=
      eq_comm.trans List.prefix_iff_eq_take.symm
    rw [decide_eq_true_iff, hstart]
    exact ⟨fun h => .inr ⟨hstar, h⟩, fun h => (h.resolve_left fun h => h.1 hstar).2⟩
  · rw [if_neg hstar, decide_eq_true_iff]
    exact ⟨fun h => .inl ⟨hstar, h⟩, fun h => (h.resolve_right fun h => hstar h.1).2⟩

/-- **One turn of the loop**, whatever the lists are. -/
theorem checkField_iff (included excluded : Option (List String)) (holds : String → Prop)
    (match_func : String → Bool) (hmatch : ∀ v, match_func v = true ↔ holds v) :
    FilterComponent.checkField (excluded.getD []) included match_func = true ↔
      AdmitsValue included excluded holds := by
  have hexcluded : 0 < ((excluded.getD []).filter match_func).length ↔
      ¬ ∀ values ∈ excluded, ∀ v ∈ values, ¬ holds v := by
    rw [List.length_pos_iff_exists_mem]
    cases excluded with
    | none => simp
    | some values => simp [hmatch]
  have hincluded : (match included with
      | some allowed_values =>
        if 0 < allowed_values.length then allowed_values.any match_func else true
      | none => true) = true ↔ ∀ values ∈ included, values ≠ [] → ∃ v ∈ values, holds v := by
    cases included with
    | none => simp
    | some values =>
      -- an empty list admits every value
      cases values with
      | nil => simp
      | cons v values => simp [hmatch]
  unfold FilterComponent.checkField AdmitsValue
  by_cases hex : 0 < ((excluded.getD []).filter match_func).length
  · rw [if_pos hex]
    exact ⟨nofun, fun h => absurd h.2 (hexcluded.1 hex)⟩
  · rw [if_neg hex, hincluded]
    exact ⟨fun h => ⟨h, not_not.1 fun hcontra => hex (hexcluded.2 hcontra)⟩, And.left⟩

/-- **A component does what it is for.** -/
theorem check_iff (json : FilterJson) (event : FilteredEvent) :
    (FilterComponent.new json).check event = true ↔ json.Admits event := by
  have hrooms := checkField_iff json.rooms json.not_rooms (event.roomId = some ·)
    (fun v => event.roomId = some v) fun v => decide_eq_true_iff
  have hsenders := checkField_iff json.senders json.not_senders (event.sender = some ·)
    (fun v => event.sender = some v) fun v => decide_eq_true_iff
  have htypes := checkField_iff json.types json.not_types (MatchesType event.type)
    (fun v => matchesWildcard event.type v) (matchesWildcard_iff event.type)
  have hurl : (match json.contains_url with
      | some contains_url_filter => decide (contains_url_filter = event.hasUrl)
      | none => true) = true ↔ ∀ b ∈ json.contains_url, b = event.hasUrl := by
    cases json.contains_url with
    | none => simp
    | some b => simp
  rw [FilterComponent.check, FilterComponent.checkFields]
  simp only [Bool.and_eq_true]
  constructor
  · rintro ⟨⟨⟨h₁, h₂⟩, h₃⟩, h₄⟩
    exact ⟨hrooms.1 h₁, hsenders.1 h₂, htypes.1 h₃, hurl.1 h₄⟩
  · rintro ⟨h₁, h₂, h₃, h₄⟩
    exact ⟨⟨⟨hrooms.2 h₁, hsenders.2 h₂⟩, htypes.2 h₃⟩, hurl.2 h₄⟩

instance (json : FilterJson) (event : FilteredEvent) : Decidable (json.Admits event) :=
  decidable_of_iff _ (check_iff json event)

instance (definition : FilterDefinition) (event : FilteredEvent) :
    Decidable (definition.Admits event) :=
  decidable_of_iff ((∀ room ∈ definition.room,
      AdmitsValue room.rooms room.not_rooms (event.roomId = some ·)) ∧
    ∀ room ∈ definition.room, ∀ timeline ∈ room.timeline, timeline.Admits event)
    ⟨fun h => ⟨h.1, h.2⟩, fun h => ⟨h.room, h.timeline⟩⟩

/-! ## What a filter checks -/

/-- The component of the rooms has the excluded ones only beside included ones. -/
theorem roomFilterFields_admits (room : RoomFilterJson) (event : FilteredEvent) :
    (roomFilterFields room).Admits event ↔
      AdmitsValue room.rooms (if room.rooms.isSome then room.not_rooms else none)
        (event.roomId = some ·) := by
  have hfields : roomFilterFields room = { FilterJson.empty with
      rooms := room.rooms
      not_rooms := if room.rooms.isSome then room.not_rooms else none } := by
    rw [roomFilterFields]
    cases room.rooms with
    | none => rfl
    | some rooms => rfl
  rw [hfields]
  exact ⟨fun h => h.rooms, fun h => ⟨h, ⟨nofun, nofun⟩, ⟨nofun, nofun⟩, nofun⟩⟩

theorem FilterJson.empty_admits (event : FilteredEvent) : FilterJson.empty.Admits event :=
  ⟨⟨nofun, nofun⟩, ⟨nofun, nofun⟩, ⟨nofun, nofun⟩, nofun⟩

/-- Both components are asked. -/
theorem mem_filterRoomTimeline (definition : FilterDefinition) (event : FilteredEvent) :
    ((Filter.setDefinition definition).room_timeline_filter.check event &&
        (Filter.setDefinition definition).room_filter.check event) = true ↔
      ∀ room ∈ definition.room, (∀ timeline ∈ room.timeline, timeline.Admits event) ∧
        AdmitsValue room.rooms (if room.rooms.isSome then room.not_rooms else none)
          (event.roomId = some ·) := by
  rw [Bool.and_eq_true, Filter.setDefinition]
  cases definition.room with
  | none =>
    exact ⟨fun _ => nofun, fun _ => ⟨(check_iff _ _).2 (FilterJson.empty_admits event),
      (check_iff _ _).2 (FilterJson.empty_admits event)⟩⟩
  | some room =>
    rw [check_iff, check_iff, roomFilterFields_admits]
    have htimeline : (room.timeline.getD .empty).Admits event ↔
        ∀ timeline ∈ room.timeline, timeline.Admits event := by
      cases room.timeline with
      | none => exact ⟨fun _ => nofun, fun _ => FilterJson.empty_admits event⟩
      | some timeline =>
        exact ⟨fun h timeline' h' => Option.some.inj h' ▸ h, fun h => h timeline rfl⟩
    rw [htimeline]
    exact ⟨fun h room' h' => Option.some.inj h' ▸ h, fun h => h room rfl⟩

/-- The excluded rooms need not be looked at, or they stand beside included ones: no event that the
timeline part admits is in one of them. -/
def ExcludedRoomsCount (definition : FilterDefinition) (events : List FilteredEvent) : Prop :=
  ∀ room ∈ definition.room, room.rooms = none → ∀ event ∈ events,
    (∀ timeline ∈ room.timeline, timeline.Admits event) →
      ∀ not_rooms ∈ room.not_rooms, ∀ v ∈ not_rooms, event.roomId ≠ some v

theorem filter_eq_filter_iff {α : Type*} {p q : α → Bool} {l : List α} :
    l.filter p = l.filter q ↔ ∀ x ∈ l, p x = true ↔ q x = true := by
  constructor
  · intro h x hx
    have hmem : x ∈ l.filter p ↔ x ∈ l.filter q := by rw [h]
    simpa only [List.mem_filter, hx, true_and] using hmem
  · exact fun h => List.filter_congr fun x hx => Bool.eq_iff_iff.2 (h x hx)

/-- **When the filter does what its definition is for**: it keeps the events that the definition
admits, in their order, exactly when the excluded rooms stand beside included ones or do not
matter. -/
theorem filterRoomTimeline_iff (definition : FilterDefinition) (events : List FilteredEvent) :
    (Filter.setDefinition definition).filterRoomTimeline events =
        events.filter (fun event => definition.Admits event) ↔
      ExcludedRoomsCount definition events := by
  rw [Filter.filterRoomTimeline, FilterComponent.filter, FilterComponent.filter,
    List.filter_filter, filter_eq_filter_iff]
  simp only [decide_eq_true_iff, mem_filterRoomTimeline]
  constructor
  · intro h room hroom hrooms event hevent htimeline not_rooms hnot_rooms v hv
    -- without the excluded rooms the event is admitted, so it is with them
    have hadmits := (h event hevent).1 fun room' hroom' => by
      obtain rfl := Option.some.inj (hroom.symm.trans hroom')
      rw [hrooms]
      exact ⟨htimeline, nofun, nofun⟩
    exact (hadmits.room room hroom).2 not_rooms hnot_rooms v hv
  · intro h event hevent
    constructor
    · intro hcheck
      refine ⟨fun room hroom => ?_, fun room hroom => (hcheck room hroom).1⟩
      obtain ⟨htimeline, hincluded, hexcluded⟩ := hcheck room hroom
      refine ⟨hincluded, ?_⟩
      cases hrooms : room.rooms with
      | none => exact h room hroom hrooms event hevent htimeline
      | some rooms =>
        rw [hrooms] at hexcluded
        exact hexcluded
    · rintro ⟨hroom, htimeline⟩ room hdef
      refine ⟨htimeline room hdef, (hroom room hdef).1, ?_⟩
      split
      · exact (hroom room hdef).2
      · exact nofun

/-- Spam rooms are excluded, and there is an event of one. -/
def excludesSpam : FilterDefinition := ⟨some ⟨none, some ["!spam"], none⟩⟩

def spamEvent : FilteredEvent := ⟨some "!spam", some "@bob", "m.room.message", false⟩

/-- The event comes through. -/
theorem filterRoomTimeline_fails : ¬ ∀ (definition : FilterDefinition)
    (events : List FilteredEvent), (Filter.setDefinition definition).filterRoomTimeline events =
      events.filter (fun event => definition.Admits event) := by
  intro h
  exact absurd (h excludesSpam [spamEvent]) (by decide)

end MatrixSdk.Filters
