/-
Redaction of an event: `makeRedacted` of `models/event.js`, with what is read of an event after it.

The keys of the event are gone through, and then those of one content: the decrypted one, if there
is one. So of an event that has been decrypted the encrypted content stays, and so does what the
decrypted event has besides its type and content. And the lists of what is kept are plain objects,
where names are found that every object has: [`makeRedacted_iff`].

Contents and `unsigned`, where there are any, are objects. The values in them are any.
-/
import MatrixSdk.Lib.JsObject

set_option autoImplicit false

namespace MatrixSdk.Models.Redaction

open MatrixSdk.Lib JsObject

universe u

/-! ## Events -/

/-- The event as the server has it: `type`, `content` and `unsigned`, and its other keys. -/
structure WireEvent (V : Type u) where
  type : String
  content : Option (JsObject String V)
  unsigned : Option (JsObject String V)
  fields : JsObject String V

/-- `_clearEvent`, what it has been decrypted to. It has no keys unless it has been. -/
structure ClearEvent (V : Type u) where
  type : Option String
  content : Option (JsObject String V)
  fields : JsObject String V

structure MatrixEvent (V : Type u) where
  event : WireEvent V
  clearEvent : ClearEvent V
  /-- The `m.new_content` of the event that replaces this one, if there is one. -/
  replacingEvent : Option (JsObject String V)
  /-- The redaction that is on its way, if there is one. -/
  localRedactionEvent : Option V
  forwardLooking : Bool

namespace MatrixEvent

variable {V : Type u} (e : MatrixEvent V)

def getType : String := (e.clearEvent.type.filter (· ≠ "")).getD e.event.type

def getOriginalContent : JsObject String V :=
  if e.localRedactionEvent.isSome then .empty
  else (e.clearEvent.content.or e.event.content).getD .empty

def getContent : JsObject String V :=
  if e.localRedactionEvent.isSome then .empty
  else e.replacingEvent.getD e.getOriginalContent

def getWireContent : JsObject String V := e.event.content.getD .empty

def getClearContent : Option (JsObject String V) := e.clearEvent.content

def getUnsigned : JsObject String V := e.event.unsigned.getD .empty

section Truthy

-- which values pass as a condition
variable (truthy : V → Bool)

/-- `none` is `{}`. -/
def getPrevContent : Option V :=
  ((e.getUnsigned.get "prev_content").filter truthy).or
    ((e.event.fields.get "prev_content").filter truthy)

/-- The content it has, or had before; `none` is `{}`, and so is what has been taken for a value. -/
def getDirectionalContent : JsObject String V ⊕ Option V :=
  if e.forwardLooking then .inl e.getContent else .inr (e.getPrevContent truthy)

def getAge : Option V :=
  ((e.getUnsigned.get "age").filter truthy).or (e.event.fields.get "age")

end Truthy

/-- The value that tells of a relation. -/
def getRelation : Option V := e.getWireContent.get "m.relates_to"

end MatrixEvent

/-! ## What is kept -/

/-- The names of `_REDACT_KEEP_KEY_MAP`. -/
def redactKeepKeys : List String :=
  ["event_id", "type", "room_id", "user_id", "sender", "state_key", "prev_state", "content",
    "unsigned", "origin_server_ts"]

/-- `_REDACT_KEEP_CONTENT_MAP`, of the types it has. -/
def redactKeepContent : String → Option (List String)
  | "m.room.member" => some ["membership"]
  | "m.room.create" => some ["creator"]
  | "m.room.join_rules" => some ["join_rule"]
  | "m.room.power_levels" =>
    some ["ban", "events", "events_default", "kick", "redact", "state_default", "users",
      "users_default"]
  | "m.room.aliases" => some ["aliases"]
  | _ => none

/-- The content keys that are kept of an event of a type. -/
def keptContentKeys (type : String) : List String := (redactKeepContent type).getD []

/-- `_REDACT_KEEP_KEY_MAP[key]` passes as a condition. -/
def keepsKey (key : String) : Bool :=
  redactKeepKeys.contains key || JsObject.inheritedNames.contains key

section Redact

variable {V : Type u}

-- whether what every object has under the first name has something under the second one
variable (builtin : String → String → Bool)

/-- `keeps[key]` passes as a condition. -/
def keepsContentKey (type key : String) : Bool :=
  match redactKeepContent type with
  | some keys => keys.contains key || JsObject.inheritedNames.contains key
  | none =>
    if JsObject.inheritedNames.contains type then builtin type key
    else JsObject.inheritedNames.contains key

/-- A loop over the keys of an object, which calls its `hasOwnProperty`. -/
def strip (o : JsObject String V) (keeps : String → Bool) : Except String (JsObject String V) :=
  if (o.get "hasOwnProperty").isSome then .error "hasOwnProperty is not a function"
  else .ok (o.filter keeps)

/-- The loop over the content: the decrypted one, if there is one. -/
def stripContent (e : MatrixEvent V) : Except String (MatrixEvent V) :=
  match e.clearEvent.content, e.event.content with
  | some content, _ =>
    (strip content (keepsContentKey builtin e.getType)).map fun content =>
      { e with clearEvent := { e.clearEvent with content := some content } }
  | none, some content =>
    (strip content (keepsContentKey builtin e.getType)).map fun content =>
      { e with event := { e.event with content := some content } }
  | none, none => .ok e

/-- What comes before the loops. -/
def markRedacted (e : MatrixEvent V) (redactionEvent : V) : MatrixEvent V :=
  { e with
    localRedactionEvent := none
    replacingEvent := none
    event := { e.event with
      unsigned := some (e.getUnsigned.set "redacted_because" redactionEvent) } }

def makeRedacted (e : MatrixEvent V) (redactionEvent : V) : Except String (MatrixEvent V) :=
  let e := markRedacted e redactionEvent
  (strip e.event.fields keepsKey).bind fun fields =>
    stripContent builtin { e with event := { e.event with fields := fields } }

/-! ## What is to hold -/

/-- An object has no keys but these. -/
def OnlyKeys (o : JsObject String V) (keys : List String) : Prop := ∀ key ∈ o.keys, key ∈ keys

/-- **Redacted**: nothing but what is kept of an event of its type is found in the event, in what it
has been decrypted to, or by any of the functions that read it; apart from `unsigned`. -/
structure Redacted (truthy : V → Bool) (e : MatrixEvent V) : Prop where
  wireKeys : OnlyKeys e.event.fields redactKeepKeys
  clearKeys : OnlyKeys e.clearEvent.fields redactKeepKeys
  wireContent : OnlyKeys e.getWireContent (keptContentKeys e.getType)
  clearContent : ∀ content, e.getClearContent = some content →
    OnlyKeys content (keptContentKeys e.getType)
  content : OnlyKeys e.getContent (keptContentKeys e.getType)
  originalContent : OnlyKeys e.getOriginalContent (keptContentKeys e.getType)
  prevContent : e.getPrevContent truthy = (e.getUnsigned.get "prev_content").filter truthy
  directionalContent : e.getDirectionalContent truthy = if e.forwardLooking then .inl e.getContent
    else .inr ((e.getUnsigned.get "prev_content").filter truthy)
  age : e.getAge truthy = (e.getUnsigned.get "age").filter truthy
  relation : e.getRelation = none
  redacts : e.event.fields.get "redacts" = none
  replacingEvent : e.replacingEvent = none
  localRedactionEvent : e.localRedactionEvent = none

/-- What two contents have under the names that are kept is the same. -/
def SameUnder (keys : List String) (content content' : Option (JsObject String V)) : Prop :=
  (content.isSome ↔ content'.isSome) ∧
    ∀ key ∈ keys, (content'.getD .empty).get key = (content.getD .empty).get key

/-- What is kept has its value. -/
structure Kept (e e' : MatrixEvent V) : Prop where
  wireType : e'.event.type = e.event.type
  clearType : e'.clearEvent.type = e.clearEvent.type
  wireKeys : ∀ key ∈ redactKeepKeys, e'.event.fields.get key = e.event.fields.get key
  clearKeys : ∀ key ∈ redactKeepKeys, e'.clearEvent.fields.get key = e.clearEvent.fields.get key
  wireContent : SameUnder (keptContentKeys e.getType) e.event.content e'.event.content
  clearContent : SameUnder (keptContentKeys e.getType) e.clearEvent.content e'.clearEvent.content

/-- **An ordinary event**: the event has no name that every object has; what it has been decrypted
to has no other keys than are kept; the content that is gone through has none that is kept without
being in the list, nor `hasOwnProperty`; and if the event has been decrypted, its other content has
nothing but what is kept. -/
structure Ordinary (e : MatrixEvent V) : Prop where
  wireKeys : ∀ key ∈ e.event.fields.keys, key ∉ JsObject.inheritedNames
  clearKeys : OnlyKeys e.clearEvent.fields redactKeepKeys
  content : ∀ content, e.clearEvent.content.or e.event.content = some content →
    ∀ key ∈ content.keys, key ≠ "hasOwnProperty" ∧
      (keepsContentKey builtin e.getType key = true → key ∈ keptContentKeys e.getType)
  wireContent : e.clearEvent.content.isSome →
    OnlyKeys e.getWireContent (keptContentKeys e.getType)

/-! ## What a redaction makes of an event -/

variable {builtin} {o : JsObject String V} {keeps : String → Bool} {e e' : MatrixEvent V}
  {keys : List String}

theorem strip_eq_ok {o' : JsObject String V} :
    strip o keeps = .ok o' ↔ o.get "hasOwnProperty" = none ∧ o' = o.filter keeps := by
  rw [strip]
  cases o.get "hasOwnProperty" with
  | none => exact ⟨fun h => ⟨rfl, (Except.ok.inj h).symm⟩, fun h => congrArg Except.ok h.2.symm⟩
  | some value => exact ⟨nofun, fun h => nomatch h.1⟩

variable (builtin) in
/-- What is left of the contents. -/
def strippedContents (e : MatrixEvent V) : MatrixEvent V :=
  { e with
    event := { e.event with
      content := if e.clearEvent.content.isSome then e.event.content
        else e.event.content.map (JsObject.filter (keepsContentKey builtin e.getType)) }
    clearEvent := { e.clearEvent with
      content := e.clearEvent.content.map
        (JsObject.filter (keepsContentKey builtin e.getType)) } }

theorem stripContent_eq_ok : stripContent builtin e = .ok e' ↔
    (∀ content, e.clearEvent.content.or e.event.content = some content →
      content.get "hasOwnProperty" = none) ∧ e' = strippedContents builtin e := by
  -- the content that is gone through, and what is made of the event with what is left of it
  have hone : ∀ (content : JsObject String V) (put : JsObject String V → MatrixEvent V),
      e.clearEvent.content.or e.event.content = some content →
      put (content.filter (keepsContentKey builtin e.getType)) = strippedContents builtin e →
      ((strip content (keepsContentKey builtin e.getType)).map put = .ok e' ↔
        (∀ content, e.clearEvent.content.or e.event.content = some content →
          content.get "hasOwnProperty" = none) ∧ e' = strippedContents builtin e) := by
    intro content put hcontent hput
    cases hstrip : strip content (keepsContentKey builtin e.getType) with
    | error message =>
      refine ⟨nofun, fun h => ?_⟩
      exact nomatch hstrip.symm.trans (strip_eq_ok.2 ⟨h.1 content hcontent, rfl⟩)
    | ok content' =>
      obtain ⟨hown, rfl⟩ := strip_eq_ok.1 hstrip
      constructor
      · intro h
        refine ⟨fun content' h' => ?_, (Except.ok.inj h).symm.trans hput⟩
        obtain rfl := Option.some.inj (hcontent.symm.trans h')
        exact hown
      · exact fun h => congrArg Except.ok (hput.trans h.2.symm)
  obtain ⟨⟨type, wire, unsigned, fields⟩, ⟨clearType, clear, clearFields⟩, replacing, redaction,
    forwardLooking⟩ := e
  cases clear with
  | some content => exact hone content _ rfl rfl
  | none =>
    cases wire with
    | some content => exact hone content _ rfl rfl
    | none => exact ⟨fun h => ⟨nofun, (Except.ok.inj h).symm⟩, fun h => by rw [h.2]; rfl⟩

variable (builtin) in
/-- The event after its redaction. -/
def redactedForm (e : MatrixEvent V) (redactionEvent : V) : MatrixEvent V :=
  let e := markRedacted e redactionEvent
  strippedContents builtin
    { e with event := { e.event with fields := e.event.fields.filter keepsKey } }

/-- **A redaction, in one step**: it throws if an object has its own `hasOwnProperty`. -/
theorem makeRedacted_eq_ok {redactionEvent : V} :
    makeRedacted builtin e redactionEvent = .ok e' ↔
      e.event.fields.get "hasOwnProperty" = none ∧
        (∀ content, e.clearEvent.content.or e.event.content = some content →
          content.get "hasOwnProperty" = none) ∧
        e' = redactedForm builtin e redactionEvent := by
  rw [makeRedacted]
  cases hfields : strip e.event.fields keepsKey with
  | error message =>
    have hthrows : strip (markRedacted e redactionEvent).event.fields keepsKey =
        .error message := hfields
    rw [hthrows]
    exact ⟨nofun, fun h => nomatch hfields.symm.trans (strip_eq_ok.2 ⟨h.1, rfl⟩)⟩
  | ok fields =>
    obtain ⟨hown, rfl⟩ := strip_eq_ok.1 hfields
    have hstripped : strip (markRedacted e redactionEvent).event.fields keepsKey =
        .ok (e.event.fields.filter keepsKey) := hfields
    rw [hstripped, and_iff_right hown]
    exact stripContent_eq_ok

/-! ## Again -/

theorem filter_self (o : JsObject String V) (keeps : String → Bool) :
    (o.filter keeps).filter keeps = o.filter keeps := by
  refine ext_keys ?_ fun key hkey => ?_
  · rw [keys_filter, keys_filter, List.filter_filter]
    simp only [Bool.and_self]
  · rw [get_filter, get_filter]
    split <;> rfl

/-- A redaction of what it has made changes nothing. -/
theorem redactedForm_self (e : MatrixEvent V) (redactionEvent : V) :
    redactedForm builtin (redactedForm builtin e redactionEvent) redactionEvent =
      redactedForm builtin e redactionEvent := by
  obtain ⟨⟨type, wire, unsigned, fields⟩, ⟨clearType, clear, clearFields⟩, replacing, redaction,
    forwardLooking⟩ := e
  have hunsigned : ((unsigned.getD .empty).set "redacted_because" redactionEvent).set
      "redacted_because" redactionEvent =
        (unsigned.getD .empty).set "redacted_because" redactionEvent := by
    rw [set_set]
  cases clear with
  | some content =>
    simp only [redactedForm, markRedacted, strippedContents, MatrixEvent.getUnsigned,
      MatrixEvent.getType, Option.map_some, Option.isSome_some, if_true, Option.getD_some,
      filter_self, hunsigned]
  | none =>
    cases wire with
    | some content =>
      simp only [redactedForm, markRedacted, strippedContents, MatrixEvent.getUnsigned,
        MatrixEvent.getType, Option.map_some, Option.map_none, Option.isSome_none,
        Bool.false_eq_true, if_false, Option.getD_some, filter_self, hunsigned]
    | none =>
      simp only [redactedForm, markRedacted, strippedContents, MatrixEvent.getUnsigned,
        MatrixEvent.getType, Option.map_none, Option.isSome_none, Bool.false_eq_true,
        if_false, Option.getD_some, filter_self, hunsigned]

/-- Redacted again, the event stays as it is. -/
theorem makeRedacted_again {redactionEvent : V}
    (h : makeRedacted builtin e redactionEvent = .ok e') :
    makeRedacted builtin e' redactionEvent = .ok e' := by
  obtain ⟨hown, hcontent, rfl⟩ := makeRedacted_eq_ok.1 h
  refine makeRedacted_eq_ok.2 ⟨?_, fun content h => ?_, (redactedForm_self e redactionEvent).symm⟩
  · show (if keepsKey "hasOwnProperty" then e.event.fields.get "hasOwnProperty" else none) = none
    rw [hown, ite_self]
  · have hfiltered : ∃ content', e.clearEvent.content.or e.event.content = some content' ∧
        content = content'.filter (keepsContentKey builtin e.getType) := by
      obtain ⟨⟨type, wire, unsigned, fields⟩, ⟨clearType, clear, clearFields⟩, replacing, redaction,
        forwardLooking⟩ := e
      cases clear with
      | some content' => exact ⟨content', rfl, (Option.some.inj h).symm⟩
      | none =>
        cases wire with
        | some content' => exact ⟨content', rfl, (Option.some.inj h).symm⟩
        | none => exact nomatch h
    obtain ⟨content', hcontent', rfl⟩ := hfiltered
    rw [get_filter, hcontent content' hcontent', ite_self]

/-! ## What is kept -/

theorem keepsKey_of_mem {key : String} (h : key ∈ redactKeepKeys) : keepsKey key = true := by
  rw [keepsKey, List.contains_iff_mem.2 h, Bool.true_or]

theorem keepsContentKey_of_mem {type key : String} (h : key ∈ keptContentKeys type) :
    keepsContentKey builtin type key = true := by
  rw [keptContentKeys] at h
  rw [keepsContentKey]
  cases hkeys : redactKeepContent type with
  | none =>
    rw [hkeys] at h
    exact absurd h List.not_mem_nil
  | some keys =>
    rw [hkeys, Option.getD_some] at h
    dsimp only
    rw [List.contains_iff_mem.2 h, Bool.true_or]

theorem onlyKeys_filter :
    OnlyKeys (o.filter keeps) keys ↔ ∀ key ∈ o.keys, keeps key = true → key ∈ keys := by
  rw [OnlyKeys, keys_filter]
  exact forall_congr' fun key =>
    ⟨fun h hkey hkeeps => h (List.mem_filter.2 ⟨hkey, hkeeps⟩),
      fun h hkey => h (List.mem_filter.1 hkey).1 (List.mem_filter.1 hkey).2⟩

/-- No name that is kept is one that every object has. -/
theorem keepsKey_iff_of_onlyKeys :
    OnlyKeys (o.filter keepsKey) redactKeepKeys ↔
      ∀ key ∈ o.keys, key ∉ inheritedNames := by
  rw [onlyKeys_filter]
  refine forall₂_congr fun key _ => ?_
  rw [keepsKey, Bool.or_eq_true, List.contains_iff_mem, List.contains_iff_mem]
  constructor
  · intro h hinherited
    have hdisjoint : ∀ key ∈ inheritedNames, key ∉ redactKeepKeys := by decide +kernel
    exact hdisjoint key hinherited (h (Or.inr hinherited))
  · exact fun h hkept => hkept.resolve_right h

theorem sameUnder_filter (o : Option (JsObject String V))
    (hkeeps : ∀ key ∈ keys, keeps key = true) : SameUnder keys o (o.map (filter keeps)) := by
  cases o with
  | none => exact ⟨Iff.rfl, fun _ _ => rfl⟩
  | some o =>
    refine ⟨Iff.rfl, fun key hkey => ?_⟩
    show (o.filter keeps).get key = o.get key
    rw [get_filter, if_pos (hkeeps key hkey)]

/-- **What is to be kept is kept**, of any event. -/
theorem kept_redactedForm (e : MatrixEvent V) (redactionEvent : V) :
    Kept e (redactedForm builtin e redactionEvent) where
  wireType := rfl
  clearType := rfl
  wireKeys key hkey := by
    show (e.event.fields.filter keepsKey).get key = _
    rw [get_filter, if_pos (keepsKey_of_mem hkey)]
  clearKeys key _ := rfl
  wireContent := by
    show SameUnder _ _ (if e.clearEvent.content.isSome then e.event.content
      else e.event.content.map (filter (keepsContentKey builtin e.getType)))
    split
    · exact ⟨Iff.rfl, fun _ _ => rfl⟩
    · exact sameUnder_filter _ fun key => keepsContentKey_of_mem
  clearContent := sameUnder_filter _ fun key => keepsContentKey_of_mem

/-- The content that is gone through, afterwards. -/
theorem getOriginalContent_redactedForm (e : MatrixEvent V) (redactionEvent : V) :
    (redactedForm builtin e redactionEvent).getOriginalContent =
      ((e.clearEvent.content.or e.event.content).getD .empty).filter
        (keepsContentKey builtin e.getType) := by
  obtain ⟨⟨type, wire, unsigned, fields⟩, ⟨clearType, clear, clearFields⟩, replacing, redaction,
    forwardLooking⟩ := e
  cases clear with
  | some content => rfl
  | none =>
    cases wire with
    | some content => rfl
    | none => exact (ext_keys rfl fun key hkey => absurd hkey List.not_mem_nil)

theorem getWireContent_redactedForm (e : MatrixEvent V) (redactionEvent : V) :
    (redactedForm builtin e redactionEvent).getWireContent =
      if e.clearEvent.content.isSome then e.getWireContent
      else ((e.clearEvent.content.or e.event.content).getD .empty).filter
        (keepsContentKey builtin e.getType) := by
  obtain ⟨⟨type, wire, unsigned, fields⟩, ⟨clearType, clear, clearFields⟩, replacing, redaction,
    forwardLooking⟩ := e
  cases clear with
  | some content => rfl
  | none =>
    cases wire with
    | some content => rfl
    | none => exact (ext_keys rfl fun key hkey => absurd hkey List.not_mem_nil)

/-- A key that is no kept one is not there. -/
theorem get_of_onlyKeys (h : OnlyKeys o keys) {key : String} (hkey : key ∉ keys) :
    o.get key = none :=
  get_eq_none_iff.2 fun hmem => hkey (h key hmem)

theorem relates_not_mem (type : String) : "m.relates_to" ∉ keptContentKeys type := by
  rw [keptContentKeys]
  unfold redactKeepContent
  split <;> decide +kernel

/-- **What is left to be seen**: nothing, if the event was an ordinary one. -/
theorem redacted_of_ordinary (h : Ordinary builtin e) (truthy : V → Bool) (redactionEvent : V) :
    Redacted truthy (redactedForm builtin e redactionEvent) := by
  have hfields : OnlyKeys (redactedForm builtin e redactionEvent).event.fields redactKeepKeys :=
    keepsKey_iff_of_onlyKeys.2 h.wireKeys
  have hcontent : OnlyKeys (((e.clearEvent.content.or e.event.content).getD .empty).filter
      (keepsContentKey builtin e.getType)) (keptContentKeys e.getType) := by
    refine onlyKeys_filter.2 fun key hkey hkeeps => ?_
    cases hsome : e.clearEvent.content.or e.event.content with
    | none =>
      rw [hsome] at hkey
      exact absurd hkey List.not_mem_nil
    | some content =>
      rw [hsome] at hkey
      exact (h.content content hsome key hkey).2 hkeeps
  have hwire : OnlyKeys (redactedForm builtin e redactionEvent).getWireContent
      (keptContentKeys e.getType) := by
    rw [getWireContent_redactedForm]
    split
    next hclear => exact h.wireContent hclear
    · exact hcontent
  have hprev : (redactedForm builtin e redactionEvent).getPrevContent truthy =
      ((redactedForm builtin e redactionEvent).getUnsigned.get "prev_content").filter truthy := by
    rw [MatrixEvent.getPrevContent, get_of_onlyKeys hfields (by decide)]
    exact Option.or_none
  refine ⟨hfields, h.clearKeys, hwire, fun content hclear => ?_, ?_, ?_, hprev, ?_, ?_, ?_, ?_, rfl,
    rfl⟩
  · obtain ⟨content', hcontent', rfl⟩ := Option.map_eq_some_iff.1 hclear
    have hsome : e.clearEvent.content = some content' := hcontent'
    refine onlyKeys_filter.2 fun key hkey => ?_
    exact (h.content content' (by rw [hsome, Option.some_or]) key hkey).2
  · show OnlyKeys (redactedForm builtin e redactionEvent).getOriginalContent _
    rw [getOriginalContent_redactedForm]
    exact hcontent
  · rw [getOriginalContent_redactedForm]
    exact hcontent
  · rw [MatrixEvent.getDirectionalContent, hprev]
  · rw [MatrixEvent.getAge, get_of_onlyKeys hfields (by decide)]
    exact Option.or_none
  · exact get_of_onlyKeys hwire (relates_not_mem _)
  · exact get_of_onlyKeys hfields (by decide)

/-- **When a redaction is complete**: of an ordinary event, and of no other, `makeRedacted` leaves
nothing to be seen that is not to be kept. What is to be kept keeps its value, and doing it again
changes nothing. -/
theorem makeRedacted_iff (builtin : String → String → Bool) (truthy : V → Bool)
    (e : MatrixEvent V) (redactionEvent : V) :
    (∃ e', makeRedacted builtin e redactionEvent = .ok e' ∧ Redacted truthy e' ∧ Kept e e' ∧
      makeRedacted builtin e' redactionEvent = .ok e') ↔ Ordinary builtin e := by
  constructor
  · rintro ⟨e', hmade, hredacted, -, -⟩
    obtain ⟨hown, hcontent, rfl⟩ := makeRedacted_eq_ok.1 hmade
    refine ⟨keepsKey_iff_of_onlyKeys.1 hredacted.wireKeys, hredacted.clearKeys,
      fun content hsome key hkey => ⟨?_, fun hkeeps => ?_⟩, fun hclear => ?_⟩
    · rintro rfl
      exact JsObject.get_eq_none_iff.1 (hcontent content hsome) hkey
    · have honly := hredacted.originalContent
      rw [getOriginalContent_redactedForm, hsome] at honly
      exact onlyKeys_filter.1 honly key hkey hkeeps
    · have honly := hredacted.wireContent
      rw [getWireContent_redactedForm, if_pos hclear] at honly
      exact honly
  · intro h
    have hmade : makeRedacted builtin e redactionEvent =
        .ok (redactedForm builtin e redactionEvent) := by
      refine makeRedacted_eq_ok.2 ⟨?_, fun content hsome => ?_, rfl⟩
      · refine JsObject.get_eq_none_iff.2 fun hmem => h.wireKeys _ hmem ?_
        decide +kernel
      · exact JsObject.get_eq_none_iff.2 fun hmem => (h.content content hsome _ hmem).1 rfl
    exact ⟨_, hmade, redacted_of_ordinary h truthy redactionEvent,
      kept_redactedForm e redactionEvent, makeRedacted_again hmade⟩

end Redact

/-- A message that has been decrypted: its encrypted content stays. -/
theorem makeRedacted_fails :
    let e : MatrixEvent String :=
      { event := ⟨"m.room.encrypted", some (.set .empty "ciphertext" "AwgA"), none, .empty⟩
        clearEvent := ⟨some "m.room.message", some (.set .empty "body" "secret"), .empty⟩
        replacingEvent := none
        localRedactionEvent := none
        forwardLooking := true }
    let builtin : String → String → Bool := fun _ _ => false
    ∃ e', makeRedacted builtin e "$redaction" = .ok e' ∧
      e'.getWireContent.get "ciphertext" = some "AwgA" ∧
      ¬ Redacted (fun value => value ≠ "") e' := by
  refine ⟨_, makeRedacted_eq_ok.2 ⟨rfl, fun content h => ?_, rfl⟩, rfl, fun h => ?_⟩
  · obtain rfl := Option.some.inj h
    rfl
  · exact absurd (h.wireContent "ciphertext" List.mem_cons_self) (by decide +kernel)

end MatrixSdk.Models.Redaction
