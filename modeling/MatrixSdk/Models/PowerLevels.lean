/-
Power levels: `setPowerLevelEvent` of `models/room-member.js`, and what `models/room-state.js`
decides by them.

The level of a user is computed twice. A member holds what `users` has for it, whatever that is, or
`users_default`, whatever that is; `_maySendEventOfType` takes either only if it is a finite number.
[`powerLevel_iff`] says when both are one level, by which every permission is decided.

The event is one that looks forward, so its directional content is its content. `powerLevelNorm` and
what is emitted are left out.
-/
import MatrixSdk.Lib.JsObject
import MatrixSdk.Lib.JsonValue
import Mathlib.Algebra.Order.Ring.Rat

set_option autoImplicit false

namespace MatrixSdk.Models.PowerLevels

open MatrixSdk.Lib

/-! ## Values -/

/-- A number of JSON. One that is too large is read as infinite. -/
inductive Number
  | finite (value : ℚ)
  | infinite (negative : Bool)

/-- What a property is. -/
inductive Property
  | undefined
  | json (value : JsonValue Number)
  /-- A function or object that a prototype has. -/
  | inherited

/-- What the language has besides: the properties of what is no plain object (elements, `length`,
what the prototype has), and `level >= required` for a level that is no number. -/
structure Engine where
  builtin : JsonValue Number → String → Property
  atLeast : Property → ℚ → Bool

/-- A value that passes `if (value)`. -/
def isTruthy : JsonValue Number → Bool
  | .null => false
  | .bool value => value
  | .num (.finite value) => value ≠ 0
  | .num (.infinite _) => true
  | .str value => value ≠ ""
  | .arr _ => true
  | .obj _ => true

/-- The number, if `Number.isFinite(value)`. -/
def finite? : Property → Option ℚ
  | .json (.num (.finite value)) => some value
  | _ => none

/-- The content of the event, as the list of what it has. -/
abbrev Content : Type := List (String × JsonValue Number)

section Levels

variable (engine : Engine)

/-- `value[name]` -/
def getProperty (value : JsonValue Number) (name : String) : Property :=
  match value with
  | .obj members =>
    match members.lookup name with
    | some value => .json value
    | none => if name ∈ JsObject.inheritedNames then .inherited else .undefined
  | value => engine.builtin value name

/-- The number `content[name]`, if it is finite. -/
def finiteMember (content : Content) (name : String) : Option ℚ :=
  (content.lookup name).bind fun value => finite? (.json value)

/-! ## `RoomState` -/

/-- The level that `_maySendEventOfType` takes: `users && users[userId]`, or `users_default`,
or 0. -/
def userPowerLevel (content : Content) (userId : String) : ℚ :=
  let userPowerLevel : Property := match content.lookup "users" with
    | none => .undefined
    | some users => if isTruthy users then getProperty engine users userId else .json users
  (finite? userPowerLevel).getD ((finiteMember content "users_default").getD 0)

/-- The level that it requires. -/
def requiredLevel (content : Content) (eventType : String) (state : Bool) : ℚ :=
  let events_levels := ((content.lookup "events").filter isTruthy).getD (.obj [])
  let default := if state then (finiteMember content "state_default").getD 50
    else (finiteMember content "events_default").getD 0
  (finite? (getProperty engine events_levels eventType)).getD default

def maySendEventOfType (content : Content) (eventType userId : String) (state : Bool) : Bool :=
  requiredLevel engine content eventType state ≤ userPowerLevel engine content userId

def maySendEvent (content : Content) (eventType userId : String) : Bool :=
  maySendEventOfType engine content eventType userId false

/-- `level >= required` -/
def atLeast (level : Property) (required : ℚ) : Bool :=
  match level with
  | .json (.num (.finite value)) => required ≤ value
  | .json (.num (.infinite negative)) => !negative
  | level => engine.atLeast level required

/-- The level that `_hasSufficientPowerLevelFor` requires. -/
def actionLevel (content : Content) (action : String) : ℚ := (finiteMember content action).getD 50

def hasSufficientPowerLevelFor (content : Content) (action : String) (powerLevel : Property) :
    Bool :=
  atLeast engine powerLevel (actionLevel content action)

/-- What is read of a member. -/
structure Member where
  userId : String
  membership : String
  powerLevel : Property

/-- What is read of an event that is to be redacted. -/
structure RedactedEvent where
  hasStatus : Bool
  isRedacted : Bool
  sender : String

def maySendRedactionForEvent (content : Content) (mxEvent : RedactedEvent) (member : Member) :
    Bool :=
  if member.membership = "leave" then false
  else if mxEvent.hasStatus || mxEvent.isRedacted then false
  else if mxEvent.sender = member.userId then
    maySendEvent engine content "m.room.redaction" member.userId
  else hasSufficientPowerLevelFor engine content "redact" member.powerLevel

/-- The level that `mayTriggerNotifOfType` requires. -/
def notifLevel (content : Content) (notifLevelKey : String) : ℚ :=
  (((content.lookup "notifications").filter isTruthy).bind fun notifications =>
    finite? (getProperty engine notifications notifLevelKey)).getD 50

def mayTriggerNotifOfType (content : Content) (notifLevelKey : String) (member : Member) : Bool :=
  atLeast engine member.powerLevel (notifLevel engine content notifLevelKey)

end Levels

/-! ## `RoomMember` -/

mutual

/-- No number can be made of the value: its `toString` is no function. -/
def unconvertible (value : JsonValue Number) : Bool :=
  match value with
  | .obj members => (members.lookup "toString").isSome
  | .arr elements => anyUnconvertible elements
  | _ => false
termination_by structural value

def anyUnconvertible (elements : List (JsonValue Number)) : Bool :=
  match elements with
  | [] => false
  | e :: elements => unconvertible e || anyUnconvertible elements
termination_by structural elements

end

/-- `utils.values(users)` -/
def values : Option (JsonValue Number) → Except String (List (JsonValue Number))
  | some (.obj members) =>
    if (members.lookup "hasOwnProperty").isSome then
      .error "obj.hasOwnProperty is not a function"
    else .ok (members.map Prod.snd)
  | some (.arr elements) => .ok elements
  | some (.str text) => .ok (text.toList.map fun c => .str (String.singleton c))
  | _ => .ok []

/-- The loop for `maxLevel`, whether it throws: each turn makes numbers of the level before and of
the next one. -/
def maxLevel (content : Content) : Except String Unit :=
  let users_default := ((content.lookup "users_default").filter isTruthy).getD (.num (.finite 0))
  (values (content.lookup "users")).bind fun levels =>
    if levels ≠ [] ∧ (unconvertible users_default ∨ anyUnconvertible levels) then
      .error "Cannot convert object to primitive value"
    else .ok ()

/-- `evContent.users && evContent.users[this.userId]`, where what is not there is `undefined`. -/
def usersProperty (engine : Engine) (content : Content) (userId : String) : Property :=
  match (content.lookup "users").filter isTruthy with
  | none => .undefined
  | some users => getProperty engine users userId

/-- `setPowerLevelEvent`, as what becomes of the member. -/
def setPowerLevelEvent (engine : Engine) (evContent : Content) (member : Member) : Member :=
  match maxLevel evContent with
  | .error _ => member
  | .ok () =>
    match usersProperty engine evContent member.userId with
    | .undefined =>
      match evContent.lookup "users_default" with
      | some users_default => { member with powerLevel := .json users_default }
      | none => { member with powerLevel := .json (.num (.finite 0)) }
    | level => { member with powerLevel := level }

/-! ## One level -/

/-- What may be asked of a room. -/
inductive Permission
  | send (eventType : String) (state : Bool)
  | redact (mxEvent : RedactedEvent)
  | notif (notifLevelKey : String)

section Permissions

variable (engine : Engine) (content : Content)

def answer (member : Member) : Permission → Bool
  | .send eventType state => maySendEventOfType engine content eventType member.userId state
  | .redact mxEvent => maySendRedactionForEvent engine content mxEvent member
  | .notif notifLevelKey => mayTriggerNotifOfType engine content notifLevelKey member

/-- The level that a permission requires, whatever that of the member is; `none` if it is
refused. -/
def required (member : Member) : Permission → Option ℚ
  | .send eventType state => some (requiredLevel engine content eventType state)
  | .redact mxEvent =>
    if member.membership = "leave" ∨ mxEvent.hasStatus ∨ mxEvent.isRedacted then none
    else if mxEvent.sender = member.userId then
      some (requiredLevel engine content "m.room.redaction" false)
    else some (actionLevel content "redact")
  | .notif notifLevelKey => some (notifLevel engine content notifLevelKey)

/-- What is to be answered at a level. -/
def answerAt (member : Member) (permission : Permission) (level : ℚ) : Bool :=
  (required engine content member permission).any (· ≤ level)

/-- **One level**: the member holds the level that `_maySendEventOfType` takes, and each permission
is decided by it, with an answer that is monotone in the level. -/
structure OneLevel (member : Member) : Prop where
  held : member.powerLevel = .json (.num (.finite (userPowerLevel engine content member.userId)))
  decided : ∀ permission, answer engine content member permission =
    answerAt engine content member permission (userPowerLevel engine content member.userId)
  monotone : ∀ permission, Monotone (answerAt engine content member permission)

/-- **Ordinary levels**: what `users` has for the user is a finite number, or it has nothing and
`users_default` is missing or a finite number (which is 0 where `users` is); and where a level
cannot be made a number, the member has the right level already. -/
def Ordinary (member : Member) : Prop :=
  match maxLevel content with
  | .error _ =>
    member.powerLevel = .json (.num (.finite (userPowerLevel engine content member.userId)))
  | .ok () =>
    match usersProperty engine content member.userId with
    | .undefined => ∀ users_default, content.lookup "users_default" = some users_default →
      ∃ level, users_default = .num (.finite level) ∧
        (content.lookup "users" = some (.num (.finite 0)) → level = 0)
    | level => (finite? level).isSome

end Permissions

/-! ## The level that is taken -/

variable {engine : Engine} {content : Content} {userId : String}

/-- What `users` has is taken if it is a finite number. -/
theorem userPowerLevel_of_ne (h : usersProperty engine content userId ≠ .undefined) :
    userPowerLevel engine content userId = (finite? (usersProperty engine content userId)).getD
      ((finiteMember content "users_default").getD 0) := by
  rw [usersProperty] at h ⊢
  rw [userPowerLevel]
  cases hlookup : content.lookup "users" with
  | none =>
    rw [hlookup] at h
    exact absurd rfl h
  | some users =>
    rw [hlookup, Option.filter_some] at h
    rw [Option.filter_some]
    dsimp only
    cases htruthy : isTruthy users with
    | true => rw [if_pos rfl, if_pos rfl]
    | false =>
      rw [htruthy] at h
      exact absurd rfl h

/-- What does not pass as a condition is no finite number, unless it is 0. -/
theorem finite?_of_not_isTruthy {value : JsonValue Number} (h : isTruthy value = false)
    (hzero : value ≠ .num (.finite 0)) : finite? (.json value) = none := by
  cases value with
  | num number =>
    cases number with
    | finite q =>
      have hq : q = 0 := not_not.1 (of_decide_eq_false h)
      exact absurd (by rw [hq]) hzero
    | infinite negative => rfl
  | _ => rfl

/-- Where `users` has nothing, the default is taken, unless `users` is 0. -/
theorem userPowerLevel_of_undefined (h : usersProperty engine content userId = .undefined) :
    (content.lookup "users" = some (.num (.finite 0)) → userPowerLevel engine content userId = 0) ∧
      (content.lookup "users" ≠ some (.num (.finite 0)) →
        userPowerLevel engine content userId = (finiteMember content "users_default").getD 0) := by
  rw [usersProperty] at h
  rw [userPowerLevel]
  cases hlookup : content.lookup "users" with
  | none => exact ⟨nofun, fun _ => rfl⟩
  | some users =>
    rw [hlookup, Option.filter_some] at h
    dsimp only
    cases htruthy : isTruthy users with
    | true =>
      rw [htruthy, if_pos rfl] at h
      dsimp only at h
      rw [if_pos rfl, h]
      refine ⟨fun hzero => ?_, fun _ => rfl⟩
      obtain rfl := Option.some.inj hzero
      exact nomatch htruthy
    | false =>
      rw [if_neg Bool.false_ne_true]
      constructor
      · rintro ⟨⟩
        rfl
      · intro hzero
        rw [finite?_of_not_isTruthy htruthy fun heq => hzero (by rw [heq])]
        rfl

/-- **The levels agree**, if and only if they are ordinary. -/
theorem held_iff (member : Member) :
    (setPowerLevelEvent engine content member).powerLevel =
      .json (.num (.finite (userPowerLevel engine content member.userId))) ↔
        Ordinary engine content member := by
  rw [setPowerLevelEvent, Ordinary]
  cases maxLevel content with
  | error message => exact Iff.rfl
  | ok done =>
    cases hproperty : usersProperty engine content member.userId with
    | undefined =>
      obtain ⟨hzero, hdefault⟩ := userPowerLevel_of_undefined hproperty
      by_cases husers : content.lookup "users" = some (.num (.finite 0))
      · rw [hzero husers]
        cases content.lookup "users_default" with
        | none => exact iff_of_true rfl nofun
        | some users_default =>
          constructor
          · rintro h _ ⟨⟩
            obtain rfl := Property.json.inj h
            exact ⟨0, rfl, fun _ => rfl⟩
          · intro h
            obtain ⟨level, rfl, hlevel⟩ := h users_default rfl
            rw [hlevel husers]
      · rw [hdefault husers, finiteMember]
        cases content.lookup "users_default" with
        | none => exact iff_of_true rfl nofun
        | some users_default =>
          constructor
          · rintro h _ ⟨⟩
            exact ⟨_, Property.json.inj h, fun heq => absurd heq husers⟩
          · intro h
            obtain ⟨level, rfl, -⟩ := h users_default rfl
            rfl
    | json value =>
      have hlevel := userPowerLevel_of_ne (hproperty ▸ nofun :
        usersProperty engine content member.userId ≠ .undefined)
      rw [hproperty] at hlevel
      constructor
      · intro h
        obtain rfl := Property.json.inj h
        rfl
      · intro h
        obtain ⟨level, hfinite⟩ := Option.isSome_iff_exists.1 h
        rw [hlevel, hfinite, Option.getD_some]
        unfold finite? at hfinite
        split at hfinite
        next heq => rw [heq, Option.some.inj hfinite]
        · exact nomatch hfinite
    | inherited => exact iff_of_false nofun nofun

theorem setPowerLevelEvent_userId (member : Member) :
    (setPowerLevelEvent engine content member).userId = member.userId := by
  rw [setPowerLevelEvent]
  split
  · rfl
  · split
    · split <;> rfl
    · rfl

/-! ## Permissions -/

/-- A member that holds the level is answered by it. -/
theorem answer_eq {member : Member} (held : member.powerLevel =
      .json (.num (.finite (userPowerLevel engine content member.userId))))
    (permission : Permission) : answer engine content member permission =
      answerAt engine content member permission (userPowerLevel engine content member.userId) := by
  cases permission with
  | send eventType state => rfl
  | redact mxEvent =>
    rw [answer, answerAt, maySendRedactionForEvent, required]
    by_cases hleave : member.membership = "leave"
    · rw [if_pos hleave, if_pos (Or.inl hleave)]
      rfl
    · rw [if_neg hleave]
      by_cases hstatus : (mxEvent.hasStatus || mxEvent.isRedacted) = true
      · rw [if_pos hstatus, if_pos (Or.inr (Bool.or_eq_true_iff.1 hstatus))]
        rfl
      · have hnone : ¬ (member.membership = "leave" ∨ mxEvent.hasStatus = true ∨
            mxEvent.isRedacted = true) :=
          not_or.2 ⟨hleave, fun h => hstatus (Bool.or_eq_true_iff.2 h)⟩
        rw [if_neg hstatus, if_neg hnone]
        split
        · rfl
        · rw [hasSufficientPowerLevelFor, held]
          rfl
  | notif notifLevelKey =>
    rw [answer, mayTriggerNotifOfType, held]
    rfl

theorem answerAt_monotone (member : Member) (permission : Permission) :
    Monotone (answerAt engine content member permission) := by
  intro level level' hle
  rw [answerAt, answerAt]
  cases required engine content member permission with
  | none => exact le_refl false
  | some needed =>
    -- what is enough at a level is enough at a higher one
    refine Bool.le_iff_imp.2 fun h => ?_
    exact decide_eq_true (le_trans (of_decide_eq_true h) hle)

/-- **One level for every permission**: after `setPowerLevelEvent`, the member holds the level that
permissions to send are decided by, and so are all others, if and only if the levels are
ordinary. -/
theorem powerLevel_iff (engine : Engine) (content : Content) (member : Member) :
    OneLevel engine content (setPowerLevelEvent engine content member) ↔
      Ordinary engine content member := by
  rw [← held_iff]
  constructor
  · intro h
    rw [h.held, setPowerLevelEvent_userId]
  · intro h
    rw [← @setPowerLevelEvent_userId engine content member] at h
    exact ⟨h, answer_eq h, answerAt_monotone _⟩

/-- The level of a user is the text `"50"`: the member holds it, and `_maySendEventOfType`
takes 0. -/
theorem powerLevel_fails :
    let engine : Engine := ⟨fun _ _ => .undefined, fun _ required => required ≤ 50⟩
    let content : Content := [("users", .obj [("@alice:example.org", .str "50")])]
    let member : Member := ⟨"@alice:example.org", "join", .json (.num (.finite 0))⟩
    (setPowerLevelEvent engine content member).powerLevel = .json (.str "50") ∧
      userPowerLevel engine content member.userId = 0 ∧
      ¬ OneLevel engine content (setPowerLevelEvent engine content member) := by
  intro engine content member
  refine ⟨by rfl, by rfl, fun h => ?_⟩
  exact nomatch h.held

end MatrixSdk.Models.PowerLevels
