/-
Push rules: `actionsForEvent` of `pushprocessor.js` with what it calls, and which rule the push rule
specification has for an event.

A rule of the kinds `room`, `sender` and `content` is made a condition on a field of the event. For
a sender rule this is the field `user_id`, which only the events of the first version have, although
the sender is looked up in either field everywhere else. So sender rules are passed over, see
[`actionsForEvent_iff`].

All conditions of a rule are evaluated, also after one that does not hold; where one throws, no
actions are returned at all. The parts of a rule and of an event that the code reads are JSON.
-/
import MatrixSdk.Client.PushProcessor

set_option autoImplicit false

namespace MatrixSdk.PushProcessor

open MatrixSdk.Lib MatrixSdk.RegExp MatrixSdk.Utils

universe u v

variable {ν : Type u} {N : Type v}

/-! ## Rules -/

inductive RuleKind
  | override
  | content
  | room
  | sender
  | underride
  deriving DecidableEq

def RULEKINDS_IN_ORDER : List RuleKind := [.override, .content, .room, .sender, .underride]

structure PushRule (ν : Type u) where
  rule_id : Option (JsonValue ν)
  enabled : Option (JsonValue ν)
  conditions : Option (List (JsonObject ν))
  pattern : Option (JsonValue ν)
  actions : Option (List (JsonValue ν))

/-- `rulesets.global`: a kind may be missing. -/
abbrev KindSet (ν : Type u) := RuleKind → Option (List (PushRule ν))

/-- What is read of a room. -/
structure RoomView (ν : Type u) where
  getJoinedMemberCount : ℕ
  /-- `getMember(userId).name`, of the user himself. -/
  ownName : Option String
  mayTriggerNotifOfType : JsonValue ν → Option (JsonValue ν) → Bool

/-- What is read of the client. -/
structure ClientView (ν : Type u) where
  /-- `credentials.userId` -/
  userId : Option String
  getRoom : Option (JsonValue ν) → Option (RoomView ν)
  /-- `pushRules`, and in it `global`. -/
  pushRules : Option (Option (KindSet ν))

/-- What the language does with a condition whose kind is the name of something inherited: whether
the result of the call counts as true, as an operand of `&`. -/
abbrev CallInherited (ν : Type u) (N : Type v) := Val ν N → JsonObject ν → Except JsError Bool

namespace PushEvent

variable [Zero ν] [DecidableEq ν]

def isEncrypted (ev : PushEvent ν) : Bool :=
  (ev.event.lookup "state_key").isNone &&
    match ev.event.lookup "type" with
    | some (.str type) => type = "m.room.encrypted"
    | _ => false

/-- `getClearContent`, when it is not `null`. -/
def getClearContent (ev : PushEvent ν) : Option (JsonValue ν) :=
  if isTruthy (ev.clearEvent.lookup "content") then ev.clearEvent.lookup "content" else none

end PushEvent

/-! ## Conditions -/

section Code

variable [Zero ν] [DecidableEq ν] (E : Engine ν N) (callInherited : CallInherited ν N)
  (client : ClientView ν)

def eventFulfillsSenderNotifPermCondition (cond : JsonObject ν) (ev : PushEvent ν) : Bool :=
  match cond.lookup "key" with
  | none => false
  | some notifLevelKey =>
    if !isTruthy (some notifLevelKey) then false
    else
      match client.getRoom ev.getRoomId with
      | none => false
      | some room => room.mayTriggerNotifOfType notifLevelKey ev.getSender

/-- The characters of `m[1]` in `/^([=<>]*)([0-9]*)$/`. -/
def isInequality (c : Char) : Bool := c = '=' || c = '<' || c = '>'

/-- The number that decimal digits are: `NaN` when there are none. -/
def parseInt (digits : List Char) : Option ℕ :=
  if digits = [] then none
  else some (digits.foldl (fun n c => 10 * n + (c.toNat - '0'.toNat)) 0)

def compareMemberCount (memberCount : ℕ) (is : String) : Bool :=
  let ineq := is.toList.takeWhile isInequality
  let digits := is.toList.dropWhile isInequality
  if digits.all Char.isDigit then
    match parseInt digits with
    | none => false
    | some rhs =>
      if ineq = [] ∨ ineq = ['=', '='] then memberCount = rhs
      else if ineq = ['<'] then memberCount < rhs
      else if ineq = ['>'] then rhs < memberCount
      else if ineq = ['<', '='] then memberCount ≤ rhs
      else if ineq = ['>', '='] then rhs ≤ memberCount
      else false
  else false

def eventFulfillsRoomMemberCountCondition (cond : JsonObject ν) (ev : PushEvent ν) :
    Except JsError Bool :=
  if !isTruthy (cond.lookup "is") then .ok false
  else
    match client.getRoom ev.getRoomId with
    | none => .ok false
    | some room =>
      match cond.lookup "is" with
      | some (.str is) => .ok (compareMemberCount room.getJoinedMemberCount is)
      | _ => .error .typeError

/-- `"(^|\\W)" + escapeRegExp(displayName) + "(\\W|$)"` -/
def nameSource (displayName : String) : List CodeUnit :=
  ['(', '^', '|', '\\', 'W', ')'].map cu ++ escapeRegExp (utf16 displayName) ++
    ['(', '\\', 'W', '|', '$', ')'].map cu

/-- The content that is searched for the name. -/
def displayContent (ev : PushEvent ν) : JsonValue ν :=
  if ev.isEncrypted then ev.getClearContent.getD ev.getContent else ev.getContent

def eventFulfillsDisplayNameCondition (ev : PushEvent ν) : Except JsError Bool :=
  match getProperty E (.json (displayContent ev)) "body" with
  | some (.json (.str body)) =>
    if body = "" then .ok false
    else
      match (client.getRoom ev.getRoomId).bind RoomView.ownName with
      | none => .ok false
      | some displayName =>
        if E.compiles (nameSource displayName) then
          .ok (E.search (nameSource displayName) (utf16 body))
        else .error .syntaxError
  | _ => .ok false

/-- `eventFulfillsCondition`, whose result is an operand of `&`. -/
def eventFulfillsCondition (cond : JsonObject ν) (ev : PushEvent ν) (cache : Cache) :
    Except JsError Bool × Cache :=
  match cacheName E (cond.lookup "kind") with
  | none => (.error .typeError, cache)
  | some kind =>
    if kind = "event_match" then eventFulfillsEventMatchCondition E cond ev cache
    else if kind = "contains_display_name" then
      (eventFulfillsDisplayNameCondition E client ev, cache)
    else if kind = "room_member_count" then
      (eventFulfillsRoomMemberCountCondition client cond ev, cache)
    else if kind = "sender_notification_permission" then
      (.ok (eventFulfillsSenderNotifPermCondition client cond ev), cache)
    else
      -- the functions are in an object that inherits
      match E.inherited (.json (.obj [])) kind with
      | some value => (callInherited value cond, cache)
      | none => (.ok false, cache)

/-- The loop of `ruleMatchesEvent`. -/
def ruleMatchesLoop (ev : PushEvent ν) :
    List (JsonObject ν) → Bool → Cache → Except JsError Bool × Cache
  | [], ret, cache => (.ok ret, cache)
  | cond :: conds, ret, cache =>
    match eventFulfillsCondition E callInherited client cond ev cache with
    | (.error e, cache') => (.error e, cache')
    | (.ok fulfilled, cache') => ruleMatchesLoop ev conds (ret && fulfilled) cache'

def ruleMatchesEvent (conditions : Option (List (JsonObject ν))) (ev : PushEvent ν)
    (cache : Cache) : Except JsError Bool × Cache :=
  match conditions with
  | none => (.error .typeError, cache)
  | some conds => ruleMatchesLoop E callInherited client ev conds true cache

/-! ## The rule for an event -/

/-- The conditions of the raw rule, when there is one. -/
def templateRuleToRaw (kind : RuleKind) (tprule : PushRule ν) :
    Option (Option (List (JsonObject ν))) :=
  match kind with
  | .override | .underride => some tprule.conditions
  | .room =>
    if !isTruthy tprule.rule_id then none
    else
      some (some [[("kind", .str "event_match"), ("key", .str "room_id"),
        ("value", tprule.rule_id.getD .null)]])
  | .sender =>
    if !isTruthy tprule.rule_id then none
    else
      some (some [[("kind", .str "event_match"), ("key", .str "user_id"),
        ("value", tprule.rule_id.getD .null)]])
  | .content =>
    if !isTruthy tprule.pattern then none
    else
      some (some [[("kind", .str "event_match"), ("key", .str "content.body"),
        ("pattern", tprule.pattern.getD .null)]])

/-- The inner loop of `matchingRuleFromKindSet`. -/
def matchingRuleFromRuleset (kind : RuleKind) (ev : PushEvent ν) :
    List (PushRule ν) → Cache → Except JsError (Option (PushRule ν)) × Cache
  | [], cache => (.ok none, cache)
  | rule :: ruleset, cache =>
    if !isTruthy rule.enabled then matchingRuleFromRuleset kind ev ruleset cache
    else
      match templateRuleToRaw kind rule with
      | none => matchingRuleFromRuleset kind ev ruleset cache
      | some conditions =>
        match ruleMatchesEvent E callInherited client conditions ev cache with
        | (.error e, cache') => (.error e, cache')
        | (.ok true, cache') => (.ok (some rule), cache')
        | (.ok false, cache') => matchingRuleFromRuleset kind ev ruleset cache'

/-- The outer loop of `matchingRuleFromKindSet`. -/
def matchingRuleFromKinds (ev : PushEvent ν) (kindset : KindSet ν) :
    List RuleKind → Cache → Except JsError (Option (RuleKind × PushRule ν)) × Cache
  | [], cache => (.ok none, cache)
  | kind :: kinds, cache =>
    match kindset kind with
    | none => matchingRuleFromKinds ev kindset kinds cache
    | some ruleset =>
      match matchingRuleFromRuleset E callInherited client kind ev ruleset cache with
      | (.error e, cache') => (.error e, cache')
      | (.ok (some rule), cache') => (.ok (some (kind, rule)), cache')
      | (.ok none, cache') => matchingRuleFromKinds ev kindset kinds cache'

/-- Whether the sender is the user himself. -/
def isOwn (ev : PushEvent ν) : Bool :=
  match ev.getSender, client.userId with
  | some (.str sender), some userId => sender = userId
  | some .null, none => true
  | _, _ => false

def matchingRuleForEventWithRulesets (ev : PushEvent ν) (cache : Cache) :
    Except JsError (Option (RuleKind × PushRule ν)) × Cache :=
  match client.pushRules with
  | none => (.ok none, cache)
  | some rulesets =>
    if isOwn client ev then (.ok none, cache)
    else
      match rulesets with
      | none => (.error .typeError, cache)
      | some kindset =>
        matchingRuleFromKinds E callInherited client ev kindset RULEKINDS_IN_ORDER cache

/-! ## Actions -/

/-- What `actionListToActionsObject` returns. -/
structure PushActions (ν : Type u) where
  notify : Bool
  tweaks : JsObject String (JsonValue ν)

/-- A turn of the loop of `actionListToActionsObject`. -/
def addAction (actionobj : PushActions ν) : JsonValue ν → Except JsError (PushActions ν)
  | .str "notify" => .ok { actionobj with notify := true }
  | .null => .error .typeError
  | .arr _ => .ok { actionobj with tweaks := actionobj.tweaks.set "undefined" (.bool true) }
  | .obj members =>
    match cacheName E (members.lookup "set_tweak") with
    | none => .error .typeError
    | some tweak =>
      let value := (members.lookup "value").getD (.bool true)
      .ok { actionobj with tweaks := actionobj.tweaks.set tweak value }
  | _ => .ok actionobj

def actionListToActionsObject (actionlist : List (JsonValue ν)) : Except JsError (PushActions ν) :=
  actionlist.foldlM (addAction E) ⟨false, .empty⟩

/-- The actions of a rule of some kind: a content rule highlights if it does not say. -/
def ruleActions (kind : RuleKind) (rule : PushRule ν) : Except JsError (PushActions ν) :=
  match rule.actions with
  | none => .error .typeError
  | some actions =>
    (actionListToActionsObject E actions).map fun actionObj =>
      match actionObj.tweaks.get "highlight" with
      | some _ => actionObj
      | none =>
        { actionObj with
          tweaks := actionObj.tweaks.set "highlight" (.bool (kind = .content)) }

/-- What a rule that is found has for actions; `none` is `{}`. -/
def actionsOf : Option (RuleKind × PushRule ν) → Except JsError (Option (PushActions ν))
  | none => .ok none
  | some (kind, rule) => (ruleActions E kind rule).map some

/-- `actionsForEvent` -/
def actionsForEvent (ev : PushEvent ν) (cache : Cache) :
    Except JsError (Option (PushActions ν)) × Cache :=
  match matchingRuleForEventWithRulesets E callInherited client ev cache with
  | (.error e, cache') => (.error e, cache')
  | (.ok rule, cache') => (actionsOf E rule, cache')

end Code

end MatrixSdk.PushProcessor
