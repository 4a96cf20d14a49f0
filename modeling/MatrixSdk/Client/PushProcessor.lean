/-
Conditions on the fields of an event: `eventFulfillsEventMatchCondition`, `createCachedRegex` and
`valueForDottedKey` of `pushprocessor.js`.

An expression that is made of a glob is kept under the glob, whatever the key was that it was made
for; and for `content.body` the expression is another one than for the other keys. So the first
condition with a glob decides how all later ones with it are matched, [`results_fresh_iff`].

Values are JSON, or what the language itself has: functions and prototypes. How a value is inherited
and how the expressions match is a parameter, [`Engine`].
-/
import MatrixSdk.Lib.JsObject
import MatrixSdk.Lib.JsonValue
import MatrixSdk.Lib.System
import MatrixSdk.Utils.GlobToRegexp
import Mathlib

set_option autoImplicit false

namespace MatrixSdk.PushProcessor

open MatrixSdk.Lib MatrixSdk.RegExp MatrixSdk.Utils

universe u v

variable {ν : Type u} {N : Type v}

/-! ## Values -/

inductive JsError
  | typeError
  | syntaxError
  deriving DecidableEq

/-- A value: JSON, or a function or prototype of the language. -/
inductive Val (ν : Type u) (N : Type v)
  | json (value : JsonValue ν)
  | native (n : N)

/-- What the language does. -/
structure Engine (ν : Type u) (N : Type v) where
  /-- A property that is not a member of a JSON object: an inherited one, an element of an array, a
  character of a string, a length. -/
  inherited : Val ν N → String → Option (Val ν N)
  /-- The name that a value is as a key; none for an object that has a member `toString`. -/
  propertyName : JsonValue ν → Option String
  /-- Whether `new RegExp(source, 'i')` is not refused. -/
  compiles : List CodeUnit → Bool
  /-- `!!val.match(new RegExp(source, 'i'))` -/
  search : List CodeUnit → List CodeUnit → Bool
  /-- `!!val.match(value)`, where the value is not an expression. -/
  matchInherited : Val ν N → List CodeUnit → Except JsError Bool

/-- The members of an object. -/
abbrev JsonObject (ν : Type u) := List (String × JsonValue ν)

section Truthy

variable [Zero ν] [DecidableEq ν]

/-- `!!value`, of a value that may be `undefined`. -/
def isTruthy : Option (JsonValue ν) → Bool
  | none => false
  | some .null => false
  | some (.bool b) => b
  | some (.num n) => n ≠ 0
  | some (.str s) => s ≠ ""
  | some (.arr _) => true
  | some (.obj _) => true

/-- `a || b` -/
def jsOr (a b : Option (JsonValue ν)) : Option (JsonValue ν) := if isTruthy a then a else b

end Truthy

/-! ## Events -/

/-- What is read of a `MatrixEvent`. -/
structure PushEvent (ν : Type u) where
  /-- `event` -/
  event : JsonObject ν
  /-- `_clearEvent`: without members, when nothing has been decrypted. -/
  clearEvent : JsonObject ν
  /-- `_replacingEvent.getContent()["m.new_content"]`, when the event is replaced. -/
  replacing : Option (Option (JsonValue ν))
  /-- Whether there is a `_localRedactionEvent`. -/
  locallyRedacted : Bool

namespace PushEvent

variable [Zero ν] [DecidableEq ν]

def getSender (ev : PushEvent ν) : Option (JsonValue ν) :=
  jsOr (ev.event.lookup "sender") (ev.event.lookup "user_id")

def getType (ev : PushEvent ν) : Option (JsonValue ν) :=
  jsOr (ev.clearEvent.lookup "type") (ev.event.lookup "type")

def getRoomId (ev : PushEvent ν) : Option (JsonValue ν) := ev.event.lookup "room_id"

def getOriginalContent (ev : PushEvent ν) : JsonValue ν :=
  if ev.locallyRedacted then .obj []
  else
    let content := jsOr (ev.clearEvent.lookup "content") (ev.event.lookup "content")
    if isTruthy content then content.getD (.obj []) else .obj []

def getContent (ev : PushEvent ν) : JsonValue ν :=
  if ev.locallyRedacted then .obj []
  else
    match ev.replacing with
    | some newContent => if isTruthy newContent then newContent.getD (.obj []) else .obj []
    | none => ev.getOriginalContent

end PushEvent

/-! ## The value of a key -/

section Code

variable [Zero ν] [DecidableEq ν] (E : Engine ν N)

/-- `val[name]` -/
def getProperty : Val ν N → String → Option (Val ν N)
  | .json (.obj members), name =>
    match members.lookup name with
    | some value => some (.json value)
    | none => E.inherited (.json (.obj members)) name
  | val, name => E.inherited val name

/-- `isNullOrUndefined` -/
def isNullOrUndefined : Option (Val ν N) → Bool
  | none => true
  | some (.json .null) => true
  | some _ => false

/-- The loop of `valueForDottedKey`: `null` is what it returns where a part is missing. -/
def follow : Option (Val ν N) → List String → Except JsError (Option (Val ν N))
  | val, [] => .ok val
  | none, _ :: _ => .error .typeError
  | some (.json .null), _ :: _ => .error .typeError
  | some val, part :: parts =>
    if isNullOrUndefined (getProperty E val part) then .ok (some (.json .null))
    else follow (getProperty E val part) parts

/-- `key.split('.')` -/
def splitKey (key : String) : List String := (key.toList.splitOn '.').map String.ofList

def valueForDottedKey (key : String) (ev : PushEvent ν) : Except JsError (Option (Val ν N)) :=
  match splitKey key with
  | [] => .ok none
  | firstPart :: parts =>
    if firstPart = "content" then follow E (some (.json ev.getContent)) parts
    else if firstPart = "type" then follow E (ev.getType.map .json) parts
    else follow E (some (.json (.obj ev.event))) (firstPart :: parts)

/-! ## Expressions -/

/-- The key that an expression is made for: `content.body`, or any other. -/
inductive Kind
  | body
  | field
  deriving DecidableEq

def kindOfKey (key : String) : Kind := if key = "content.body" then .body else .field

/-- `prefix + globToRegexp(glob) + suffix`, with `(^|\W)` and `(\W|$)` or with `^` and `$`. -/
def source : Kind → String → List CodeUnit
  | .body, glob =>
    ['(', '^', '|', '\\', 'W', ')'].map cu ++ globToRegexp (utf16 glob) none ++
      ['(', '\\', 'W', '|', '$', ')'].map cu
  | .field, glob => [cu '^'] ++ globToRegexp (utf16 glob) none ++ [cu '$']

/-- `cachedGlobToRegex`: the texts of the expressions. -/
abbrev Cache := JsObject String (List CodeUnit)

/-- What `createCachedRegex` returns: an expression, or what every object inherits under the
name. -/
inductive Regex (ν : Type u) (N : Type v)
  | made (source : List CodeUnit)
  | inherited (value : Val ν N)

/-- The name that the cache has for a glob. -/
def cacheName : Option (JsonValue ν) → Option String
  | none => some "undefined"
  | some (.str glob) => some glob
  | some value => E.propertyName value

/-- What is returned for a glob that the cache has nothing under: a new expression. -/
def createRegex (kind : Kind) (name : String) (glob : Option (JsonValue ν)) (cache : Cache) :
    Except JsError (Regex ν N) × Cache :=
  match glob with
  | some (.str pattern) =>
    if E.compiles (source kind pattern) then
      (.ok (.made (source kind pattern)), cache.set name (source kind pattern))
    else (.error .syntaxError, cache)
  -- only a string can be escaped
  | _ => (.error .typeError, cache)

/-- `createCachedRegex` -/
def createCachedRegex (kind : Kind) (glob : Option (JsonValue ν)) (cache : Cache) :
    Except JsError (Regex ν N) × Cache :=
  match cacheName E glob with
  | none => (.error .typeError, cache)
  | some name =>
    match cache.get name with
    | some src => (.ok (.made src), cache)
    | none =>
      match E.inherited (.json (.obj [])) name with
      | some value => (.ok (.inherited value), cache)
      | none => createRegex E kind name glob cache

/-- `!!val.match(regex)` -/
def matchRegex (val : String) : Regex ν N → Except JsError Bool
  | .made src => .ok (E.search src (utf16 val))
  | .inherited value => E.matchInherited value (utf16 val)

/-- What a condition comes to without an expression, or the key and the value that one is to
match. -/
inductive Fetched
  | result (r : Except JsError Bool)
  | value (key val : String)
  deriving DecidableEq

/-- `eventFulfillsEventMatchCondition` up to the expression. -/
def fetch (cond : JsonObject ν) (ev : PushEvent ν) : Fetched :=
  if !isTruthy (cond.lookup "key") then .result (.ok false)
  else
    match cond.lookup "key" with
    | some (.str key) =>
      match valueForDottedKey E key ev with
      | .error e => .result (.error e)
      | .ok (some (.json (.str val))) =>
        match cond.lookup "value" with
        | some (.str value) =>
          if value ≠ "" then .result (.ok (value = val)) else .value key val
        | value => if isTruthy value then .result (.ok false) else .value key val
      | .ok _ => .result (.ok false)
    -- only a string can be split
    | _ => .result (.error .typeError)

def eventFulfillsEventMatchCondition (cond : JsonObject ν) (ev : PushEvent ν) (cache : Cache) :
    Except JsError Bool × Cache :=
  match fetch E cond ev with
  | .result r => (r, cache)
  | .value key val =>
    match createCachedRegex E (kindOfKey key) (cond.lookup "pattern") cache with
    | (.ok regex, cache') => (matchRegex E val regex, cache')
    | (.error e, cache') => (.error e, cache')

/-! ## Histories -/

/-- An evaluation of a condition. -/
structure Call (ν : Type u) where
  cond : JsonObject ν
  ev : PushEvent ν

/-- What the condition comes to, when the cache is this. -/
def result (cache : Cache) (call : Call ν) : Except JsError Bool :=
  (eventFulfillsEventMatchCondition E call.cond call.ev cache).1

/-- A processor, as far as its conditions on fields go: only these use the cache. -/
def processor : System Cache (Call ν) where
  init := .empty
  step cache call := some (eventFulfillsEventMatchCondition E call.cond call.ev cache).2

def Kind.other : Kind → Kind
  | .body => .field
  | .field => .body

/-- Where the condition is matched by an expression: when the one for the other kind of key has been
made of the glob, it agrees on the value with the one that is to be made; and what is not a string
has no name that a glob has been kept under. -/
def Undisturbed (cache : Cache) (call : Call ν) : Prop :=
  ∀ key val, fetch E call.cond call.ev = .value key val →
    match call.cond.lookup "pattern" with
    | some (.str pattern) =>
      cache.get pattern = some (source (kindOfKey key).other pattern) →
        E.compiles (source (kindOfKey key) pattern) = true ∧
          E.search (source (kindOfKey key).other pattern) (utf16 val) =
            E.search (source (kindOfKey key) pattern) (utf16 val)
    | glob => ∀ name, cacheName E glob = some name → cache.get name = none

/-- What is kept under a name is an expression made of it, for one kind of key or the other; and no
object inherits anything under the name. -/
def Kept (cache : Cache) : Prop :=
  ∀ name src, cache.get name = some src →
    (∃ kind, src = source kind name ∧ E.compiles src = true) ∧
      E.inherited (.json (.obj [])) name = none

end Code

section

variable {E : Engine ν N} {cache : Cache} {glob : Option (JsonValue ν)}

theorem kept_empty : Kept E .empty := by
  intro name src h
  rw [JsObject.get_empty] at h
  exact nomatch h

theorem Kept.set (h : Kept E cache) {pattern : String} {kind : Kind}
    (hcompiles : E.compiles (source kind pattern) = true)
    (hinherited : E.inherited (.json (.obj [])) pattern = none) :
    Kept E (cache.set pattern (source kind pattern)) := by
  intro name src hget
  rw [JsObject.get_set] at hget
  by_cases hname : name = pattern
  · rw [if_pos hname] at hget
    obtain rfl := Option.some.inj hget
    rw [hname]
    exact ⟨⟨kind, rfl, hcompiles⟩, hinherited⟩
  · rw [if_neg hname] at hget
    exact h name src hget

/-- The invariant of the cache. -/
theorem Kept.createCachedRegex (h : Kept E cache) (kind : Kind) (glob : Option (JsonValue ν)) :
    Kept E (createCachedRegex E kind glob cache).2 := by
  unfold PushProcessor.createCachedRegex
  split
  · exact h
  · rename_i name hname
    split
    · exact h
    · split
      · exact h
      · rename_i hinherited
        unfold createRegex
        split
        · rename_i pattern
          obtain rfl : pattern = name := Option.some.inj hname
          split
          · rename_i hcompiles
            exact h.set hcompiles hinherited
          · exact h
        · exact h

variable [Zero ν] [DecidableEq ν]

theorem Kept.step {cache' : Cache} (h : Kept E cache) {call : Call ν}
    (hstep : (processor E).step cache call = some cache') : Kept E cache' := by
  obtain rfl := Option.some.inj hstep
  unfold eventFulfillsEventMatchCondition
  split
  · exact h
  · rename_i key val _
    have hkept := h.createCachedRegex (kindOfKey key) (call.cond.lookup "pattern")
    split <;>
      · rename_i heq
        rw [heq] at hkept
        exact hkept

/-! ## The cache and the outcome -/

theorem result_of_value {call : Call ν} {key val : String}
    (h : fetch E call.cond call.ev = .value key val) (cache : Cache) :
    result E cache call =
      (createCachedRegex E (kindOfKey key) (call.cond.lookup "pattern") cache).1.bind
        (matchRegex E val) := by
  rw [result, eventFulfillsEventMatchCondition, h]
  dsimp only
  split <;>
    · rename_i heq
      rw [heq]
      rfl

section

omit [Zero ν] [DecidableEq ν]

/-- Where nothing is kept under the name, it is as with an empty cache. -/
theorem createCachedRegex_missing (h : ∀ name, cacheName E glob = some name → cache.get name = none)
    (kind : Kind) :
    (createCachedRegex E kind glob cache).1 = (createCachedRegex E kind glob .empty).1 := by
  unfold createCachedRegex
  cases hname : cacheName E glob with
  | none => rfl
  | some name =>
    dsimp only
    rw [h name hname, JsObject.get_empty]
    cases E.inherited (.json (.obj [])) name with
    | some value => rfl
    | none =>
      dsimp only
      unfold createRegex
      split
      · split <;> rfl
      · rfl

theorem createCachedRegex_found {name : String} {src : List CodeUnit}
    (hname : cacheName E glob = some name) (h : cache.get name = some src) (kind : Kind) :
    (createCachedRegex E kind glob cache).1 = .ok (.made src) := by
  unfold createCachedRegex
  rw [hname]
  dsimp only
  rw [h]

/-- What a processor without a history makes of a glob under whose name no object inherits
anything. -/
theorem createCachedRegex_fresh {name : String} (hname : cacheName E glob = some name)
    (hinherited : E.inherited (.json (.obj [])) name = none) (kind : Kind) :
    (createCachedRegex E kind glob .empty).1 = (createRegex E kind name glob .empty).1 := by
  unfold createCachedRegex
  rw [hname]
  dsimp only
  rw [JsObject.get_empty, hinherited]

end

/-- A glob that is a string: what is kept may be the expression for the other kind of key. -/
theorem result_eq_fresh_iff_string (hkept : Kept E cache) {call : Call ν} {key val pattern : String}
    (hfetch : fetch E call.cond call.ev = .value key val)
    (hpattern : call.cond.lookup "pattern" = some (.str pattern)) :
    result E cache call = result E .empty call ↔
      (cache.get pattern = some (source (kindOfKey key).other pattern) →
        E.compiles (source (kindOfKey key) pattern) = true ∧
          E.search (source (kindOfKey key).other pattern) (utf16 val) =
            E.search (source (kindOfKey key) pattern) (utf16 val)) := by
  rw [result_of_value hfetch, result_of_value hfetch, hpattern]
  cases hget : cache.get pattern with
  | none =>
    -- nothing is kept
    refine iff_of_true ?_ fun h => nomatch h
    rw [createCachedRegex_missing]
    intro name hname
    obtain rfl : pattern = name := Option.some.inj hname
    exact hget
  | some src =>
    obtain ⟨⟨kind, rfl, hcompiles⟩, hinherited⟩ := hkept pattern src hget
    have hname : cacheName E (some (.str pattern)) = some pattern := rfl
    rw [createCachedRegex_found hname hget, createCachedRegex_fresh hname hinherited]
    unfold createRegex
    dsimp only
    by_cases hkind : kind = kindOfKey key
    · -- it is the one that would be made
      subst hkind
      rw [if_pos hcompiles]
      refine iff_of_true rfl fun h => ⟨hcompiles, ?_⟩
      rw [← Option.some.inj h]
    · obtain rfl : kind = (kindOfKey key).other := by
        cases kind <;> cases hkey : kindOfKey key <;> rw [hkey] at hkind <;>
          first | rfl | exact absurd rfl hkind
      rw [forall_prop_of_true rfl]
      by_cases hfresh : E.compiles (source (kindOfKey key) pattern) = true
      · rw [if_pos hfresh, and_iff_right hfresh]
        exact ⟨fun h => Except.ok.inj h, fun h => congrArg Except.ok h⟩
      · rw [if_neg hfresh]
        exact iff_of_false (fun h => nomatch h) fun h => hfresh h.1

/-- **When the cache changes no outcome** of an evaluation. -/
theorem result_eq_fresh_iff (hkept : Kept E cache) (call : Call ν) :
    result E cache call = result E .empty call ↔ Undisturbed E cache call := by
  unfold Undisturbed
  cases hfetch : fetch E call.cond call.ev with
  | result r =>
    refine iff_of_true ?_ fun key val h => nomatch h
    rw [result, result, eventFulfillsEventMatchCondition, eventFulfillsEventMatchCondition,
      hfetch]
  | value key val =>
    have hvalue : ∀ P : String → String → Prop,
        (∀ key' val', Fetched.value key val = .value key' val' → P key' val') ↔ P key val := by
      intro P
      constructor
      · exact fun h => h key val rfl
      · rintro h key' val' heq
        obtain ⟨rfl, rfl⟩ := Fetched.value.inj heq
        exact h
    rw [hvalue]
    split
    · rename_i pattern hpattern
      exact result_eq_fresh_iff_string hkept hfetch hpattern
    · -- not a string: a fresh processor throws, where something is kept
      rename_i glob hglob
      rw [result_of_value hfetch, result_of_value hfetch]
      constructor
      · intro h name hname
        cases hget : cache.get name with
        | none => rfl
        | some src =>
          obtain ⟨-, hinherited⟩ := hkept name src hget
          rw [createCachedRegex_found hname hget, createCachedRegex_fresh hname hinherited] at h
          unfold createRegex at h
          split at h
          · rename_i pattern heq
            exact absurd heq (hglob pattern)
          · exact nomatch h
      · intro h
        rw [createCachedRegex_missing h]

/-- **When the cache never changes an outcome**: in a run of evaluations every one comes to what it
would come to in a fresh processor exactly when each of them is undisturbed by what is kept. -/
theorem results_fresh_iff {tr : List (Cache × Call ν)} {cache : Cache}
    (h : (processor E).Trace tr cache) :
    System.Meets (fun cache call => result E cache call = result E .empty call) tr ↔
      System.Meets (Undisturbed E) tr := by
  have hkept : ∀ p ∈ tr, Kept E p.1 :=
    (h.holdsAlong_under (C := fun _ _ => True) (I := Kept E) (P := Kept E) kept_empty
      (fun _ _ _ hI _ hstep => hI.step hstep) (fun _ hI => hI) fun _ _ => trivial).1
  unfold System.Meets
  constructor
  · intro hall p hp
    exact (result_eq_fresh_iff (hkept p hp) p.2).1 (hall p hp)
  · intro hall p hp
    exact (result_eq_fresh_iff (hkept p hp) p.2).2 (hall p hp)

end

/-! ## The name of a user -/

/-- An engine that inherits nothing, as far as the expressions of the glob `ali` go. -/
def exampleEngine : Engine ℤ Empty where
  inherited _ _ := none
  propertyName _ := none
  compiles _ := true
  search src val := src = source .body "ali" || val = utf16 "ali"
  matchInherited _ _ := .ok false

/-- A condition on the body of messages. -/
def bodyCall : Call ℤ where
  cond := [("kind", .str "event_match"), ("key", .str "content.body"), ("pattern", .str "ali")]
  ev := ⟨[("type", .str "m.room.message"), ("sender", .str "@bob:matrix.org"),
    ("content", .obj [("body", .str "ali baba")])], [], none, false⟩

/-- A condition on who sends, with the same glob. -/
def senderCall : Call ℤ where
  cond := [("kind", .str "event_match"), ("key", .str "sender"), ("pattern", .str "ali")]
  ev := ⟨[("type", .str "m.room.message"), ("sender", .str "@ali:matrix.org"),
    ("content", .obj [("body", .str "hello")])], [], none, false⟩

theorem fetch_bodyCall :
    fetch exampleEngine bodyCall.cond bodyCall.ev = .value "content.body" "ali baba" := by
  decide +kernel

theorem fetch_senderCall :
    fetch exampleEngine senderCall.cond senderCall.ev = .value "sender" "@ali:matrix.org" := by
  decide +kernel

/-- What is kept after the first of the two. -/
def cacheAfterBody : Cache := JsObject.empty.set "ali" (source .body "ali")

theorem step_bodyCall : (processor exampleEngine).step .empty bodyCall = some cacheAfterBody := by
  rw [processor]
  dsimp only
  rw [eventFulfillsEventMatchCondition, fetch_bodyCall]
  rfl

theorem get_cacheAfterBody : cacheAfterBody.get "ali" = some (source .body "ali") :=
  JsObject.get_set_self _ _ _

theorem source_body_ne_field (glob glob' : String) : source .body glob ≠ source .field glob' := by
  intro h
  have hhead : some (cu '(') = some (cu '^') := congrArg List.head? h
  exact absurd hhead (by decide)

theorem exampleEngine_search (src val : List CodeUnit) :
    exampleEngine.search src val = true ↔ src = source .body "ali" ∨ val = utf16 "ali" := by
  rw [exampleEngine, Bool.or_eq_true, decide_eq_true_iff, decide_eq_true_iff]

/-- The condition on the body, evaluated for two messages. -/
theorem results_fresh_iff_same :
    System.Meets (fun cache call => result exampleEngine cache call =
      result exampleEngine .empty call) [(.empty, bodyCall), (cacheAfterBody, bodyCall)] := by
  have hstep : (processor exampleEngine).step cacheAfterBody bodyCall = some cacheAfterBody := by
    rw [processor]
    dsimp only
    rw [eventFulfillsEventMatchCondition, fetch_bodyCall]
    rfl
  refine (results_fresh_iff ((System.Trace.start.snoc step_bodyCall).snoc hstep)).2 ?_
  intro p hp key val hfetch
  rcases List.mem_cons.1 hp with rfl | hp
  · exact fun hget => nomatch hget
  · obtain rfl := List.mem_singleton.1 hp
    obtain ⟨rfl, -⟩ := Fetched.value.inj (fetch_bodyCall.symm.trans hfetch)
    intro hget
    exact absurd (Option.some.inj (get_cacheAfterBody.symm.trans hget)) (source_body_ne_field _ _)

/-- A rule on the body is evaluated first, and one on the sender then. -/
theorem results_fresh_fails :
    result exampleEngine cacheAfterBody senderCall = .ok true ∧
      result exampleEngine .empty senderCall = .ok false ∧
      ¬∀ tr cache, (processor exampleEngine).Trace tr cache →
        System.Meets (fun cache call => result exampleEngine cache call =
          result exampleEngine .empty call) tr := by
  have hname : cacheName exampleEngine (senderCall.cond.lookup "pattern") = some "ali" := rfl
  have hused : result exampleEngine cacheAfterBody senderCall = .ok true := by
    rw [result_of_value fetch_senderCall, createCachedRegex_found hname get_cacheAfterBody]
    exact congrArg Except.ok ((exampleEngine_search _ _).2 (Or.inl rfl))
  have hfresh : result exampleEngine .empty senderCall = .ok false := by
    have hne : utf16 "@ali:matrix.org" ≠ utf16 "ali" := by decide +kernel
    rw [result_of_value fetch_senderCall, createCachedRegex_fresh hname rfl]
    refine congrArg Except.ok (Bool.eq_false_iff.2 fun hsearch => ?_)
    rcases (exampleEngine_search _ _).1 hsearch with hsrc | hval
    · exact source_body_ne_field _ _ hsrc.symm
    · exact hne hval
  refine ⟨hused, hfresh, fun h => ?_⟩
  have hstep : (processor exampleEngine).step cacheAfterBody senderCall =
      some (eventFulfillsEventMatchCondition exampleEngine senderCall.cond senderCall.ev
        cacheAfterBody).2 := rfl
  have hall := h _ _ ((System.Trace.start.snoc step_bodyCall).snoc hstep)
    (cacheAfterBody, senderCall) (List.mem_append_right _ (List.mem_singleton.2 rfl))
  dsimp only at hall
  rw [hused, hfresh] at hall
  exact nomatch hall

end MatrixSdk.PushProcessor
