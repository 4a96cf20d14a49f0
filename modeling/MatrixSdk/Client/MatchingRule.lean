/-
Which push rule an event has by the push rule specification, and when `actionsForEvent` returns the
actions of that rule.

The specification is about what a condition means, so how a glob or a name matches is a parameter
here, [`Meaning`]; for a condition to mean the same in the code its glob has to be one that becomes
the right expression. Where all rules are of this kind and none is malformed, the code finds the
rule that the specification has if senders are looked up in `user_id`, [`matchingRule_eq`]; and so
the actions are the right ones except where a sender rule decides, [`actionsForEvent_iff`].
-/
import MatrixSdk.Client.PushRules

set_option autoImplicit false

namespace MatrixSdk.PushProcessor

open MatrixSdk.Lib MatrixSdk.RegExp MatrixSdk.Utils

universe u v

variable {ν : Type u} {N : Type v}

/-! ## What a condition means -/

/-- How texts match. -/
structure Meaning where
  /-- A glob matches a value: somewhere between word boundaries of a body, or the whole field. -/
  globMatches : Kind → String → String → Bool
  /-- A name is in a body. -/
  nameMatches : String → String → Bool

/-- What is at the end of a path of members. -/
def ownPath : JsonValue ν → List String → Option (JsonValue ν)
  | value, [] => some value
  | .obj members, part :: parts =>
    match members.lookup part with
    | none => none
    | some .null => none
    | some value => ownPath value parts
  | _, _ :: _ => none

/-- Two strings that are the same. -/
def sameString : Option (JsonValue ν) → Option (JsonValue ν) → Bool
  | some (.str a), some (.str b) => a = b
  | _, _ => false

/-- The inequalities that a number of members may begin with. -/
def inequalities : List (List Char × (ℕ → ℕ → Bool)) :=
  [([], fun m n => m = n), (['=', '='], fun m n => m = n), (['<'], fun m n => m < n),
    (['>'], fun m n => n < m), (['<', '='], fun m n => m ≤ n), (['>', '='], fun m n => n ≤ m)]

/-- Whether the count of members is what `is` says: a decimal number after an inequality. -/
def specMemberCount (memberCount : ℕ) (is : String) : Bool :=
  inequalities.any fun inequality =>
    inequality.1.isPrefixOf is.toList &&
      (is.toList.drop inequality.1.length).all Char.isDigit &&
      match parseInt (is.toList.drop inequality.1.length) with
      | some rhs => inequality.2 memberCount rhs
      | none => false

section Spec

variable [Zero ν] [DecidableEq ν] (M : Meaning) (client : ClientView ν) (ev : PushEvent ν)

/-- The event, with the content and the type that were decrypted. -/
def decrypted : JsonObject ν :=
  ("content", ev.getContent) :: ((ev.getType.map fun type => ("type", type)).toList ++ ev.event)

def specField (key : String) : Option (JsonValue ν) := ownPath (.obj (decrypted ev)) (splitKey key)

/-- A glob matches a field of the event. -/
def specFieldMatches (key pattern : String) : Bool :=
  match specField ev key with
  | some (.str val) => M.globMatches (kindOfKey key) pattern val
  | _ => false

/-- Whether a condition holds. -/
def specCondition (cond : JsonObject ν) : Bool :=
  match cond.lookup "kind" with
  | some (.str kind) =>
    if kind = "event_match" then
      match cond.lookup "key", cond.lookup "pattern" with
      | some (.str key), some (.str pattern) => specFieldMatches M ev key pattern
      | _, _ => false
    else if kind = "contains_display_name" then
      match specField ev "content.body", (client.getRoom ev.getRoomId).bind RoomView.ownName with
      | some (.str body), some name => body ≠ "" && M.nameMatches name body
      | _, _ => false
    else if kind = "room_member_count" then
      match client.getRoom ev.getRoomId, cond.lookup "is" with
      | some room, some (.str is) => specMemberCount room.getJoinedMemberCount is
      | _, _ => false
    else if kind = "sender_notification_permission" then
      match client.getRoom ev.getRoomId, cond.lookup "key" with
      | some room, some (.str key) => room.mayTriggerNotifOfType (.str key) ev.getSender
      | _, _ => false
    -- a condition that is not known does not hold
    else false
  | _ => false

/-- Whether a rule of some kind is for the event, when this is its sender. -/
def specMatches (sender : Option (JsonValue ν)) (kind : RuleKind) (rule : PushRule ν) : Bool :=
  match kind with
  | .override | .underride => (rule.conditions.getD []).all (specCondition M client ev)
  | .content =>
    match rule.pattern with
    | some (.str pattern) => specFieldMatches M ev "content.body" pattern
    | _ => false
  | .room => sameString rule.rule_id ev.getRoomId
  | .sender => sameString rule.rule_id sender

/-- The first enabled rule of the kind that is for the event. -/
def matchingRuleOfKind (sender : Option (JsonValue ν)) (kindset : KindSet ν) (kind : RuleKind) :
    Option (RuleKind × PushRule ν) :=
  (((kindset kind).getD []).find? fun rule =>
    isTruthy rule.enabled && specMatches M client ev sender kind rule).map fun rule => (kind, rule)

/-- **The rule for an event**: the first enabled one that is for it, in the order of the kinds. -/
def matchingRule (sender : Option (JsonValue ν)) (kindset : KindSet ν) :
    Option (RuleKind × PushRule ν) :=
  RULEKINDS_IN_ORDER.findSome? (matchingRuleOfKind M client ev sender kindset)

end Spec

/-! ## Ordinary rules -/

section Ordinary

variable [Zero ν] [DecidableEq ν] (E : Engine ν N) (M : Meaning) (f : String → Kind)

/-- What the fields are that no value of the language has. -/
def PlainEngine : Prop :=
  ∀ name ∈ ["content", "body", "room_id", "user_id"], ∀ val, E.inherited val name = none

/-- No part of the key is the name of something that a value inherits. -/
def PlainKey (key : String) : Prop := ∀ part ∈ splitKey key, ∀ val, E.inherited val part = none

/-- The glob becomes an expression that matches what the glob means. It is used for one kind of key
only, which `f` says. -/
structure OrdinaryPattern (kind : Kind) (pattern : String) : Prop where
  kind_eq : f pattern = kind
  notInherited : E.inherited (.json (.obj [])) pattern = none
  compiles : E.compiles (source kind pattern) = true
  search_eq : ∀ val, E.search (source kind pattern) (utf16 val) = M.globMatches kind pattern val

/-- A condition on a field has a key and a glob, and no value that the field is to be. -/
def OrdinaryEventMatch (cond : JsonObject ν) : Prop :=
  ∃ key pattern, cond.lookup "key" = some (.str key) ∧ key ≠ "" ∧ PlainKey E key ∧
    cond.lookup "pattern" = some (.str pattern) ∧ OrdinaryPattern E M f (kindOfKey key) pattern ∧
    isTruthy (cond.lookup "value") = false

/-- A condition has what its kind is to have. -/
structure OrdinaryCondition (cond : JsonObject ν) (kind : String) : Prop where
  kind_eq : cond.lookup "kind" = some (.str kind)
  eventMatch : kind = "event_match" → OrdinaryEventMatch E M f cond
  displayName : kind = "contains_display_name" → ∀ name body,
    E.compiles (nameSource name) = true ∧
      E.search (nameSource name) (utf16 body) = M.nameMatches name body
  memberCount : kind = "room_member_count" →
    cond.lookup "is" = none ∨ ∃ is, cond.lookup "is" = some (.str is)
  senderPermission : kind = "sender_notification_permission" →
    ∃ key, cond.lookup "key" = some (.str key) ∧ key ≠ ""
  unknown : kind ∉ ["event_match", "contains_display_name", "room_member_count",
    "sender_notification_permission"] → E.inherited (.json (.obj [])) kind = none

/-- A rule has what its kind is to have. -/
def OrdinaryRule (kind : RuleKind) (rule : PushRule ν) : Prop :=
  match kind with
  | .override | .underride =>
    ∃ conds, rule.conditions = some conds ∧
      ∀ cond ∈ conds, ∃ kind, OrdinaryCondition E M f cond kind
  | .content =>
    ∃ pattern, rule.pattern = some (.str pattern) ∧ pattern ≠ "" ∧
      OrdinaryPattern E M f .body pattern
  | .room | .sender => rule.rule_id ≠ some (.str "")

/-- Every enabled rule is ordinary. -/
def OrdinaryRules (kindset : KindSet ν) : Prop :=
  ∀ kind ruleset, kindset kind = some ruleset → ∀ rule ∈ ruleset, isTruthy rule.enabled = true →
    OrdinaryRule E M f kind rule

/-- The event has a type, and an encrypted one is not replaced or redacted locally. -/
structure OrdinaryEvent (ev : PushEvent ν) : Prop where
  type : ∃ type, ev.getType = some (.str type)
  encrypted : ev.isEncrypted = true → ev.replacing = none ∧ ev.locallyRedacted = false

/-- Every expression that is kept is for the kind of key that its glob is used for. -/
def KeptFor (cache : Cache) : Prop :=
  ∀ pattern src, cache.get pattern = some src → src = source (f pattern) pattern

end Ordinary

/-! ## Fields -/

section Proofs

variable {E : Engine ν N} {M : Meaning} {f : String → Kind} {value : JsonValue ν} {ev : PushEvent ν}
  {cache : Cache} {cond : JsonObject ν}

theorem follow_cons (h : value ≠ .null) (part : String) (parts : List String) :
    follow E (some (.json value)) (part :: parts) =
      if isNullOrUndefined (getProperty E (.json value) part) then .ok (some (.json .null))
      else follow E (getProperty E (.json value) part) parts := by
  cases value with
  | null => exact absurd rfl h
  | _ => rw [follow]; exact fun h => nomatch h

/-- Following a path comes to a string just where the path of members ends in it. -/
theorem follow_own (hvalue : value ≠ .null) {parts : List String}
    (hparts : ∀ part ∈ parts, ∀ val, E.inherited val part = none) :
    ∃ w, follow E (some (.json value)) parts = .ok w ∧
      ∀ s, w = some (.json (.str s)) ↔ ownPath value parts = some (.str s) := by
  induction parts generalizing value with
  | nil =>
    refine ⟨some (.json value), rfl, fun s => ?_⟩
    rw [ownPath]
    constructor
    · intro h
      rw [Val.json.inj (Option.some.inj h)]
    · intro h
      rw [Option.some.inj h]
  | cons part parts ih =>
    have hnone := hparts part List.mem_cons_self
    rw [follow_cons hvalue]
    -- the values that have no members have nothing under the name
    have hother : getProperty E (.json value) part = none → ownPath value (part :: parts) = none →
        ∃ w, (if isNullOrUndefined (getProperty E (.json value) part) then
            Except.ok (some (.json .null))
          else follow E (getProperty E (.json value) part) parts) = .ok w ∧
          ∀ s, w = some (.json (.str s)) ↔ ownPath value (part :: parts) = some (.str s) := by
      intro hget hpath
      refine ⟨some (.json .null), by rw [hget]; rfl, fun s => ?_⟩
      rw [hpath]
      exact iff_of_false (fun h => nomatch h) fun h => nomatch h
    cases value with
    | null => exact absurd rfl hvalue
    | bool b => exact hother (hnone _) rfl
    | num n => exact hother (hnone _) rfl
    | str s => exact hother (hnone _) rfl
    | arr elements => exact hother (hnone _) rfl
    | obj members =>
      cases hlookup : members.lookup part with
      | none =>
        refine hother ?_ ?_
        · rw [getProperty, hlookup]
          exact hnone _
        · rw [ownPath, hlookup]
      | some member =>
        have hget : getProperty E (.json (.obj members)) part = some (.json member) := by
          rw [getProperty, hlookup]
        rw [hget]
        by_cases hnull : member = .null
        · refine ⟨some (.json .null), by rw [hnull]; rfl, fun s => ?_⟩
          rw [ownPath, hlookup, hnull]
          exact iff_of_false (fun h => nomatch h) fun h => nomatch h
        · have hpath : ownPath (.obj members) (part :: parts) = ownPath member parts := by
            rw [ownPath, hlookup]
            cases member with
            | null => exact absurd rfl hnull
            | _ => rfl
          have hnn : isNullOrUndefined (some (.json member : Val ν N)) = false := by
            cases member with
            | null => exact absurd rfl hnull
            | _ => rfl
          rw [hpath, hnn, if_neg Bool.false_ne_true]
          exact ih hnull fun p hp => hparts p (List.mem_cons_of_mem part hp)

variable [Zero ν] [DecidableEq ν]

theorem ne_null_of_isTruthy (h : isTruthy (some value) = true) : value ≠ .null := by
  rintro rfl
  exact absurd h Bool.false_ne_true

theorem getOriginalContent_ne_null (ev : PushEvent ν) : ev.getOriginalContent ≠ .null := by
  unfold PushEvent.getOriginalContent
  split
  · exact fun h => nomatch h
  · dsimp only
    split
    · rename_i htruthy
      cases hcontent : jsOr (ev.clearEvent.lookup "content") (ev.event.lookup "content") with
      | none => exact fun h => nomatch h
      | some content =>
        rw [hcontent] at htruthy
        exact ne_null_of_isTruthy htruthy
    · exact fun h => nomatch h

theorem getContent_ne_null (ev : PushEvent ν) : ev.getContent ≠ .null := by
  unfold PushEvent.getContent
  split
  · exact fun h => nomatch h
  · split
    · rename_i newContent _
      split
      · rename_i htruthy
        cases newContent with
        | none => exact fun h => nomatch h
        | some content => exact ne_null_of_isTruthy htruthy
      · exact fun h => nomatch h
    · exact getOriginalContent_ne_null ev

theorem lookup_decrypted_content (ev : PushEvent ν) :
    (decrypted ev).lookup "content" = some ev.getContent := by
  rw [decrypted, List.lookup_cons, beq_self_eq_true]

theorem lookup_decrypted_type {type : JsonValue ν} (h : ev.getType = some type) :
    (decrypted ev).lookup "type" = some type := by
  rw [decrypted, h, List.lookup_cons, beq_eq_false_iff_ne.2 (by decide)]
  rfl

theorem lookup_decrypted_other (ev : PushEvent ν) {name : String} (hcontent : name ≠ "content")
    (htype : name ≠ "type") : (decrypted ev).lookup name = ev.event.lookup name := by
  rw [decrypted, List.lookup_cons, beq_eq_false_iff_ne.2 hcontent]
  cases ev.getType with
  | none => rfl
  | some type =>
    rw [Option.map_some, Option.toList_some, List.singleton_append, List.lookup_cons,
      beq_eq_false_iff_ne.2 htype]

omit [Zero ν] [DecidableEq ν] in
theorem ownPath_obj_cons {members : JsonObject ν} {part : String}
    (h : members.lookup part = some value) (hvalue : value ≠ .null) (parts : List String) :
    ownPath (.obj members) (part :: parts) = ownPath value parts := by
  rw [ownPath, h]
  cases value with
  | null => exact absurd rfl hvalue
  | _ => rfl

/-- Where no part of a key is inherited, its value is the string that the decrypted event has
there. -/
theorem valueForDottedKey_own (hev : ∃ type, ev.getType = some (.str type)) {key : String}
    (hkey : PlainKey E key) :
    ∃ w, valueForDottedKey E key ev = .ok w ∧
      ∀ s, w = some (.json (.str s)) ↔ specField ev key = some (.str s) := by
  rw [valueForDottedKey, specField]
  rw [PlainKey] at hkey
  cases hsplit : splitKey key with
  | nil =>
    refine ⟨none, rfl, fun s => iff_of_false (fun h => nomatch h) fun h => ?_⟩
    rw [ownPath] at h
    exact nomatch h
  | cons firstPart parts =>
    rw [hsplit] at hkey
    have hparts : ∀ part ∈ parts, ∀ val, E.inherited val part = none :=
      fun part hpart => hkey part (List.mem_cons_of_mem firstPart hpart)
    dsimp only
    by_cases hcontent : firstPart = "content"
    · rw [if_pos hcontent, hcontent,
        ownPath_obj_cons (lookup_decrypted_content ev) (getContent_ne_null ev)]
      exact follow_own (getContent_ne_null ev) hparts
    · rw [if_neg hcontent]
      by_cases htype : firstPart = "type"
      · obtain ⟨type, htypeEq⟩ := hev
        have hnull : (JsonValue.str type : JsonValue ν) ≠ .null := fun h => nomatch h
        rw [if_pos htype, htype, ownPath_obj_cons (lookup_decrypted_type htypeEq) hnull, htypeEq]
        exact follow_own hnull hparts
      · -- any other field is one of the raw event
        rw [if_neg htype]
        have hpath : ownPath (.obj (decrypted ev)) (firstPart :: parts) =
            ownPath (.obj ev.event) (firstPart :: parts) := by
          rw [ownPath, ownPath, lookup_decrypted_other ev hcontent htype]
        have hnull : (JsonValue.obj ev.event : JsonValue ν) ≠ .null := fun h => nomatch h
        rw [hpath]
        exact follow_own hnull hkey

/-! ## Counting members -/

theorem isInequality_of_isDigit {c : Char} (h : c.isDigit = true) : isInequality c = false := by
  by_contra hnot
  rw [Bool.not_eq_false, isInequality, Bool.or_eq_true, Bool.or_eq_true, decide_eq_true_iff,
    decide_eq_true_iff, decide_eq_true_iff] at hnot
  rcases hnot with (rfl | rfl) | rfl <;> exact absurd h (by decide)

/-- Digits follow an inequality only where the whole of it is taken. -/
theorem prefix_digits {ineq chars : List Char} (hineq : ineq.all isInequality = true) :
    (ineq.isPrefixOf chars && (chars.drop ineq.length).all Char.isDigit) =
      (decide (ineq = chars.takeWhile isInequality) &&
        (chars.dropWhile isInequality).all Char.isDigit) := by
  rw [Bool.eq_iff_iff, Bool.and_eq_true, Bool.and_eq_true, decide_eq_true_iff,
    List.isPrefixOf_iff_prefix]
  have htake : ∀ digits : List Char, digits.all Char.isDigit = true →
      (ineq ++ digits).takeWhile isInequality = ineq ∧
        (ineq ++ digits).dropWhile isInequality = digits := by
    intro digits hdigits
    have hmem : ∀ c ∈ ineq, isInequality c = true := List.all_eq_true.1 hineq
    rw [List.takeWhile_append_of_pos hmem, List.dropWhile_append_of_pos hmem]
    cases digits with
    | nil => exact ⟨List.append_nil _, rfl⟩
    | cons c digits =>
      have hc := isInequality_of_isDigit (List.all_eq_true.1 hdigits c List.mem_cons_self)
      rw [List.takeWhile_cons_of_neg (by rw [hc]; exact Bool.false_ne_true),
        List.dropWhile_cons_of_neg (by rw [hc]; exact Bool.false_ne_true)]
      exact ⟨List.append_nil _, rfl⟩
  constructor
  · rintro ⟨⟨digits, rfl⟩, hdigits⟩
    rw [List.drop_left] at hdigits
    obtain ⟨htaken, hdropped⟩ := htake digits hdigits
    rw [htaken, hdropped]
    exact ⟨rfl, hdigits⟩
  · rintro ⟨heq, hdigits⟩
    have hsplit : ineq ++ chars.dropWhile isInequality = chars := by
      rw [heq]
      exact List.takeWhile_append_dropWhile
    refine ⟨⟨_, hsplit⟩, ?_⟩
    rw [← hsplit, List.drop_left]
    exact hdigits

/-- The count is compared as it is to be. -/
theorem compareMemberCount_eq (memberCount : ℕ) (is : String) :
    compareMemberCount memberCount is = specMemberCount memberCount is := by
  have hterm : ∀ ineq : List Char, ineq.all isInequality = true → ∀ cmp : ℕ → ℕ → Bool,
      (ineq.isPrefixOf is.toList && (is.toList.drop ineq.length).all Char.isDigit &&
        match parseInt (is.toList.drop ineq.length) with
        | some rhs => cmp memberCount rhs
        | none => false) =
      (decide (ineq = is.toList.takeWhile isInequality) &&
        (is.toList.dropWhile isInequality).all Char.isDigit &&
        match parseInt (is.toList.dropWhile isInequality) with
        | some rhs => cmp memberCount rhs
        | none => false) := by
    intro ineq hineq cmp
    rw [prefix_digits hineq]
    by_cases heq : ineq = is.toList.takeWhile isInequality
    · have hdrop : is.toList.drop ineq.length = is.toList.dropWhile isInequality := by
        conv_lhs => rw [← List.takeWhile_append_dropWhile (p := isInequality) (l := is.toList), heq]
        exact List.drop_left
      rw [hdrop]
    · rw [decide_eq_false heq, Bool.false_and, Bool.false_and, Bool.false_and]
  rw [specMemberCount, inequalities, List.any_cons, List.any_cons, List.any_cons, List.any_cons,
    List.any_cons, List.any_cons, List.any_nil, hterm _ (by decide), hterm _ (by decide),
    hterm _ (by decide), hterm _ (by decide), hterm _ (by decide), hterm _ (by decide)]
  unfold compareMemberCount
  generalize is.toList.takeWhile isInequality = ineq
  generalize is.toList.dropWhile isInequality = digits
  by_cases hdigits : digits.all Char.isDigit = true
  · rw [if_pos hdigits, hdigits]
    cases parseInt digits with
    | none => simp only [Bool.and_false, Bool.or_false]
    | some rhs =>
      -- at most one of the inequalities is the one that is there
      dsimp only
      by_cases hequal : ineq = [] ∨ ineq = ['=', '=']
      · rw [if_pos hequal]
        rcases hequal with rfl | rfl <;> simp
      by_cases hless : ineq = ['<']
      · subst hless
        simp
      by_cases hgreater : ineq = ['>']
      · subst hgreater
        simp
      by_cases hle : ineq = ['<', '=']
      · subst hle
        simp
      by_cases hge : ineq = ['>', '=']
      · subst hge
        simp
      rw [if_neg hequal, if_neg hless, if_neg hgreater, if_neg hle, if_neg hge]
      rw [not_or] at hequal
      rw [decide_eq_false (Ne.symm hequal.1), decide_eq_false (Ne.symm hequal.2),
        decide_eq_false (Ne.symm hless), decide_eq_false (Ne.symm hgreater),
        decide_eq_false (Ne.symm hle), decide_eq_false (Ne.symm hge)]
      rfl
  · rw [if_neg hdigits]
    rw [Bool.not_eq_true] at hdigits
    rw [hdigits]
    simp only [Bool.and_false, Bool.false_and, Bool.or_false]

/-! ## Conditions that are ordinary -/

omit [Zero ν] [DecidableEq ν] in
/-- The expression for a glob is the one for the kind of key that the glob is used for. -/
theorem KeptFor.createCachedRegex (hkept : KeptFor f cache) {kind : Kind} {pattern : String}
    (hpattern : OrdinaryPattern E M f kind pattern) :
    ∃ cache', KeptFor f cache' ∧
      createCachedRegex E kind (some (.str pattern)) cache =
        (.ok (.made (source kind pattern)), cache') := by
  unfold PushProcessor.createCachedRegex
  rw [show cacheName E (some (.str pattern)) = some pattern from rfl]
  dsimp only
  cases hget : cache.get pattern with
  | some src =>
    refine ⟨cache, hkept, ?_⟩
    rw [hkept pattern src hget, hpattern.kind_eq]
  | none =>
    refine ⟨cache.set pattern (source kind pattern), ?_, ?_⟩
    · intro name src hname
      rw [JsObject.get_set] at hname
      by_cases heq : name = pattern
      · rw [if_pos heq] at hname
        rw [← Option.some.inj hname, heq, hpattern.kind_eq]
      · rw [if_neg heq] at hname
        exact hkept name src hname
    · rw [hpattern.notInherited]
      rw [createRegex, if_pos hpattern.compiles]

/-- A field is fetched for an expression where the event has a string. -/
theorem fetch_ordinary (hev : ∃ type, ev.getType = some (.str type)) {key : String}
    (hkey : cond.lookup "key" = some (.str key)) (hne : key ≠ "") (hplain : PlainKey E key)
    (hvalue : isTruthy (cond.lookup "value") = false) :
    fetch E cond ev =
      match specField ev key with
      | some (.str val) => .value key val
      | _ => .result (.ok false) := by
  have hright : (¬ ∃ s, specField ev key = some (.str s)) → (match specField ev key with
      | some (.str val) => Fetched.value key val
      | _ => .result (.ok false)) = .result (.ok false) := by
    intro hstr
    split
    · rename_i val heq
      exact absurd ⟨val, heq⟩ hstr
    · rfl
  obtain ⟨w, hw, hiff⟩ := valueForDottedKey_own hev hplain
  have htruthy : isTruthy (some (.str key : JsonValue ν)) = true := decide_eq_true hne
  rw [fetch, hkey, htruthy]
  dsimp only
  rw [if_neg (by decide), hw]
  by_cases hstr : ∃ s, specField ev key = some (.str s)
  · obtain ⟨s, hs⟩ := hstr
    rw [(hiff s).2 hs, hs]
    dsimp only
    -- a value of the condition would have to be truthy
    split
    · rename_i value heq
      rw [heq] at hvalue
      rw [if_neg (of_decide_eq_false hvalue)]
    · rw [hvalue, if_neg Bool.false_ne_true]
  · have hnone : ∀ s, w ≠ some (.json (.str s)) := fun s h => hstr ⟨s, (hiff s).1 h⟩
    rw [hright hstr]
    split
    · rename_i heq
      cases heq
    · rename_i val heq
      exact absurd (Except.ok.inj heq) (hnone val)
    · rfl

/-- A condition on a field holds just as it is to. -/
theorem eventMatch_ordinary (hev : ∃ type, ev.getType = some (.str type)) {key pattern : String}
    (hkey : cond.lookup "key" = some (.str key)) (hne : key ≠ "") (hplain : PlainKey E key)
    (hpattern : cond.lookup "pattern" = some (.str pattern))
    (hordinary : OrdinaryPattern E M f (kindOfKey key) pattern)
    (hvalue : isTruthy (cond.lookup "value") = false) (hkept : KeptFor f cache) :
    ∃ cache', KeptFor f cache' ∧
      eventFulfillsEventMatchCondition E cond ev cache =
        (.ok (specFieldMatches M ev key pattern), cache') := by
  rw [eventFulfillsEventMatchCondition, fetch_ordinary hev hkey hne hplain hvalue, specFieldMatches]
  by_cases hstr : ∃ s, specField ev key = some (.str s)
  · obtain ⟨s, hs⟩ := hstr
    obtain ⟨cache', hkept', hregex⟩ := hkept.createCachedRegex hordinary
    refine ⟨cache', hkept', ?_⟩
    rw [hs]
    dsimp only
    rw [hpattern, hregex]
    dsimp only
    rw [matchRegex, hordinary.search_eq]
  · refine ⟨cache, hkept, ?_⟩
    cases hfield : specField ev key with
    | none => rfl
    | some value =>
      cases value with
      | str s => exact absurd ⟨s, hfield⟩ hstr
      | _ => rfl

/-- What is searched for the name is the content of the event. -/
theorem displayContent_eq (hev : OrdinaryEvent ev) : displayContent ev = ev.getContent := by
  rw [displayContent]
  by_cases hencrypted : ev.isEncrypted = true
  · obtain ⟨hreplacing, hredacted⟩ := hev.encrypted hencrypted
    rw [if_pos hencrypted, PushEvent.getClearContent]
    split
    · rename_i htruthy
      have hredacted' : ¬ev.locallyRedacted = true := by
        rw [hredacted]
        exact Bool.false_ne_true
      rw [PushEvent.getContent, if_neg hredacted', hreplacing]
      rw [PushEvent.getOriginalContent, if_neg hredacted', jsOr, if_pos htruthy, if_pos htruthy]
      cases hclear : ev.clearEvent.lookup "content" with
      | none =>
        rw [hclear] at htruthy
        exact absurd htruthy Bool.false_ne_true
      | some content => rfl
    · rfl
  · rw [if_neg hencrypted]

/-- The body of the content is the field that a condition on it would be about. -/
theorem getProperty_body (hE : PlainEngine E) (s : String) :
    getProperty E (.json ev.getContent) "body" = some (.json (.str s)) ↔
      specField ev "content.body" = some (.str s) := by
  have hsplit : splitKey "content.body" = ["content", "body"] := by decide +kernel
  have hbody : ∀ part ∈ ["body"], ∀ val, E.inherited val part = none := by
    intro part hpart
    rw [List.mem_singleton.1 hpart]
    exact hE "body" (by decide)
  obtain ⟨w, hw, hiff⟩ := follow_own (E := E) (getContent_ne_null ev) hbody
  rw [specField, hsplit, ownPath_obj_cons (lookup_decrypted_content ev) (getContent_ne_null ev),
    ← hiff s]
  rw [follow_cons (getContent_ne_null ev)] at hw
  by_cases hnull :
      isNullOrUndefined (getProperty E (.json ev.getContent : Val ν N) "body") = true
  · rw [if_pos hnull] at hw
    obtain rfl := Except.ok.inj hw
    refine iff_of_false (fun h => ?_) fun h => nomatch h
    rw [h] at hnull
    exact Bool.noConfusion hnull
  · rw [if_neg hnull] at hw
    rw [Except.ok.inj hw]

/-- Whether the name of the user is in the body. -/
theorem displayName_ordinary (client : ClientView ν) (hE : PlainEngine E) (hev : OrdinaryEvent ev)
    (hname : ∀ name body, E.compiles (nameSource name) = true ∧
      E.search (nameSource name) (utf16 body) = M.nameMatches name body) :
    eventFulfillsDisplayNameCondition E client ev =
      .ok (match specField ev "content.body",
          (client.getRoom ev.getRoomId).bind RoomView.ownName with
        | some (.str body), some name => body ≠ "" && M.nameMatches name body
        | _, _ => false) := by
  rw [eventFulfillsDisplayNameCondition, displayContent_eq hev]
  by_cases hstr : ∃ s, specField ev "content.body" = some (.str s)
  · obtain ⟨body, hbody⟩ := hstr
    rw [(getProperty_body hE body).2 hbody, hbody]
    dsimp only
    by_cases hempty : body = ""
    · rw [if_pos hempty, hempty]
      cases (client.getRoom ev.getRoomId).bind RoomView.ownName <;> rfl
    · rw [if_neg hempty]
      cases (client.getRoom ev.getRoomId).bind RoomView.ownName with
      | none => rfl
      | some name =>
        dsimp only
        rw [if_pos (hname name body).1, (hname name body).2, decide_eq_true hempty, Bool.true_and]
  · have hleft : ∀ s, getProperty E (.json ev.getContent) "body" ≠ some (.json (.str s)) :=
      fun s h => hstr ⟨s, (getProperty_body hE s).1 h⟩
    split
    · rename_i body heq
      exact absurd heq (hleft body)
    · cases hfield : specField ev "content.body" with
      | none => rfl
      | some value =>
        cases value with
        | str s => exact absurd ⟨s, hfield⟩ hstr
        | _ => rfl

theorem memberCount_ordinary (client : ClientView ν) (ev : PushEvent ν)
    (his : cond.lookup "is" = none ∨ ∃ is, cond.lookup "is" = some (.str is)) :
    eventFulfillsRoomMemberCountCondition client cond ev =
      .ok (match client.getRoom ev.getRoomId, cond.lookup "is" with
        | some room, some (.str is) => specMemberCount room.getJoinedMemberCount is
        | _, _ => false) := by
  rw [eventFulfillsRoomMemberCountCondition]
  rcases his with his | ⟨is, his⟩
  · rw [his]
    cases client.getRoom ev.getRoomId <;> rfl
  · rw [his]
    cases client.getRoom ev.getRoomId with
    | none =>
      rw [ite_self]
    | some room =>
      dsimp only
      by_cases hempty : is = ""
      · -- without digits there is no number
        rw [hempty]
        rfl
      · rw [if_neg, compareMemberCount_eq]
        rw [show isTruthy (some (.str is : JsonValue ν)) = true from decide_eq_true hempty]
        decide

theorem senderPermission_ordinary (client : ClientView ν) (ev : PushEvent ν)
    (hkey : ∃ key, cond.lookup "key" = some (.str key) ∧ key ≠ "") :
    eventFulfillsSenderNotifPermCondition client cond ev =
      match client.getRoom ev.getRoomId, cond.lookup "key" with
      | some room, some (.str key) => room.mayTriggerNotifOfType (.str key) ev.getSender
      | _, _ => false := by
  obtain ⟨key, hkey, hne⟩ := hkey
  have htruthy : isTruthy (some (.str key : JsonValue ν)) = true := decide_eq_true hne
  rw [eventFulfillsSenderNotifPermCondition, hkey]
  dsimp only
  rw [htruthy, if_neg (by decide)]
  cases client.getRoom ev.getRoomId <;> rfl

/-- **An ordinary condition** holds just as it is to. -/
theorem condition_ordinary (callInherited : CallInherited ν N) (client : ClientView ν)
    (hE : PlainEngine E) (hev : OrdinaryEvent ev) {kind : String}
    (h : OrdinaryCondition E M f cond kind) (hkept : KeptFor f cache) :
    ∃ cache', KeptFor f cache' ∧
      eventFulfillsCondition E callInherited client cond ev cache =
        (.ok (specCondition M client ev cond), cache') := by
  rw [eventFulfillsCondition, specCondition, h.kind_eq]
  rw [show cacheName E (some (.str kind)) = some kind from rfl]
  dsimp only
  by_cases hmatch : kind = "event_match"
  · obtain ⟨key, pattern, hkey, hne, hplain, hpattern, hordinary, hvalue⟩ := h.eventMatch hmatch
    rw [if_pos hmatch, if_pos hmatch, hkey, hpattern]
    exact eventMatch_ordinary hev.type hkey hne hplain hpattern hordinary hvalue hkept
  rw [if_neg hmatch, if_neg hmatch]
  -- no other condition uses the cache
  refine ⟨cache, hkept, ?_⟩
  by_cases hname : kind = "contains_display_name"
  · rw [if_pos hname, if_pos hname, displayName_ordinary client hE hev (h.displayName hname)]
  rw [if_neg hname, if_neg hname]
  by_cases hcount : kind = "room_member_count"
  · rw [if_pos hcount, if_pos hcount, memberCount_ordinary client ev (h.memberCount hcount)]
  rw [if_neg hcount, if_neg hcount]
  by_cases hpermission : kind = "sender_notification_permission"
  · rw [if_pos hpermission, if_pos hpermission,
      senderPermission_ordinary client ev (h.senderPermission hpermission)]
  rw [if_neg hpermission, if_neg hpermission, h.unknown]
  intro hmem
  simp only [List.mem_cons, List.not_mem_nil, or_false] at hmem
  rcases hmem with hmem | hmem | hmem | hmem
  · exact hmatch hmem
  · exact hname hmem
  · exact hcount hmem
  · exact hpermission hmem

/-! ## Rules that are ordinary -/

/-- All conditions are evaluated, and together they hold just when all do. -/
theorem ruleMatchesLoop_ordinary (callInherited : CallInherited ν N) (client : ClientView ν)
    (hE : PlainEngine E) (hev : OrdinaryEvent ev) {conds : List (JsonObject ν)}
    (h : ∀ cond ∈ conds, ∃ kind, OrdinaryCondition E M f cond kind) (ret : Bool)
    (hkept : KeptFor f cache) :
    ∃ cache', KeptFor f cache' ∧
      ruleMatchesLoop E callInherited client ev conds ret cache =
        (.ok (ret && conds.all (specCondition M client ev)), cache') := by
  induction conds generalizing ret cache with
  | nil => exact ⟨cache, hkept, by rw [ruleMatchesLoop, List.all_nil, Bool.and_true]⟩
  | cons cond conds ih =>
    obtain ⟨kind, hcond⟩ := h cond List.mem_cons_self
    obtain ⟨cache₁, hkept₁, hfulfilled⟩ :=
      condition_ordinary callInherited client hE hev hcond hkept
    obtain ⟨cache₂, hkept₂, hrest⟩ := ih (fun c hc => h c (List.mem_cons_of_mem cond hc))
      (ret && specCondition M client ev cond) hkept₁
    refine ⟨cache₂, hkept₂, ?_⟩
    rw [ruleMatchesLoop, hfulfilled]
    dsimp only
    rw [hrest, List.all_cons, Bool.and_assoc]

/-- A condition that a field of the raw event is some value. -/
theorem rawField_ordinary (callInherited : CallInherited ν N) (client : ClientView ν)
    (hE : PlainEngine E) (ev : PushEvent ν) {name : String} (hname : name ∈ ["room_id", "user_id"])
    (hvalue : isTruthy (some value) = true) (cache : Cache) :
    ruleMatchesEvent E callInherited client (some [[("kind", .str "event_match"),
        ("key", .str name), ("value", value)]]) ev cache =
      (.ok (sameString (some value) (ev.event.lookup name)), cache) := by
  have hsplit : ∀ name ∈ ["room_id", "user_id"], splitKey name = [name] ∧ name ≠ "content" ∧
      name ≠ "type" ∧ name ≠ "" ∧ name ∈ ["content", "body", "room_id", "user_id"] := by
    decide +kernel
  obtain ⟨hsplit, hcontent, htype, hne, hmem⟩ := hsplit name hname
  have hfetch : fetch E [("kind", .str "event_match"), ("key", .str name), ("value", value)] ev =
      .result (.ok (sameString (some value) (ev.event.lookup name))) := by
    have htruthy : isTruthy (some (.str name : JsonValue ν)) = true := decide_eq_true hne
    have hkey : List.lookup "key" [("kind", .str "event_match"), ("key", .str name),
        ("value", value)] = some (.str name : JsonValue ν) := rfl
    have hval : List.lookup "value" [("kind", (.str "event_match" : JsonValue ν)),
        ("key", .str name), ("value", value)] = some value := rfl
    rw [fetch, hkey, hval, htruthy, if_neg (by decide)]
    dsimp only
    have hnull : (JsonValue.obj ev.event : JsonValue ν) ≠ .null := fun h => nomatch h
    have hparts : ∀ part ∈ [name], ∀ val, E.inherited val part = none := by
      intro part hpart
      rw [List.mem_singleton.1 hpart]
      exact hE name hmem
    obtain ⟨w, hw, hiff⟩ := follow_own (E := E) hnull hparts
    have hfield : ∀ s, w = some (.json (.str s)) ↔ ev.event.lookup name = some (.str s) := by
      intro s
      rw [hiff, ownPath]
      cases ev.event.lookup name with
      | none => exact Iff.rfl
      | some field =>
        cases field with
        | null => exact iff_of_false (fun h => nomatch h) fun h => nomatch h
        | _ => exact Iff.rfl
    rw [valueForDottedKey, hsplit]
    dsimp only
    rw [if_neg hcontent, if_neg htype, hw]
    by_cases hstr : ∃ s, ev.event.lookup name = some (.str s)
    · obtain ⟨s, hs⟩ := hstr
      rw [(hfield s).2 hs, hs]
      -- the two are compared as they are
      cases value with
      | str r => exact if_pos (of_decide_eq_true hvalue)
      | _ => exact if_pos hvalue
    · have hsame : sameString (some value) (ev.event.lookup name) = false := by
        unfold sameString
        split
        · rename_i heq
          exact absurd ⟨_, heq⟩ hstr
        · rfl
      rw [hsame]
      split
      · rename_i heq
        exact nomatch heq
      · rename_i val heq
        exact absurd ⟨val, (hfield val).1 (Except.ok.inj heq)⟩ hstr
      · rfl
  rw [ruleMatchesEvent, ruleMatchesLoop, eventFulfillsCondition]
  rw [show cacheName E (List.lookup "kind" [("kind", (.str "event_match" : JsonValue ν)),
    ("key", .str name), ("value", value)]) = some "event_match" from rfl]
  dsimp only
  rw [if_pos rfl, eventFulfillsEventMatchCondition, hfetch]
  dsimp only
  rw [ruleMatchesLoop, Bool.true_and]

/-- **An ordinary rule** is passed over, or is found to be for the event, just as it is to be; but
its sender is looked up in `user_id`. -/
theorem rule_ordinary (callInherited : CallInherited ν N) (client : ClientView ν)
    (hE : PlainEngine E) (hev : OrdinaryEvent ev) {kind : RuleKind} {rule : PushRule ν}
    (h : OrdinaryRule E M f kind rule) (hkept : KeptFor f cache) :
    match templateRuleToRaw kind rule with
    | none => specMatches M client ev (ev.event.lookup "user_id") kind rule = false
    | some conditions => ∃ cache', KeptFor f cache' ∧
        ruleMatchesEvent E callInherited client conditions ev cache =
          (.ok (specMatches M client ev (ev.event.lookup "user_id") kind rule), cache') := by
  -- the rules with conditions of their own
  have hown : (∃ conds, rule.conditions = some conds ∧
      ∀ cond ∈ conds, ∃ kind, OrdinaryCondition E M f cond kind) → ∃ cache', KeptFor f cache' ∧
        ruleMatchesEvent E callInherited client rule.conditions ev cache =
          (.ok ((rule.conditions.getD []).all (specCondition M client ev)), cache') := by
    rintro ⟨conds, hconds, hordinary⟩
    obtain ⟨cache', hkept', hloop⟩ :=
      ruleMatchesLoop_ordinary callInherited client hE hev hordinary true hkept
    refine ⟨cache', hkept', ?_⟩
    rw [hconds, ruleMatchesEvent, hloop, Bool.true_and]
    rfl
  -- those about a field of the raw event
  have hraw : ∀ name ∈ ["room_id", "user_id"], rule.rule_id ≠ some (.str "") →
      match (if !isTruthy rule.rule_id then none
        else some (some [[("kind", .str "event_match"), ("key", .str name),
          ("value", rule.rule_id.getD .null)]]) : Option (Option (List (JsonObject ν)))) with
      | none => sameString rule.rule_id (ev.event.lookup name) = false
      | some conditions => ∃ cache', KeptFor f cache' ∧
          ruleMatchesEvent E callInherited client conditions ev cache =
            (.ok (sameString rule.rule_id (ev.event.lookup name)), cache') := by
    intro name hname hempty
    by_cases htruthy : isTruthy rule.rule_id = true
    · rw [htruthy, if_neg (by decide)]
      obtain ⟨id, hid⟩ : ∃ id, rule.rule_id = some id := by
        cases hid : rule.rule_id with
        | none =>
          rw [hid] at htruthy
          exact absurd htruthy Bool.false_ne_true
        | some id => exact ⟨id, rfl⟩
      rw [hid] at htruthy ⊢
      exact ⟨cache, hkept, rawField_ordinary callInherited client hE ev hname htruthy cache⟩
    · rw [Bool.not_eq_true] at htruthy
      rw [htruthy, if_pos (by decide)]
      dsimp only
      unfold sameString
      split
      · rename_i id _ hid _
        rw [hid] at htruthy hempty
        rw [not_not.1 (of_decide_eq_false htruthy)] at hempty
        exact absurd rfl hempty
      · rfl
  cases kind with
  | override => exact hown h
  | underride => exact hown h
  | room => exact hraw "room_id" (by decide) h
  | sender => exact hraw "user_id" (by decide) h
  | content =>
    obtain ⟨pattern, hpattern, hne, hordinary⟩ := h
    have htruthy : isTruthy (some (.str pattern : JsonValue ν)) = true := decide_eq_true hne
    have hplain : PlainKey E "content.body" := by
      have hmem : ∀ part ∈ splitKey "content.body",
          part ∈ ["content", "body", "room_id", "user_id"] := by decide +kernel
      exact fun part hpart => hE part (hmem part hpart)
    unfold templateRuleToRaw specMatches
    rw [hpattern]
    dsimp only
    rw [htruthy, if_neg (by decide)]
    have hcontent : ∃ cache', KeptFor f cache' ∧
        eventFulfillsEventMatchCondition E [("kind", .str "event_match"),
          ("key", .str "content.body"), ("pattern", .str pattern)] ev cache =
            (.ok (specFieldMatches M ev "content.body" pattern), cache') :=
      eventMatch_ordinary hev.type rfl (by decide) hplain rfl hordinary rfl hkept
    obtain ⟨cache', hkept', hfulfilled⟩ := hcontent
    refine ⟨cache', hkept', ?_⟩
    rw [ruleMatchesEvent, ruleMatchesLoop, eventFulfillsCondition]
    rw [show cacheName E (List.lookup "kind" [("kind", (.str "event_match" : JsonValue ν)),
      ("key", .str "content.body"), ("pattern", (some (.str pattern)).getD .null)]) =
        some "event_match" from rfl]
    dsimp only
    rw [if_pos rfl, Option.getD_some, hfulfilled]
    dsimp only
    rw [ruleMatchesLoop, Bool.true_and]

theorem matchingRuleFromRuleset_ordinary (callInherited : CallInherited ν N) (client : ClientView ν)
    (hE : PlainEngine E) (hev : OrdinaryEvent ev) {kind : RuleKind} {ruleset : List (PushRule ν)}
    (h : ∀ rule ∈ ruleset, isTruthy rule.enabled = true → OrdinaryRule E M f kind rule)
    (hkept : KeptFor f cache) :
    ∃ cache', KeptFor f cache' ∧
      matchingRuleFromRuleset E callInherited client kind ev ruleset cache =
        (.ok (ruleset.find? fun rule => isTruthy rule.enabled &&
          specMatches M client ev (ev.event.lookup "user_id") kind rule), cache') := by
  induction ruleset generalizing cache with
  | nil => exact ⟨cache, hkept, rfl⟩
  | cons rule ruleset ih =>
    have hrest : ∀ r ∈ ruleset, isTruthy r.enabled = true → OrdinaryRule E M f kind r :=
      fun r hr => h r (List.mem_cons_of_mem rule hr)
    rw [List.find?_cons, matchingRuleFromRuleset]
    by_cases henabled : isTruthy rule.enabled = true
    · have hrule := rule_ordinary callInherited client hE hev (h rule List.mem_cons_self henabled)
        hkept
      rw [henabled, if_neg (by decide), Bool.true_and]
      cases hraw : templateRuleToRaw kind rule with
      | none =>
        rw [hraw] at hrule
        dsimp only at hrule ⊢
        rw [hrule]
        exact ih hrest hkept
      | some conditions =>
        rw [hraw] at hrule
        obtain ⟨cache₁, hkept₁, hmatches⟩ := hrule
        dsimp only
        rw [hmatches]
        cases specMatches M client ev (ev.event.lookup "user_id") kind rule with
        | true => exact ⟨cache₁, hkept₁, rfl⟩
        | false => exact ih hrest hkept₁
    · rw [Bool.not_eq_true] at henabled
      rw [henabled, if_pos (by decide), Bool.false_and]
      exact ih hrest hkept

/-- **The rule that is found**, where all rules are ordinary: the one that is for the event if its
sender is the value of `user_id`. -/
theorem matchingRule_eq (callInherited : CallInherited ν N) (client : ClientView ν)
    (hE : PlainEngine E) (hev : OrdinaryEvent ev) {kindset : KindSet ν}
    (h : OrdinaryRules E M f kindset) (kinds : List RuleKind) (hkept : KeptFor f cache) :
    ∃ cache', KeptFor f cache' ∧
      matchingRuleFromKinds E callInherited client ev kindset kinds cache =
        (.ok (kinds.findSome?
          (matchingRuleOfKind M client ev (ev.event.lookup "user_id") kindset)), cache') := by
  induction kinds generalizing cache with
  | nil => exact ⟨cache, hkept, rfl⟩
  | cons kind kinds ih =>
    rw [List.findSome?_cons, matchingRuleFromKinds, matchingRuleOfKind]
    cases hrules : kindset kind with
    | none => exact ih hkept
    | some ruleset =>
      obtain ⟨cache₁, hkept₁, hfound⟩ := matchingRuleFromRuleset_ordinary callInherited client
        hE hev (h kind ruleset hrules) hkept
      dsimp only
      rw [hfound, Option.getD_some]
      cases (ruleset.find? fun rule => isTruthy rule.enabled &&
          specMatches M client ev (ev.event.lookup "user_id") kind rule) with
      | some rule => exact ⟨cache₁, hkept₁, rfl⟩
      | none => exact ih hkept₁

/-! ## The sender rules -/

/-- The event has a `sender` and no `user_id`. -/
def FromV2 (ev : PushEvent ν) : Prop :=
  isTruthy (ev.event.lookup "sender") = true ∧ ev.event.lookup "user_id" = none

/-- The event has no `sender`, but perhaps a `user_id`. -/
def FromV1 (ev : PushEvent ν) : Prop := isTruthy (ev.event.lookup "sender") = false

/-- No sender rule decides: the event says who sends it in `user_id`; or a rule of a kind before the
sender rules is for it; or no sender rule is; or the actions of the first one that is are those that
there are without it. -/
def SenderRulesIdle (E : Engine ν N) (M : Meaning) (client : ClientView ν) (ev : PushEvent ν)
    (kindset : KindSet ν) : Prop :=
  FromV1 ev ∨
    (([.override, .content, .room] : List RuleKind).findSome?
      (matchingRuleOfKind M client ev ev.getSender kindset)).isSome ∨
    matchingRuleOfKind M client ev ev.getSender kindset .sender = none ∨
    actionsOf E (matchingRuleOfKind M client ev ev.getSender kindset .sender) =
      actionsOf E (matchingRuleOfKind M client ev ev.getSender kindset .underride)

/-- Which of the other rules are for an event has nothing to do with who sends it. -/
theorem matchingRuleOfKind_sender (M : Meaning) (client : ClientView ν) (ev : PushEvent ν)
    (sender sender' : Option (JsonValue ν)) (kindset : KindSet ν) (kind : RuleKind)
    (h : kind ≠ .sender) :
    matchingRuleOfKind M client ev sender kindset kind =
      matchingRuleOfKind M client ev sender' kindset kind := by
  cases kind with
  | sender => exact absurd rfl h
  | _ => rfl

/-- Without a sender no sender rule is for an event. -/
theorem matchingRuleOfKind_none (M : Meaning) (client : ClientView ν) (ev : PushEvent ν)
    (kindset : KindSet ν) : matchingRuleOfKind M client ev none kindset .sender = none := by
  rw [matchingRuleOfKind, Option.map_eq_none_iff, List.find?_eq_none]
  intro rule _ h
  rw [specMatches, Bool.and_eq_true] at h
  obtain ⟨-, hsame⟩ := h
  unfold sameString at hsame
  split at hsame
  · rename_i heq
    exact nomatch heq
  · exact Bool.noConfusion hsame

/-- The kinds before the sender rules, the sender rules, and the one after them. -/
theorem matchingRule_split (M : Meaning) (client : ClientView ν) (ev : PushEvent ν)
    (sender : Option (JsonValue ν)) (kindset : KindSet ν) :
    matchingRule M client ev sender kindset =
      (([.override, .content, .room] : List RuleKind).findSome?
        (matchingRuleOfKind M client ev ev.getSender kindset)).or
        ((matchingRuleOfKind M client ev sender kindset .sender).or
          (matchingRuleOfKind M client ev ev.getSender kindset .underride)) := by
  have hkinds : RULEKINDS_IN_ORDER = [.override, .content, .room] ++ [.sender, .underride] := rfl
  rw [matchingRule, hkinds, List.findSome?_append]
  simp only [List.findSome?_cons, List.findSome?_nil]
  have hsender := matchingRuleOfKind_sender M client ev sender ev.getSender kindset
  rw [hsender .override (by decide), hsender .content (by decide), hsender .room (by decide),
    hsender .underride (by decide)]
  congr 1
  cases matchingRuleOfKind M client ev sender kindset .sender with
  | some rule => rfl
  | none => cases matchingRuleOfKind M client ev ev.getSender kindset .underride <;> rfl

omit [Zero ν] [DecidableEq ν] in
/-- What is returned for a rule of a kind before the others, or else for one of the others. -/
theorem actionsOf_or_eq_iff {E : Engine ν N} {early rule rule' : Option (RuleKind × PushRule ν)} :
    actionsOf E (early.or rule) = actionsOf E (early.or rule') ↔
      early.isSome ∨ actionsOf E rule = actionsOf E rule' := by
  cases early with
  | none =>
    rw [Option.none_or, Option.none_or]
    exact (or_iff_right Bool.false_ne_true).symm
  | some found => exact iff_of_true rfl (Or.inl rfl)

end Proofs

/-! ## A user who is not to be heard -/

/-- A rule for what has the id, without conditions. -/
def exampleRule (rule_id action : String) : PushRule ℤ :=
  ⟨some (.str rule_id), some (.bool true), some [], none, some [.str action]⟩

/-- One room does not notify, and one user does not; everything else does. -/
def exampleRules : KindSet ℤ
  | .room => some [exampleRule "!quiet:matrix.org" "dont_notify"]
  | .sender => some [exampleRule "@alice:matrix.org" "dont_notify"]
  | .underride => some [exampleRule ".m.rule.message" "notify"]
  | _ => none

def exampleClient : ClientView ℤ := ⟨some "@me:matrix.org", fun _ => none, some (some exampleRules)⟩

/-- A message of the user who is not to be heard. -/
def exampleEvent (roomId : String) : PushEvent ℤ :=
  ⟨[("type", .str "m.room.message"), ("sender", .str "@alice:matrix.org"),
    ("room_id", .str roomId), ("content", .obj [("body", .str "hello")])], [], none, false⟩

/-- No glob and no name is matched by the example. -/
def exampleMeaning : Meaning := ⟨fun _ _ _ => false, fun _ _ => false⟩

/-- Nothing that is called by the example is inherited. -/
def exampleCall : CallInherited ℤ Empty := fun _ _ => .ok false

/-- What is returned says of notifying. -/
def notifies (actions : Except JsError (Option (PushActions ℤ))) : Except JsError (Option Bool) :=
  actions.map fun a => a.map PushActions.notify

end MatrixSdk.PushProcessor
