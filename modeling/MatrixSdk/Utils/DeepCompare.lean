/-
Comparing values: `deepCompare` of `utils.ts`, on JSON values, and the search for a room key request
of `memory-crypto-store.js`.

Two loops go over the members of the second object, where one was to go over those of the first. So
what only the first object has is not seen, and an object is found to be equal to what is left when
members are left out of it, [`LeftOut`]. Besides, a member named `constructor`, `prototype` or
`hasOwnProperty` takes the place of what every object has. See [`deepCompare_iff`].

The values compared have no parts in common: an array or object of one is never identical with one
of the other.
-/
import MatrixSdk.Lib.JsonValue

set_option autoImplicit false

namespace MatrixSdk.Utils

open MatrixSdk.Lib

universe u

variable {ν : Type u} [DecidableEq ν] {x y : JsonValue ν} {k : Except String Bool}
  {xs ys rest : List (String × JsonValue ν)}

/-! ## Comparing -/

/-- `x === y` -/
def strictEquals : JsonValue ν → JsonValue ν → Bool
  | .null, .null => true
  | .bool x, .bool y => x = y
  | .num x, .num y => x = y
  | .str x, .str y => x = y
  | _, _ => false

inductive TypeOf
  | object
  | boolean
  | number
  | string
  deriving DecidableEq

def typeOf : JsonValue ν → TypeOf
  | .null => .object
  | .bool _ => .boolean
  | .num _ => .number
  | .str _ => .string
  | .arr _ => .object
  | .obj _ => .object

def isNull : JsonValue ν → Bool
  | .null => true
  | _ => false

/-- `x instanceof Object` -/
def isObject : JsonValue ν → Bool
  | .arr _ => true
  | .obj _ => true
  | _ => false

/-- What a property is found to be: a member, or what is inherited, if anything. -/
inductive Property (ν : Type u)
  | member (value : JsonValue ν)
  | arrayConstructor
  | objectConstructor
  | undefined

/-- `===` of two properties. -/
def Property.strictEquals : Property ν → Property ν → Bool
  | .member x, .member y => Utils.strictEquals x y
  | .arrayConstructor, .arrayConstructor => true
  | .objectConstructor, .objectConstructor => true
  | .undefined, .undefined => true
  | _, _ => false

/-- `x.constructor`, of an array or an object. -/
def constructorOf : JsonValue ν → Property ν
  | .arr _ => .arrayConstructor
  | .obj members =>
    match members.lookup "constructor" with
    | some value => .member value
    | none => .objectConstructor
  | _ => .undefined

/-- `x.prototype` -/
def prototypeOf : JsonValue ν → Property ν
  | .obj members =>
    match members.lookup "prototype" with
    | some value => .member value
    | none => .undefined
  | _ => .undefined

/-- "they are the same type of object" -/
def sameType (x y : JsonValue ν) : Bool :=
  (constructorOf x).strictEquals (constructorOf y) && (prototypeOf x).strictEquals (prototypeOf y)

/-- `x.hasOwnProperty(p)`. It throws if a member has this name. -/
def hasOwnProperty (members : List (String × JsonValue ν)) (p : String) : Except String Bool :=
  if (members.lookup "hasOwnProperty").isSome then .error "hasOwnProperty is not a function"
  else .ok (members.lookup p).isSome

/-- "check that all of y's direct keys are in x" -/
def checkKeys (xs ys : List (String × JsonValue ν)) :
    List (String × JsonValue ν) → Except String Bool
  | [] => .ok true
  | (p, _) :: rest => do
    let inY ← hasOwnProperty ys p
    let inX ← hasOwnProperty xs p
    if inY ≠ inX then return false else checkKeys xs ys rest

mutual

def deepCompare (x : JsonValue ν) (y : JsonValue ν) : Except String Bool :=
  if strictEquals x y then .ok true
  else if typeOf x ≠ typeOf y then .ok false
  else if isNull x || isNull y then .ok (strictEquals x y)
  else if !isObject x then .ok false
  else if !sameType x y then .ok false
  else
    match x, y with
    | .arr xs, .arr ys => if xs.length ≠ ys.length then .ok false else compareElements xs ys
    | .obj xs, .obj ys => do
      if !(← checkKeys xs ys ys) then return false else compareMembers xs ys ys
    | _, _ => .ok true
termination_by structural y

/-- The loop over arrays of the same length. -/
def compareElements (xs : List (JsonValue ν)) (ys : List (JsonValue ν)) : Except String Bool :=
  match xs, ys with
  | x :: xs, y :: ys => do if !(← deepCompare x y) then return false else compareElements xs ys
  | _, _ => .ok true
termination_by structural ys

/-- "finally, compare each of x's keys with y": the rest of the members of `y`. -/
def compareMembers (xs ys : List (String × JsonValue ν)) (rest : List (String × JsonValue ν)) :
    Except String Bool :=
  match rest with
  | [] => .ok true
  | (p, y) :: rest => do
    let inY ← hasOwnProperty ys p
    let inX ← hasOwnProperty xs p
    if inY ≠ inX then return false
    else
      match xs.lookup p with
      | some x => if !(← deepCompare x y) then return false else compareMembers xs ys rest
      | none => return false
termination_by structural rest

end

/-- What the store compares of a request. -/
structure KeyRequest (ν : Type u) where
  requestId : String
  requestBody : JsonValue ν

/-- `_getOutgoingRoomKeyRequest` -/
def getOutgoingRoomKeyRequest (requestBody : JsonValue ν) :
    List (KeyRequest ν) → Except String (Option (KeyRequest ν))
  | [] => .ok none
  | existing :: requests =>
    match deepCompare existing.requestBody requestBody with
    | .error message => .error message
    | .ok true => .ok (some existing)
    | .ok false => getOutgoingRoomKeyRequest requestBody requests

/-! ## What is found to be equal -/

/-- The second value is the first, but members of its objects may be left out. What an object is
found to be by `constructor` and `prototype` stays the same, and where there are members none is
named `hasOwnProperty`. -/
inductive LeftOut : JsonValue ν → JsonValue ν → Prop
  | null : LeftOut .null .null
  | bool (b : Bool) : LeftOut (.bool b) (.bool b)
  | num (n : ν) : LeftOut (.num n) (.num n)
  | str (s : String) : LeftOut (.str s) (.str s)
  | arr (xs ys : List (JsonValue ν)) : xs.length = ys.length →
    (∀ (i : ℕ) x y, xs[i]? = some x → ys[i]? = some y → LeftOut x y) →
    LeftOut (.arr xs) (.arr ys)
  | obj (xs ys : List (String × JsonValue ν)) : sameType (.obj xs) (.obj ys) = true →
    (ys ≠ [] → xs.lookup "hasOwnProperty" = none ∧ ys.lookup "hasOwnProperty" = none) →
    (∀ name, (ys.lookup name).isSome → (xs.lookup name).isSome) →
    (∀ name x y, xs.lookup name = some x → ys.lookup name = some y → LeftOut x y) →
    LeftOut (.obj xs) (.obj ys)

theorem deepCompare_arr (xs ys : List (JsonValue ν)) : deepCompare (.arr xs) (.arr ys) =
    if xs.length ≠ ys.length then .ok false else compareElements xs ys := by
  rw [deepCompare.eq_def]
  rfl

theorem deepCompare_obj (xs ys : List (String × JsonValue ν)) : deepCompare (.obj xs) (.obj ys) =
    if !sameType (.obj xs) (.obj ys) then .ok false
    else (do if !(← checkKeys xs ys ys) then return false else compareMembers xs ys ys) := by
  rw [deepCompare.eq_def]
  rfl

/-- Values that are neither two arrays nor two objects are compared at once. An array is no object,
even if that has a member `constructor`. -/
theorem deepCompare_of_not (harr : ∀ xs ys, x = .arr xs → y ≠ .arr ys)
    (hobj : ∀ xs ys, x = .obj xs → y ≠ .obj ys) : deepCompare x y = .ok (strictEquals x y) := by
  have hmixed : ∀ (xs : List (JsonValue ν)) (ys : List (String × JsonValue ν)),
      sameType (.arr xs) (.obj ys) = false ∧ sameType (.obj ys) (.arr xs) = false := by
    intro xs ys
    unfold sameType constructorOf
    dsimp only
    cases ys.lookup "constructor" with
    | none => exact ⟨rfl, rfl⟩
    | some v => exact ⟨rfl, rfl⟩
  rw [deepCompare.eq_def]
  cases hstrict : strictEquals x y with
  | true => rfl
  | false =>
    rw [if_neg nofun]
    by_cases htype : typeOf x ≠ typeOf y
    · rw [if_pos htype]
    · rw [if_neg htype]
      cases hnull : isNull x || isNull y with
      | true => rfl
      | false =>
        rw [if_neg nofun]
        cases x with
        | arr xs =>
          cases y with
          | arr ys => exact absurd rfl (harr xs ys rfl)
          | obj ys =>
            rw [(hmixed xs ys).1]
            rfl
          | null => exact nomatch hnull
          | bool b => exact absurd nofun htype
          | num n => exact absurd nofun htype
          | str s => exact absurd nofun htype
        | obj xs =>
          cases y with
          | arr ys =>
            rw [(hmixed ys xs).2]
            rfl
          | obj ys => exact absurd rfl (hobj xs ys rfl)
          | null => exact nomatch hnull
          | bool b => exact absurd nofun htype
          | num n => exact absurd nofun htype
          | str s => exact absurd nofun htype
        | null => rfl
        | bool b => rfl
        | num n => rfl
        | str s => rfl

/-! ## The loops -/

/-- Both parts of a comparison have to come out true. -/
theorem bind_not_eq_true {e : Except String Bool} :
    (do if !(← e) then return false else k) = .ok true ↔ e = .ok true ∧ k = .ok true := by
  cases e with
  | error message => exact ⟨nofun, fun h => nomatch h.1⟩
  | ok b =>
    cases b with
    | true => exact ⟨fun h => ⟨rfl, h⟩, And.right⟩
    | false => exact ⟨nofun, fun h => nomatch h.1⟩

theorem compareElements_eq_true {xs ys : List (JsonValue ν)} (hlength : xs.length = ys.length) :
    compareElements xs ys = .ok true ↔
      ∀ (i : ℕ) x y, xs[i]? = some x → ys[i]? = some y → deepCompare x y = .ok true := by
  induction ys generalizing xs with
  | nil =>
    rw [compareElements.eq_def]
    refine iff_of_true ?_ fun i x y _ hy => nomatch hy
    cases xs <;> rfl
  | cons y ys ih =>
    cases xs with
    | nil => exact nomatch hlength
    | cons x xs =>
      rw [compareElements.eq_def]
      rw [bind_not_eq_true, ih (Nat.succ.inj hlength)]
      constructor
      · rintro ⟨hfirst, hrest⟩ i x' y' hx hy
        cases i with
        | zero =>
          obtain rfl := Option.some.inj hx
          obtain rfl := Option.some.inj hy
          exact hfirst
        | succ i => exact hrest i x' y' hx hy
      · exact fun h => ⟨h 0 x y rfl rfl, fun i x' y' hx hy => h (i + 1) x' y' hx hy⟩

omit [DecidableEq ν] in
theorem hasOwnProperty_eq_ok {members : List (String × JsonValue ν)} {p : String} {b : Bool} :
    hasOwnProperty members p = .ok b ↔
      members.lookup "hasOwnProperty" = none ∧ (members.lookup p).isSome = b := by
  rw [hasOwnProperty]
  cases members.lookup "hasOwnProperty" with
  | none => exact ⟨fun h => ⟨rfl, Except.ok.inj h⟩, fun h => congrArg Except.ok h.2⟩
  | some v => exact ⟨nofun, fun h => nomatch h.1⟩

/-- A member of the second object that is in the first. -/
def InBoth (xs ys : List (String × JsonValue ν)) (p : String) : Prop :=
  xs.lookup "hasOwnProperty" = none ∧ ys.lookup "hasOwnProperty" = none ∧ (xs.lookup p).isSome

omit [DecidableEq ν] in
/-- The test with which a turn of either loop begins. -/
theorem inBoth_iff {p : String} (hp : (ys.lookup p).isSome) :
    (do
      let inY ← hasOwnProperty ys p
      let inX ← hasOwnProperty xs p
      if inY ≠ inX then return false else k) = .ok true ↔ InBoth xs ys p ∧ k = .ok true := by
  cases hy : hasOwnProperty ys p with
  | error message =>
    refine ⟨nofun, fun h => ?_⟩
    exact nomatch hy.symm.trans (hasOwnProperty_eq_ok.2 ⟨h.1.2.1, rfl⟩)
  | ok inY =>
    obtain ⟨hynone, hyin⟩ := hasOwnProperty_eq_ok.1 hy
    obtain rfl : inY = true := hyin.symm.trans hp
    cases hx : hasOwnProperty xs p with
    | error message =>
      refine ⟨nofun, fun h => ?_⟩
      exact nomatch hx.symm.trans (hasOwnProperty_eq_ok.2 ⟨h.1.1, rfl⟩)
    | ok inX =>
      obtain ⟨hxnone, hxin⟩ := hasOwnProperty_eq_ok.1 hx
      cases inX with
      | true => exact ⟨fun h => ⟨⟨hxnone, hynone, hxin⟩, h⟩, And.right⟩
      | false => exact ⟨nofun, fun h => nomatch h.1.2.2.symm.trans hxin⟩

omit [DecidableEq ν] in
theorem checkKeys_eq_true (hrest : ∀ m ∈ rest, (ys.lookup m.1).isSome) :
    checkKeys xs ys rest = .ok true ↔ ∀ m ∈ rest, InBoth xs ys m.1 := by
  induction rest with
  | nil => exact iff_of_true rfl fun m hm => absurd hm List.not_mem_nil
  | cons m rest ih =>
    obtain ⟨hm, hrest⟩ := List.forall_mem_cons.1 hrest
    rw [checkKeys, List.forall_mem_cons, inBoth_iff hm, ih hrest]

theorem compareMembers_eq_true (hrest : ∀ m ∈ rest, (ys.lookup m.1).isSome) :
    compareMembers xs ys rest = .ok true ↔ ∀ m ∈ rest, InBoth xs ys m.1 ∧
      ∀ x, xs.lookup m.1 = some x → deepCompare x m.2 = .ok true := by
  induction rest with
  | nil =>
    rw [compareMembers.eq_def]
    exact iff_of_true rfl fun m hm => absurd hm List.not_mem_nil
  | cons m rest ih =>
    obtain ⟨p, y⟩ := m
    obtain ⟨hm, hrest'⟩ := List.forall_mem_cons.1 hrest
    rw [compareMembers.eq_def, List.forall_mem_cons]
    dsimp only at hm ⊢
    rw [inBoth_iff hm, ← ih hrest']
    cases hx : xs.lookup p with
    | none =>
      refine ⟨fun h => ?_, fun h => ?_⟩
      · exact nomatch h.1.2.2.symm.trans (congrArg Option.isSome hx)
      · exact nomatch h.1.1.2.2.symm.trans (congrArg Option.isSome hx)
    | some x =>
      rw [bind_not_eq_true]
      constructor
      · rintro ⟨hin, hx', hloop⟩
        exact ⟨⟨hin, fun x' heq => Option.some.inj heq ▸ hx'⟩, hloop⟩
      · rintro ⟨⟨hin, hx'⟩, hloop⟩
        exact ⟨hin, hx' x rfl, hloop⟩

/-! ## When values are found to be equal -/

/-- **What the comparison finds**: the second value is what is left of the first. -/
theorem deepCompare_eq_true (hy : y.WellFormed) (x : JsonValue ν) :
    deepCompare x y = .ok true ↔ LeftOut x y := by
  have hplain : ∀ x y : JsonValue ν, (∀ xs ys, x = .arr xs → y ≠ .arr ys) →
      (∀ xs ys, x = .obj xs → y ≠ .obj ys) → (deepCompare x y = .ok true ↔ LeftOut x y) := by
    intro x y harr hobj
    rw [deepCompare_of_not harr hobj]
    constructor
    · intro h
      have hstrict := Except.ok.inj h
      revert hstrict
      unfold strictEquals
      split
      · exact fun _ => .null
      · exact fun heq => of_decide_eq_true heq ▸ .bool _
      · exact fun heq => of_decide_eq_true heq ▸ .num _
      · exact fun heq => of_decide_eq_true heq ▸ .str _
      · exact nofun
    · intro h
      cases h with
      | null => rfl
      | bool b => exact congrArg Except.ok (decide_eq_true rfl)
      | num n => exact congrArg Except.ok (decide_eq_true rfl)
      | str s => exact congrArg Except.ok (decide_eq_true rfl)
      | arr xs ys _ _ => exact absurd rfl (harr xs ys rfl)
      | obj xs ys _ _ _ _ => exact absurd rfl (hobj xs ys rfl)
  induction y using JsonValue.induction generalizing x with
  | null => exact hplain _ _ (fun _ _ _ => nofun) fun _ _ _ => nofun
  | bool b => exact hplain _ _ (fun _ _ _ => nofun) fun _ _ _ => nofun
  | num n => exact hplain _ _ (fun _ _ _ => nofun) fun _ _ _ => nofun
  | str s => exact hplain _ _ (fun _ _ _ => nofun) fun _ _ _ => nofun
  | arr ys ih =>
    cases x with
    | arr xs =>
      rw [deepCompare_arr]
      by_cases hlength : xs.length = ys.length
      · rw [if_neg (not_not.2 hlength), compareElements_eq_true hlength]
        have hiff : ∀ (i : ℕ) x y, xs[i]? = some x → ys[i]? = some y →
            (deepCompare x y = .ok true ↔ LeftOut x y) :=
          fun i x y _ hyi => ih y (List.mem_of_getElem? hyi)
            (hy.element y (List.mem_of_getElem? hyi)) x
        constructor
        · exact fun h => .arr _ _ hlength fun i x y hxi hyi =>
            (hiff i x y hxi hyi).1 (h i x y hxi hyi)
        · intro h
          cases h with
          | arr _ _ _ hall =>
            exact fun i x y hxi hyi => (hiff i x y hxi hyi).2 (hall i x y hxi hyi)
      · rw [if_pos hlength]
        refine ⟨nofun, fun h => ?_⟩
        cases h with
        | arr _ _ hlength' _ => exact absurd hlength' hlength
    | _ => exact hplain _ _ (fun _ _ => nofun) fun _ _ _ => nofun
  | obj ys ih =>
    cases x with
    | obj xs =>
      have hmem : ∀ m ∈ ys, (ys.lookup m.1).isSome := fun m => Members.lookup_isSome_of_mem
      rw [deepCompare_obj]
      cases htype : sameType (.obj xs) (.obj ys) with
      | false =>
        refine ⟨nofun, fun h => ?_⟩
        cases h with
        | obj _ _ htype' _ _ _ => exact nomatch htype'.symm.trans htype
      | true =>
        rw [if_neg nofun, bind_not_eq_true, checkKeys_eq_true hmem,
          compareMembers_eq_true hmem]
        constructor
        · rintro ⟨-, h⟩
          refine .obj _ _ htype (fun hne => ?_) (fun name hname => ?_)
            fun name x y hx hy' => ?_
          · obtain ⟨m, hm⟩ := List.exists_mem_of_ne_nil ys hne
            exact ⟨(h m hm).1.1, (h m hm).1.2.1⟩
          · obtain ⟨y, hy'⟩ := Option.isSome_iff_exists.1 hname
            exact (h (name, y) (Members.mem_of_lookup hy')).1.2.2
          · have hm := Members.mem_of_lookup hy'
            exact (ih (name, y) hm (hy.member _ hm) x).1 ((h (name, y) hm).2 x hx)
        · intro h
          cases h with
          | obj _ _ _ hown hnames hall =>
            have hin : ∀ m ∈ ys, InBoth xs ys m.1 := fun m hm =>
              have hne : ys ≠ [] := List.ne_nil_of_mem hm
              ⟨(hown hne).1, (hown hne).2, hnames m.1 (hmem m hm)⟩
            refine ⟨hin, fun m hm => ⟨hin m hm, fun x hx => ?_⟩⟩
            have hlookup := Members.lookup_of_mem hy.here hm
            exact (ih m hm (hy.member m hm) x).2 (hall m.1 x m.2 hx hlookup)
    | _ => exact hplain _ _ (fun _ _ _ => nofun) fun _ _ => nofun

/-! ## What comparing throws -/

/-- No member is named `hasOwnProperty`. -/
def Unshadowed (members : List (String × JsonValue ν)) : Prop :=
  members.lookup "hasOwnProperty" = none

theorem bind_not_ok {e : Except String Bool} (he : ∃ b, e = .ok b) (hk : ∃ b, k = .ok b) :
    ∃ b, (do if !(← e) then return false else k) = .ok b := by
  obtain ⟨b, rfl⟩ := he
  cases b with
  | true => exact hk
  | false => exact ⟨false, rfl⟩

omit [DecidableEq ν] in
theorem inBoth_ok (hxs : Unshadowed xs) (hys : Unshadowed ys) (p : String)
    (hk : (xs.lookup p).isSome = (ys.lookup p).isSome → ∃ b, k = .ok b) :
    ∃ b, (do
      let inY ← hasOwnProperty ys p
      let inX ← hasOwnProperty xs p
      if inY ≠ inX then return false else k) = .ok b := by
  rw [hasOwnProperty_eq_ok.2 ⟨hys, rfl⟩, hasOwnProperty_eq_ok.2 ⟨hxs, rfl⟩]
  by_cases hin : (ys.lookup p).isSome = (xs.lookup p).isSome
  · obtain ⟨b, rfl⟩ := hk hin.symm
    exact ⟨b, if_neg (not_not.2 hin)⟩
  · exact ⟨false, if_pos hin⟩

omit [DecidableEq ν] in
theorem checkKeys_ok (hxs : Unshadowed xs) (hys : Unshadowed ys)
    (rest : List (String × JsonValue ν)) : ∃ b, checkKeys xs ys rest = .ok b := by
  induction rest with
  | nil => exact ⟨true, rfl⟩
  | cons m rest ih =>
    rw [checkKeys]
    exact inBoth_ok hxs hys m.1 fun _ => ih

theorem compareElements_ok {xs ys : List (JsonValue ν)}
    (h : ∀ x ∈ xs, ∀ y ∈ ys, ∃ b, deepCompare x y = .ok b) :
    ∃ b, compareElements xs ys = .ok b := by
  induction ys generalizing xs with
  | nil =>
    rw [compareElements.eq_def]
    refine ⟨true, ?_⟩
    cases xs <;> rfl
  | cons y ys ih =>
    rw [compareElements.eq_def]
    cases xs with
    | nil => exact ⟨true, rfl⟩
    | cons x xs =>
      have hfirst := h x List.mem_cons_self y List.mem_cons_self
      refine bind_not_ok hfirst (ih fun x' hx y' hy => ?_)
      exact h x' (List.mem_cons_of_mem _ hx) y' (List.mem_cons_of_mem _ hy)

theorem compareMembers_ok (hxs : Unshadowed xs) (hys : Unshadowed ys)
    (h : ∀ x ∈ xs, ∀ y ∈ rest, ∃ b, deepCompare x.2 y.2 = .ok b) :
    ∃ b, compareMembers xs ys rest = .ok b := by
  induction rest with
  | nil =>
    rw [compareMembers.eq_def]
    exact ⟨true, rfl⟩
  | cons m rest ih =>
    obtain ⟨p, y⟩ := m
    rw [compareMembers.eq_def]
    refine inBoth_ok hxs hys p fun _ => ?_
    cases hx : xs.lookup p with
    | none => exact ⟨false, rfl⟩
    | some x =>
      have hfirst := h (p, x) (Members.mem_of_lookup hx) (p, y) List.mem_cons_self
      exact bind_not_ok hfirst (ih fun x' hx' y' hy' =>
        h x' hx' y' (List.mem_cons_of_mem _ hy'))

/-- Only a member `hasOwnProperty` makes comparing throw. -/
theorem deepCompare_ok (hy : y.EveryObject Unshadowed) (hx : x.EveryObject Unshadowed) :
    ∃ b, deepCompare x y = .ok b := by
  induction y using JsonValue.induction generalizing x with
  | arr ys ih =>
    cases x with
    | arr xs =>
      rw [deepCompare_arr]
      by_cases hlength : xs.length ≠ ys.length
      · exact ⟨false, if_pos hlength⟩
      · rw [if_neg hlength]
        exact compareElements_ok fun x' hx' y' hy' =>
          ih y' hy' (hy.element y' hy') (hx.element x' hx')
    | _ => exact ⟨_, deepCompare_of_not (fun _ _ => nofun) fun _ _ _ => nofun⟩
  | obj ys ih =>
    cases x with
    | obj xs =>
      rw [deepCompare_obj]
      cases sameType (.obj xs) (.obj ys) with
      | false => exact ⟨false, rfl⟩
      | true =>
        rw [if_neg nofun]
        refine bind_not_ok (checkKeys_ok hx.here hy.here ys) ?_
        exact compareMembers_ok hx.here hy.here fun x' hx' y' hy' =>
          ih y' hy' (hy.member y' hy') (hx.member x' hx')
    | _ => exact ⟨_, deepCompare_of_not (fun _ _ _ => nofun) fun _ _ => nofun⟩
  | _ => exact ⟨_, deepCompare_of_not (fun _ _ _ => nofun) fun _ _ _ => nofun⟩

/-! ## Equal values -/

/-- Members named `constructor` and `prototype` are neither arrays nor objects, and none is named
`hasOwnProperty`. -/
structure Plain (members : List (String × JsonValue ν)) : Prop where
  constructorMember : ∀ v, members.lookup "constructor" = some v → strictEquals v v = true
  prototypeMember : ∀ v, members.lookup "prototype" = some v → strictEquals v v = true
  unshadowed : Unshadowed members

/-- Equal values are identical unless they are arrays or objects. -/
theorem strictEquals_of_same (h : x.Same y) : strictEquals x y = strictEquals x x := by
  cases h <;> rfl

/-- A property that equal objects have both is the same in them if it is plain. -/
theorem property_strictEquals (hsame : (JsonValue.obj xs).Same (.obj ys)) (name : String)
    {default : Property ν} (hdefault : default.strictEquals default = true) :
    Property.strictEquals
      (match xs.lookup name with
        | some value => .member value
        | none => default)
      (match ys.lookup name with
        | some value => .member value
        | none => default) = true ↔
      ∀ v, xs.lookup name = some v → strictEquals v v = true := by
  cases hsame with
  | obj _ _ hnames hall =>
    have hname := hnames name
    cases hx : xs.lookup name with
    | none =>
      rw [hx] at hname
      cases hy : ys.lookup name with
      | none => exact iff_of_true hdefault nofun
      | some y => exact nomatch hname.trans (congrArg Option.isSome hy)
    | some x =>
      rw [hx] at hname
      cases hy : ys.lookup name with
      | none => exact nomatch hname.trans (congrArg Option.isSome hy)
      | some y =>
        dsimp only [Property.strictEquals]
        rw [strictEquals_of_same (hall name x y hx hy)]
        exact ⟨fun h v hv => Option.some.inj hv ▸ h, fun h => h x rfl⟩

theorem sameType_of_same (hsame : (JsonValue.obj xs).Same (.obj ys)) :
    sameType (.obj xs) (.obj ys) = true ↔
      (∀ v, xs.lookup "constructor" = some v → strictEquals v v = true) ∧
        ∀ v, xs.lookup "prototype" = some v → strictEquals v v = true := by
  rw [sameType, Bool.and_eq_true]
  exact and_congr (property_strictEquals hsame "constructor" rfl)
    (property_strictEquals hsame "prototype" rfl)

/-- Of equal values, nothing is left out; they are found to be equal if they are plain. -/
theorem leftOut_iff_of_same (hx : x.WellFormed) (hsame : x.Same y) :
    LeftOut x y ↔ x.EveryObject Plain := by
  induction hsame with
  | null => exact iff_of_true .null .null
  | bool b => exact iff_of_true (.bool b) (.bool b)
  | num n => exact iff_of_true (.num n) (.num n)
  | str s => exact iff_of_true (.str s) (.str s)
  | arr xs ys hlength _ ih =>
    have hiff : ∀ (i : ℕ) x y, xs[i]? = some x → ys[i]? = some y →
        (LeftOut x y ↔ x.EveryObject Plain) :=
      fun i x y hxi hyi => ih i x y hxi hyi (hx.element x (List.mem_of_getElem? hxi))
    constructor
    · intro h
      cases h with
      | arr _ _ _ hall =>
        refine .arr _ fun x hmem => ?_
        obtain ⟨i, hi, rfl⟩ := List.mem_iff_getElem.1 hmem
        have hxi := List.getElem?_eq_getElem hi
        have hyi := List.getElem?_eq_getElem (hlength ▸ hi)
        exact (hiff i _ _ hxi hyi).1 (hall i _ _ hxi hyi)
    · intro h
      refine .arr _ _ hlength fun i x y hxi hyi => ?_
      exact (hiff i x y hxi hyi).2 (h.element x (List.mem_of_getElem? hxi))
  | obj xs ys hnames hall ih =>
    have htype := sameType_of_same (JsonValue.Same.obj xs ys hnames hall)
    have hiff : ∀ name x y, xs.lookup name = some x → ys.lookup name = some y →
        (LeftOut x y ↔ x.EveryObject Plain) :=
      fun name x y hlx hly =>
        ih name x y hlx hly (hx.member (name, x) (Members.mem_of_lookup hlx))
    constructor
    · intro h
      cases h with
      | obj _ _ htype' hown _ hall' =>
        obtain ⟨hconstructor, hprototype⟩ := htype.1 htype'
        refine .obj _ ⟨hconstructor, hprototype, ?_⟩ fun m hm => ?_
        · -- a name `hasOwnProperty` would be one of both
          cases hshadow : xs.lookup "hasOwnProperty" with
          | none => exact hshadow
          | some v =>
            have hy := hnames "hasOwnProperty"
            rw [hshadow] at hy
            have hne : ys ≠ [] := by
              rintro rfl
              exact nomatch hy
            exact nomatch hshadow.symm.trans (hown hne).1
        · have hlx := Members.lookup_of_mem hx.here hm
          obtain ⟨y, hly⟩ : ∃ y, ys.lookup m.1 = some y := by
            rw [← Option.isSome_iff_exists, ← hnames, hlx]
            rfl
          exact (hiff m.1 m.2 y hlx hly).1 (hall' m.1 m.2 y hlx hly)
    · intro h
      obtain ⟨hconstructor, hprototype, hunshadowed⟩ := h.here
      refine .obj _ _ (htype.2 ⟨hconstructor, hprototype⟩) (fun _ => ⟨hunshadowed, ?_⟩)
        (fun name hname => (hnames name).trans hname) fun name x y hlx hly => ?_
      · rw [← Option.not_isSome_iff_eq_none, ← hnames, hunshadowed]
        exact nofun
      · exact (hiff name x y hlx hly).2 (h.member (name, x) (Members.mem_of_lookup hlx))

/-- What has to hold for the comparison to say whether the values are equal: the second is not the
first with members left out, and if they are equal they are plain. -/
def Comparable (x y : JsonValue ν) : Prop :=
  (LeftOut x y → x.Same y) ∧ (x.Same y → x.EveryObject Plain)

theorem deepCompare_iff_same (hx : x.WellFormed) (hy : y.WellFormed) :
    (deepCompare x y = .ok true ↔ x.Same y) ↔ Comparable x y := by
  rw [deepCompare_eq_true hy]
  constructor
  · exact fun h => ⟨h.1, fun hsame => (leftOut_iff_of_same hx hsame).1 (h.2 hsame)⟩
  · rintro ⟨hleftOut, hplain⟩
    exact ⟨hleftOut, fun hsame => (leftOut_iff_of_same hx hsame).2 (hplain hsame)⟩

/-! ## Looking for a request -/

/-- Where comparing does not throw, a request is found if one of them compares. -/
theorem getOutgoingRoomKeyRequest_isSome {requests : List (KeyRequest ν)}
    (hok : ∀ r ∈ requests, ∃ b, deepCompare r.requestBody y = .ok b) :
    (∃ found, getOutgoingRoomKeyRequest y requests = .ok (some found)) ↔
      ∃ r ∈ requests, deepCompare r.requestBody y = .ok true := by
  induction requests with
  | nil =>
    refine iff_of_false ?_ ?_
    · exact fun ⟨found, h⟩ => nomatch h
    · exact fun ⟨r, hr, _⟩ => absurd hr List.not_mem_nil
  | cons r requests ih =>
    obtain ⟨⟨b, hb⟩, hok⟩ := List.forall_mem_cons.1 hok
    rw [getOutgoingRoomKeyRequest, List.exists_mem_cons_iff, hb]
    cases b with
    | true => exact iff_of_true ⟨r, rfl⟩ (Or.inl rfl)
    | false =>
      rw [ih hok]
      exact ⟨Or.inr, fun h => h.resolve_left nofun⟩

/-- **What is compared and what is found**: whether two values are equal is found out if and only if
they are comparable. Where no value has a member `hasOwnProperty` and each stored body is comparable
with the wanted one, a request is found if and only if one with an equal body is stored. -/
theorem deepCompare_iff (y : JsonValue ν) (hy : y.WellFormed) :
    (∀ x : JsonValue ν, x.WellFormed →
      ((deepCompare x y = .ok true ↔ x.Same y) ↔ Comparable x y)) ∧
    ∀ requests : List (KeyRequest ν), (∀ r ∈ requests, r.requestBody.WellFormed) →
      y.EveryObject Unshadowed →
      (∀ r ∈ requests, r.requestBody.EveryObject Unshadowed ∧ Comparable r.requestBody y) →
      ((∃ found, getOutgoingRoomKeyRequest y requests = .ok (some found)) ↔
        ∃ r ∈ requests, r.requestBody.Same y) := by
  refine ⟨fun x hx => deepCompare_iff_same hx hy, fun requests hrequests hshadow hall => ?_⟩
  rw [getOutgoingRoomKeyRequest_isSome fun r hr => deepCompare_ok hshadow (hall r hr).1]
  refine exists_congr fun r => and_congr_right fun hr => ?_
  exact (deepCompare_iff_same (hrequests r hr) hy).2 (hall r hr).2

/-- The request that is stored is found. -/
theorem deepCompare_iff_room :
    let body : JsonValue ℕ := .obj [("room_id", .str "!room")]
    (∃ found, getOutgoingRoomKeyRequest body [⟨"1", body⟩] = .ok (some found)) ↔
      ∃ r ∈ [KeyRequest.mk "1" body], r.requestBody.Same body := by
  intro body
  have hmember {P : List (String × JsonValue ℕ) → Prop} :
      ∀ m ∈ [("room_id", JsonValue.str "!room")], JsonValue.EveryObject P m.2 :=
    List.forall_mem_singleton.2 (.str _)
  have hbody : body.WellFormed := .obj _ (List.nodup_singleton _) hmember
  have hunshadowed : body.EveryObject Unshadowed := .obj _ rfl hmember
  have hplain : body.EveryObject Plain := .obj _ ⟨nofun, nofun, rfl⟩ hmember
  refine (deepCompare_iff body hbody).2 _ ?_ hunshadowed ?_
  · exact List.forall_mem_singleton.2 hbody
  · exact List.forall_mem_singleton.2
      ⟨hunshadowed, fun _ => JsonValue.Same.refl body, fun _ => hplain⟩

/-- A request for a session of any sender key is found to be there, when one for that of a certain
sender key is. The other way round it is not. -/
theorem deepCompare_fails :
    let stored : JsonValue ℕ :=
      .obj [("room_id", .str "!room"), ("session_id", .str "session"), ("sender_key", .str "key")]
    let wanted : JsonValue ℕ := .obj [("room_id", .str "!room"), ("session_id", .str "session")]
    stored.WellFormed ∧ wanted.WellFormed ∧ ¬ stored.Same wanted ∧
      deepCompare stored wanted = .ok true ∧ deepCompare wanted stored = .ok false ∧
      getOutgoingRoomKeyRequest wanted [⟨"1", stored⟩] = .ok (some ⟨"1", stored⟩) := by
  have hcompare : deepCompare (.obj [("room_id", .str "!room"), ("session_id", .str "session"),
      ("sender_key", .str "key")] : JsonValue ℕ)
      (.obj [("room_id", .str "!room"), ("session_id", .str "session")]) = .ok true := by rfl
  refine ⟨.obj _ (by decide +kernel) ?_, .obj _ (by decide +kernel) ?_, ?_, hcompare, by rfl, ?_⟩
  · simp only [List.forall_mem_cons]
    exact ⟨.str _, .str _, .str _, nofun⟩
  · simp only [List.forall_mem_cons]
    exact ⟨.str _, .str _, nofun⟩
  · intro h
    cases h with
    | obj _ _ hnames _ => exact absurd (hnames "sender_key") (by decide +kernel)
  · rw [getOutgoingRoomKeyRequest, hcompare]

end MatrixSdk.Utils
