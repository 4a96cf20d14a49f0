/-
JSON values, over any type of numbers, and when two of them are equal.

An object is kept as the list of its members. Values that differ in the order of members only are
equal, so equality is a relation of its own, [`JsonValue.Same`], by lookups. A name occurs once in
an object, [`JsonValue.WellFormed`].
-/
import MatrixSdk.Lib.Members

set_option autoImplicit false

namespace MatrixSdk.Lib

universe u

inductive JsonValue (ν : Type u)
  | null
  | bool (value : Bool)
  | num (value : ν)
  | str (value : String)
  | arr (elements : List (JsonValue ν))
  | obj (members : List (String × JsonValue ν))

namespace JsonValue

variable {ν : Type u}

/-! ## Induction -/

theorem sizeOf_member_lt {members : List (String × JsonValue ν)} {member : String × JsonValue ν}
    (h : member ∈ members) : sizeOf member.2 < sizeOf (obj members) := by
  have hmember := List.sizeOf_lt_of_mem h
  obtain ⟨name, value⟩ := member
  simp only [Prod.mk.sizeOf_spec, obj.sizeOf_spec] at hmember ⊢
  omega

theorem sizeOf_element_lt {elements : List (JsonValue ν)} {element : JsonValue ν}
    (h : element ∈ elements) : sizeOf element < sizeOf (arr elements) := by
  have helement := List.sizeOf_lt_of_mem h
  simp only [arr.sizeOf_spec]
  omega

/-- **Induction over values**: what holds of an array follows from its elements, what holds of an
object from its members. -/
theorem induction {P : JsonValue ν → Prop} (null : P .null) (bool : ∀ b, P (.bool b))
    (num : ∀ n, P (.num n)) (str : ∀ s, P (.str s))
    (arr : ∀ elements, (∀ e ∈ elements, P e) → P (.arr elements))
    (obj : ∀ members, (∀ m ∈ members, P m.2) → P (.obj members)) : ∀ value, P value
  | .null => null
  | .bool b => bool b
  | .num n => num n
  | .str s => str s
  | .arr elements => arr elements fun e _ => induction null bool num str arr obj e
  | .obj members => obj members fun m _ => induction null bool num str arr obj m.2
termination_by value => sizeOf value
decreasing_by
  · exact sizeOf_element_lt ‹_›
  · exact sizeOf_member_lt ‹_›

/-! ## What holds of every object -/

/-- Every object in a value, at any depth, has members with the property. -/
inductive EveryObject (P : List (String × JsonValue ν) → Prop) : JsonValue ν → Prop
  | null : EveryObject P .null
  | bool (b : Bool) : EveryObject P (.bool b)
  | num (n : ν) : EveryObject P (.num n)
  | str (s : String) : EveryObject P (.str s)
  | arr (elements : List (JsonValue ν)) : (∀ e ∈ elements, EveryObject P e) →
    EveryObject P (.arr elements)
  | obj (members : List (String × JsonValue ν)) : P members →
    (∀ m ∈ members, EveryObject P m.2) → EveryObject P (.obj members)

section EveryObject

variable {P : List (String × JsonValue ν) → Prop}

theorem EveryObject.element {elements : List (JsonValue ν)} (h : EveryObject P (.arr elements)) :
    ∀ e ∈ elements, EveryObject P e := by
  cases h with
  | arr _ helements => exact helements

theorem EveryObject.here {members : List (String × JsonValue ν)}
    (h : EveryObject P (.obj members)) : P members := by
  cases h with
  | obj _ hhere _ => exact hhere

theorem EveryObject.member {members : List (String × JsonValue ν)}
    (h : EveryObject P (.obj members)) : ∀ m ∈ members, EveryObject P m.2 := by
  cases h with
  | obj _ _ hmembers => exact hmembers

end EveryObject

/-- A name occurs once in each object. -/
def WellFormed : JsonValue ν → Prop :=
  EveryObject fun members => (members.map Prod.fst).Nodup

/-! ## Equality -/

/-- Structural equality. The order of the members of an object does not matter. -/
inductive Same : JsonValue ν → JsonValue ν → Prop
  | null : Same .null .null
  | bool (b : Bool) : Same (.bool b) (.bool b)
  | num (n : ν) : Same (.num n) (.num n)
  | str (s : String) : Same (.str s) (.str s)
  | arr (xs ys : List (JsonValue ν)) : xs.length = ys.length →
    (∀ (i : ℕ) x y, xs[i]? = some x → ys[i]? = some y → Same x y) → Same (.arr xs) (.arr ys)
  | obj (xs ys : List (String × JsonValue ν)) :
    (∀ name, (xs.lookup name).isSome = (ys.lookup name).isSome) →
    (∀ name x y, xs.lookup name = some x → ys.lookup name = some y → Same x y) →
    Same (.obj xs) (.obj ys)

theorem Same.refl (x : JsonValue ν) : Same x x := by
  induction x using JsonValue.induction with
  | null => exact .null
  | bool b => exact .bool b
  | num n => exact .num n
  | str s => exact .str s
  | arr elements ih =>
    refine .arr _ _ rfl fun i x y hx hy => ?_
    obtain rfl := Option.some.inj (hx.symm.trans hy)
    exact ih x (List.mem_of_getElem? hx)
  | obj members ih =>
    refine .obj _ _ (fun _ => rfl) fun name x y hx hy => ?_
    obtain rfl := Option.some.inj (hx.symm.trans hy)
    exact ih (name, x) (Members.mem_of_lookup hx)

end JsonValue

end MatrixSdk.Lib
