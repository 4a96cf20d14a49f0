/-
The members of an object as a list of names and values, where a name stands for the first value with
it: reading, leaving out and setting.
-/
import Mathlib.Data.List.Nodup
import Mathlib.Data.Nat.Notation

set_option autoImplicit false

namespace MatrixSdk.Lib.Members

universe u v

variable {α : Type u} {β : Type v} [DecidableEq α] {members : List (α × β)}

/-! ## Reading -/

theorem mem_of_lookup {name : α} {value : β} (h : members.lookup name = some value) :
    (name, value) ∈ members := by
  obtain ⟨before, after, rfl, -⟩ := List.lookup_eq_some_iff.1 h
  exact List.mem_append_right _ List.mem_cons_self

theorem lookup_isSome_of_mem {m : α × β} (h : m ∈ members) : (members.lookup m.1).isSome :=
  List.lookup_isSome_iff.2 ⟨m, h, beq_self_eq_true m.1⟩

/-- Where a name occurs once, it is looked up. -/
theorem lookup_of_mem (hnodup : (members.map Prod.fst).Nodup) {name : α} {value : β}
    (h : (name, value) ∈ members) : members.lookup name = some value := by
  obtain ⟨value', hvalue'⟩ := Option.isSome_iff_exists.1 (lookup_isSome_of_mem h)
  obtain heq := List.inj_on_of_nodup_map hnodup h (mem_of_lookup hvalue') rfl
  rw [hvalue', (Prod.mk.inj heq).2]

/-! ## Leaving out -/

theorem lookup_filter (p : α → Bool) (members : List (α × β)) (name : α) :
    (members.filter fun m => p m.1).lookup name = if p name then members.lookup name else none := by
  induction members with
  | nil => rw [List.filter_nil, List.lookup_nil, ite_self]
  | cons m members ih =>
    rw [List.filter_cons, List.lookup_cons]
    by_cases hname : name = m.1
    · subst hname
      rw [beq_self_eq_true]
      by_cases hp : p m.1
      · rw [if_pos hp, if_pos hp, List.lookup_cons, beq_self_eq_true]
      · rw [if_neg hp, if_neg hp, ih, if_neg hp]
    · rw [beq_eq_false_iff_ne.2 hname]
      split
      · rw [List.lookup_cons, beq_eq_false_iff_ne.2 hname]
        exact ih
      · exact ih

/-- `delete o[name]` -/
def delete (members : List (α × β)) (name : α) : List (α × β) :=
  members.filter fun m => m.1 ≠ name

theorem lookup_delete (members : List (α × β)) (name name' : α) :
    (delete members name).lookup name' = if name' = name then none else members.lookup name' := by
  rw [delete, lookup_filter fun n => decide (n ≠ name)]
  by_cases hname : name' = name
  · rw [if_pos hname, if_neg (by simpa using hname)]
  · rw [if_neg hname, if_pos (by simpa using hname)]

/-! ## Setting -/

/-- `o[name] = value` -/
def set (members : List (α × β)) (name : α) (value : β) : List (α × β) :=
  if (members.lookup name).isSome then
    members.map fun m => if m.1 = name then (name, value) else m
  else members ++ [(name, value)]

theorem lookup_map_set (members : List (α × β)) (name : α) (value : β) (name' : α) :
    (members.map fun m => if m.1 = name then (name, value) else m).lookup name' =
      if name' = name then (members.lookup name).map fun _ => value else members.lookup name' := by
  induction members with
  | nil =>
    rw [List.map_nil, List.lookup_nil, List.lookup_nil]
    exact (ite_self _).symm
  | cons m members ih =>
    have hfirst : (if m.1 = name then (name, value) else m).1 = m.1 := by
      by_cases hm : m.1 = name
      · rw [if_pos hm, hm]
      · rw [if_neg hm]
    rw [List.map_cons, List.lookup_cons, List.lookup_cons, List.lookup_cons, hfirst, ih]
    by_cases hname : name' = name
    · rw [if_pos hname, if_pos hname, hname]
      by_cases hm : name = m.1
      · rw [hm, beq_self_eq_true, if_pos rfl]
        rfl
      · rw [beq_eq_false_iff_ne.2 hm]
    · rw [if_neg hname, if_neg hname]
      by_cases hm : name' = m.1
      · rw [hm, beq_self_eq_true, if_neg (hm ▸ hname)]
      · rw [beq_eq_false_iff_ne.2 hm]

theorem lookup_set (members : List (α × β)) (name : α) (value : β) (name' : α) :
    (set members name value).lookup name' =
      if name' = name then some value else members.lookup name' := by
  rw [set]
  cases hlookup : members.lookup name with
  | some value' =>
    rw [if_pos Option.isSome_some, lookup_map_set, hlookup]
    rfl
  | none =>
    rw [if_neg nofun, List.lookup_append, List.lookup_cons]
    by_cases hname : name' = name
    · rw [if_pos hname, hname, hlookup, beq_self_eq_true]
      rfl
    · rw [if_neg hname, beq_eq_false_iff_ne.2 hname]
      exact Option.or_none

end MatrixSdk.Lib.Members
