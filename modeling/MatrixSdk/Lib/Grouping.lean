/-
Tables that group the elements of a set.

A set is a list without duplicates, in the order of insertion. A table maps a key to the set of the
elements of that key; an element has at most one key. Both change by one element at a time.
-/
import MatrixSdk.Lib.JsObject

set_option autoImplicit false

namespace MatrixSdk.Lib

universe u v

variable {K : Type u} {V : Type v} [DecidableEq K] [DecidableEq V]

/-! ## Sets -/

/-- `set.add(a)`. -/
def setAdd (set : List V) (a : V) : List V := if a ∈ set then set else set ++ [a]

theorem mem_setAdd {set : List V} {a b : V} : a ∈ setAdd set b ↔ a ∈ set ∨ a = b := by
  unfold setAdd
  split
  next hb => exact ⟨.inl, fun h => h.elim id fun heq => heq ▸ hb⟩
  next => rw [List.mem_append, List.mem_singleton]

theorem nodup_setAdd {set : List V} {a : V} (h : set.Nodup) : (setAdd set a).Nodup := by
  unfold setAdd
  split
  · exact h
  next ha =>
    refine List.nodup_append.2 ⟨h, List.nodup_singleton a, fun b hb c hc heq => ?_⟩
    rw [List.mem_singleton] at hc
    exact ha (hc ▸ heq ▸ hb)

/-! ## Tables -/

/-- The table maps every key to the set of those elements of `l` that have it. -/
structure Groups (table : JsObject K (List V)) (key : V → Option K) (l : List V) : Prop where
  mem : ∀ k a, a ∈ (table.get k).getD [] ↔ a ∈ l ∧ key a = some k
  nodup : ∀ k, ((table.get k).getD []).Nodup

variable {table : JsObject K (List V)} {key key' : V → Option K} {l : List V} {a : V} {k : K}

section

omit [DecidableEq K] [DecidableEq V]

theorem groups_empty : Groups (JsObject.empty : JsObject K (List V)) key [] :=
  ⟨fun _ _ => iff_of_false List.not_mem_nil fun h => absurd h.1 List.not_mem_nil,
    fun _ => List.nodup_nil⟩

theorem Groups.congr (h : Groups table key l) (hkey : ∀ a ∈ l, key' a = key a) :
    Groups table key' l := by
  refine ⟨fun k a => ?_, h.nodup⟩
  rw [h.mem]
  exact and_congr_right fun ha => by rw [hkey a ha]

/-- The set of a key of some element is in the table. -/
theorem Groups.isSome (h : Groups table key l) (ha : a ∈ l) (hk : key a = some k) :
    (table.get k).isSome := by
  have hmem := (h.mem k a).2 ⟨ha, hk⟩
  cases hget : table.get k with
  | none =>
    rw [hget] at hmem
    exact absurd hmem List.not_mem_nil
  | some set => rfl

end

/-- An element is added to the set of its key. -/
theorem Groups.add (h : Groups table key l) (hk : key a = some k) :
    Groups (table.set k (setAdd ((table.get k).getD []) a)) key (l ++ [a]) := by
  refine ⟨fun k' b => ?_, fun k' => ?_⟩
  · rw [JsObject.get_set, List.mem_append, List.mem_singleton]
    by_cases hk' : k' = k
    · rw [if_pos hk', Option.getD_some, mem_setAdd, h.mem, hk']
      constructor
      · rintro (⟨hb, hkb⟩ | rfl)
        · exact ⟨.inl hb, hkb⟩
        · exact ⟨.inr rfl, hk⟩
      · rintro ⟨hb | rfl, hkb⟩
        · exact .inl ⟨hb, hkb⟩
        · exact .inr rfl
    · rw [if_neg hk', h.mem]
      constructor
      · exact fun ⟨hb, hkb⟩ => ⟨.inl hb, hkb⟩
      · rintro ⟨hb | rfl, hkb⟩
        · exact ⟨hb, hkb⟩
        · exact absurd (Option.some.inj (hkb.symm.trans hk)) hk'
  · rw [JsObject.get_set]
    split
    · exact nodup_setAdd (h.nodup k)
    · exact h.nodup k'

omit [DecidableEq K] [DecidableEq V] in
/-- An element that has no key is not in the table. -/
theorem Groups.add_none (h : Groups table key l) (hk : key a = none) :
    Groups table key (l ++ [a]) := by
  refine ⟨fun k b => ?_, h.nodup⟩
  rw [h.mem, List.mem_append, List.mem_singleton]
  constructor
  · exact fun ⟨hb, hkb⟩ => ⟨.inl hb, hkb⟩
  · rintro ⟨hb | rfl, hkb⟩
    · exact ⟨hb, hkb⟩
    · exact nomatch hkb.symm.trans hk

/-- An element is deleted from the set of its key. -/
theorem Groups.erase (h : Groups table key l) (hl : l.Nodup) (hk : key a = some k) :
    Groups (table.set k (((table.get k).getD []).erase a)) key (l.erase a) := by
  refine ⟨fun k' b => ?_, fun k' => ?_⟩
  · rw [JsObject.get_set, hl.mem_erase_iff]
    by_cases hk' : k' = k
    · rw [if_pos hk', Option.getD_some, (h.nodup k).mem_erase_iff, h.mem, hk', and_assoc]
    · rw [if_neg hk', h.mem]
      constructor
      · rintro ⟨hb, hkb⟩
        refine ⟨⟨fun heq => ?_, hb⟩, hkb⟩
        rw [heq, hk] at hkb
        exact hk' (Option.some.inj hkb).symm
      · exact fun ⟨⟨_, hb⟩, hkb⟩ => ⟨hb, hkb⟩
  · rw [JsObject.get_set]
    split
    · exact (h.nodup k).erase a
    · exact h.nodup k'

omit [DecidableEq K] in
theorem Groups.erase_none (h : Groups table key l) (hl : l.Nodup) (hk : key a = none) :
    Groups table key (l.erase a) := by
  refine ⟨fun k b => ?_, h.nodup⟩
  rw [h.mem, hl.mem_erase_iff]
  constructor
  · rintro ⟨hb, hkb⟩
    refine ⟨⟨fun heq => ?_, hb⟩, hkb⟩
    rw [heq, hk] at hkb
    exact nomatch hkb
  · exact fun ⟨⟨_, hb⟩, hkb⟩ => ⟨hb, hkb⟩

end MatrixSdk.Lib
