/-
Objects of objects, `{ $key: { $inner_key: value } }`.

Such an object is filled value by value, and an inner object is made when it gets its first one. It can
be written out as a list.
-/
import MatrixSdk.Lib.JsObject

set_option autoImplicit false

namespace MatrixSdk.Lib

universe u v w

namespace JsObject

variable {K : Type u} {K' : Type v} {V : Type w} [DecidableEq K'] {o : JsObject K (JsObject K' V)}
  {k : K} {k' : K'}

/-! ## Values -/

/-- `o[k][k']`, if there is an `o[k]`. -/
def getIn (o : JsObject K (JsObject K' V)) (k : K) (k' : K') : Option V :=
  (o.get k).bind fun inner => inner.get k'

/-- All values, with their keys. -/
def flatten (o : JsObject K (JsObject K' V)) : List (K × K' × V) :=
  o.entries.flatMap fun e => e.2.entries.map fun e' => (e.1, e'.1, e'.2)

/-- The pairs of keys in order. -/
def positions (o : JsObject K (JsObject K' V)) : List (K × K') :=
  o.keys.flatMap fun k => ((o.get k).elim [] keys).map fun k' => (k, k')

section

omit [DecidableEq K']

@[simp] theorem mem_flatten {v : V} : (k, k', v) ∈ o.flatten ↔ o.getIn k k' = some v := by
  unfold flatten getIn
  simp only [List.mem_flatMap, List.mem_map, Prod.exists, mem_entries, Prod.mk.injEq]
  constructor
  · rintro ⟨k, inner, hinner, k', v, hget, rfl, rfl, rfl⟩
    rw [hinner]
    exact hget
  · intro h
    obtain ⟨inner, hinner, hget⟩ := Option.bind_eq_some_iff.1 h
    exact ⟨k, inner, hinner, k', v, hget, rfl, rfl, rfl⟩

theorem mem_positions : (k, k') ∈ o.positions ↔ (o.getIn k k').isSome := by
  unfold positions getIn
  simp only [List.mem_flatMap, List.mem_map, Prod.mk.injEq]
  constructor
  · rintro ⟨k, -, k', hmem, rfl, rfl⟩
    cases hinner : o.get k with
    | none =>
      rw [hinner] at hmem
      exact absurd hmem List.not_mem_nil
    | some inner =>
      rw [hinner] at hmem
      exact (inner.mem_keys k').1 hmem
  · intro h
    obtain ⟨v, hv⟩ := Option.isSome_iff_exists.1 h
    obtain ⟨inner, hinner, hget⟩ := Option.bind_eq_some_iff.1 hv
    refine ⟨k, mem_keys_of_get hinner, k', ?_, rfl, rfl⟩
    rw [hinner]
    exact mem_keys_of_get hget

/-- The values are listed by the keys. -/
theorem flatten_eq (o : JsObject K (JsObject K' V)) :
    o.flatten = o.positions.filterMap fun p => (o.getIn p.1 p.2).map fun v => (p.1, p.2, v) := by
  have hinner : ∀ k, (((o.get k).map fun inner => (k, inner)).elim [] fun e =>
      e.2.entries.map fun e' => (e.1, e'.1, e'.2)) =
      (((o.get k).elim [] keys).map fun k' => (k, k')).filterMap fun p =>
        (o.getIn p.1 p.2).map fun v => (p.1, p.2, v) := by
    intro k
    unfold getIn
    cases hinner : o.get k with
    | none => rfl
    | some inner =>
      simp only [Option.map_some, Option.elim_some, entries, List.filterMap_map,
        List.map_filterMap]
      refine List.filterMap_congr fun k' _ => ?_
      simp only [Function.comp_apply, hinner, Option.bind_some, Option.map_map]
      rfl
  unfold flatten positions
  rw [List.filterMap_flatMap, entries]
  generalize o.keys = ks
  induction ks with
  | nil => rfl
  | cons k ks ih =>
    rw [List.flatMap_cons, ← hinner, ← ih, List.filterMap_cons]
    cases o.get k <;> rfl

theorem positions_nodup (o : JsObject K (JsObject K' V)) : o.positions.Nodup := by
  unfold positions
  refine List.nodup_flatMap.2 ⟨fun k _ => ?_, o.nodup.imp fun hne => ?_⟩
  · refine List.Nodup.map (fun a b hab => (Prod.mk.inj hab).2) ?_
    cases o.get k with
    | none => exact List.nodup_nil
    | some inner => exact inner.nodup
  · refine List.disjoint_left.2 ?_
    rintro ⟨a, b⟩ ha hb
    obtain ⟨_, -, heq⟩ := List.mem_map.1 ha
    obtain ⟨_, -, heq'⟩ := List.mem_map.1 hb
    exact hne ((Prod.mk.inj heq).1.trans (Prod.mk.inj heq').1.symm)

end

/-! ## Filling an object -/

variable [DecidableEq K]

/-- `o[k][k'] = v`, where `o[k]` is made if it is missing. -/
def setIn (o : JsObject K (JsObject K' V)) (k : K) (k' : K') (v : V) : JsObject K (JsObject K' V) :=
  o.set k (((o.get k).getD .empty).set k' v)

theorem getIn_setIn (o : JsObject K (JsObject K' V)) (k l : K) (k' l' : K') (v : V) :
    (o.setIn k k' v).getIn l l' = if l = k ∧ l' = k' then some v else o.getIn l l' := by
  unfold setIn getIn
  rw [get_set]
  by_cases hk : l = k
  · subst hk
    rw [if_pos rfl, Option.bind_some, get_set]
    by_cases hk' : l' = k'
    · rw [if_pos hk', if_pos ⟨rfl, hk'⟩]
    · rw [if_neg hk', if_neg fun h => hk' h.2]
      cases o.get l <;> rfl
  · rw [if_neg hk, if_neg fun h => hk h.1]

end JsObject

end MatrixSdk.Lib
