/-
String-keyed JavaScript objects used as dictionaries.

The only two things a program can see of such an object are what a key maps to
and the order `Object.keys` lists the keys in. Assigning to a key that is there
keeps its place, assigning to a new one puts it last, and a deleted key that is
assigned again comes back last. The list of keys and the lookup function are
kept together with the proof that they agree, so no other state can be built.

Keys that look like array indices, which an engine lists first and in numeric
order, are outside this picture. Names inherited from `Object.prototype` are what
`lookup` finds and `get` does not.
-/
import Mathlib.Data.List.Nodup
import Mathlib.Logic.Function.Basic

set_option autoImplicit false

namespace MatrixSdk.Lib

universe u v w

/-- A dictionary object: its own keys in enumeration order, and what they map to. -/
structure JsObject (K : Type u) (V : Type v) where
  /-- `Object.keys`. -/
  keys : List K
  /-- What a key maps to; `none` stands for `undefined`. -/
  get : K → Option V
  nodup : keys.Nodup
  mem_keys : ∀ k, k ∈ keys ↔ (get k).isSome

namespace JsObject

variable {K : Type u} {V : Type v} {W : Type w} {o : JsObject K V} {k : K} {α : Type w}

/-- `{}`. -/
def empty : JsObject K V where
  keys := []
  get _ := none
  nodup := List.nodup_nil
  mem_keys k := by simp

instance : Inhabited (JsObject K V) := ⟨empty⟩

@[simp] theorem get_empty (k : K) : (empty : JsObject K V).get k = none := rfl
@[simp] theorem keys_empty : (empty : JsObject K V).keys = [] := rfl

theorem mem_keys_iff : k ∈ o.keys ↔ ∃ v, o.get k = some v := by
  rw [o.mem_keys, Option.isSome_iff_exists]

theorem mem_keys_of_get {v : V} (h : o.get k = some v) : k ∈ o.keys :=
  mem_keys_iff.2 ⟨v, h⟩

theorem get_eq_none_iff : o.get k = none ↔ k ∉ o.keys := by
  rw [o.mem_keys, Option.not_isSome_iff_eq_none]

/-- Apply `f` to every value; the keys stay where they are. -/
def map (f : K → V → W) (o : JsObject K V) : JsObject K W where
  keys := o.keys
  get k := (o.get k).map (f k)
  nodup := o.nodup
  mem_keys k := by rw [o.mem_keys, Option.isSome_map]

@[simp] theorem get_map (f : K → V → W) (o : JsObject K V) (k : K) :
    (o.map f).get k = (o.get k).map (f k) := rfl

/-- Keep the entries whose key passes `p`. -/
def filter (p : K → Bool) (o : JsObject K V) : JsObject K V where
  keys := o.keys.filter p
  get k := if p k then o.get k else none
  nodup := o.nodup.filter _
  mem_keys k := by
    rw [List.mem_filter, o.mem_keys]
    cases p k <;> simp

@[simp] theorem get_filter (p : K → Bool) (o : JsObject K V) (k : K) :
    (o.filter p).get k = if p k then o.get k else none := rfl
@[simp] theorem keys_filter (p : K → Bool) (o : JsObject K V) :
    (o.filter p).keys = o.keys.filter p := rfl

/-- The own keys with what they map to, in enumeration order. -/
def entries (o : JsObject K V) : List (K × V) :=
  o.keys.filterMap fun k => (o.get k).map fun v => (k, v)

@[simp] theorem mem_entries {o : JsObject K V} {k : K} {v : V} :
    (k, v) ∈ o.entries ↔ o.get k = some v := by
  rw [entries, List.mem_filterMap]
  constructor
  · rintro ⟨k', -, hget⟩
    obtain ⟨v', hv', heq⟩ := Option.map_eq_some_iff.1 hget
    obtain ⟨rfl, rfl⟩ := Prod.mk.inj heq
    exact hv'
  · intro hget
    exact ⟨k, mem_keys_of_get hget, by rw [hget]; rfl⟩

theorem entries_nodup (o : JsObject K V) : (o.entries.map Prod.fst).Nodup := by
  have hsub : (o.entries.map Prod.fst).Sublist o.keys := by
    rw [entries, List.map_filterMap]
    have hkey : ∀ k v, (((o.get k).map fun v => (k, v)).map Prod.fst) = some v → v = k := by
      intro k v h
      cases hk : o.get k with
      | none => rw [hk] at h; exact nomatch h
      | some w => rw [hk] at h; exact (Option.some.inj h).symm
    generalize o.keys = ks
    induction ks with
    | nil => exact .slnil
    | cons k ks ih =>
      rw [List.filterMap_cons]
      split
      · exact ih.cons k
      next v hv =>
        obtain rfl := hkey k v hv
        exact ih.cons_cons v
  exact o.nodup.sublist hsub

variable [DecidableEq K]

/-- `o[k] = v`. -/
def set (o : JsObject K V) (k : K) (v : V) : JsObject K V where
  keys := if k ∈ o.keys then o.keys else o.keys ++ [k]
  get := Function.update o.get k (some v)
  nodup := by
    split
    · exact o.nodup
    · next h => exact o.nodup.append (List.nodup_singleton k) (by simpa using h)
  mem_keys k' := by
    by_cases hk : k' = k
    · subst hk
      by_cases hmem : k' ∈ o.keys <;> simp [hmem]
    · by_cases hmem : k ∈ o.keys <;> simp [hmem, hk, o.mem_keys]

/-- `delete o[k]`. -/
def delete (o : JsObject K V) (k : K) : JsObject K V := o.filter (fun k' => k' ≠ k)

theorem get_set (o : JsObject K V) (k k' : K) (v : V) :
    (o.set k v).get k' = if k' = k then some v else o.get k' :=
  Function.update_apply ..

@[simp] theorem get_set_self (o : JsObject K V) (k : K) (v : V) :
    (o.set k v).get k = some v := by
  rw [get_set, if_pos rfl]

theorem get_set_ne {k' : K} {v : V} (h : k' ≠ k) : (o.set k v).get k' = o.get k' := by
  rw [get_set, if_neg h]

theorem get_delete (o : JsObject K V) (k k' : K) :
    (o.delete k).get k' = if k' = k then none else o.get k' := by
  by_cases h : k' = k <;> simp [delete, h]

@[simp] theorem get_delete_self (o : JsObject K V) (k : K) : (o.delete k).get k = none := by
  rw [get_delete, if_pos rfl]

theorem get_delete_ne {k' : K} (h : k' ≠ k) : (o.delete k).get k' = o.get k' := by
  rw [get_delete, if_neg h]

theorem mem_keys_set {k' : K} {v : V} : k' ∈ (o.set k v).keys ↔ k' = k ∨ k' ∈ o.keys := by
  rw [mem_keys, mem_keys, get_set]
  by_cases h : k' = k <;> simp [h]

/-- `o[k].push(v)`, where a list is made for a key that has none. -/
def push {V : Type v} (o : JsObject K (List V)) (k : K) (v : V) : JsObject K (List V) :=
  o.set k ((o.get k).getD [] ++ [v])

/-- A list of values pushed one by one: each key has got those meant for it, in order. -/
theorem getD_foldl_push {V : Type v} (key : α → K) (value : α → V) (l : List α)
    (o : JsObject K (List V)) (k : K) :
    ((l.foldl (fun o a => o.push (key a) (value a)) o).get k).getD [] =
      (o.get k).getD [] ++ (l.filter fun a => key a = k).map value := by
  induction l generalizing o with
  | nil => rw [List.foldl_nil, List.filter_nil, List.map_nil, List.append_nil]
  | cons a l ih =>
    rw [List.foldl_cons, ih, push, get_set]
    by_cases hk : k = key a
    · rw [if_pos hk, List.filter_cons_of_pos (by simpa using hk.symm), ← hk]
      simp
    · rw [if_neg hk, List.filter_cons_of_neg (by simpa using fun h => hk h.symm)]

/-- Assign the same value to every key of a list, in order. -/
def setAll (o : JsObject K V) (ks : List K) (v : V) : JsObject K V :=
  ks.foldl (fun o k => o.set k v) o

theorem get_setAll (o : JsObject K V) (ks : List K) (v : V) (k : K) :
    (o.setAll ks v).get k = if k ∈ ks then some v else o.get k := by
  induction ks generalizing o with
  | nil => simp [setAll]
  | cons k' ks ih =>
    have h := ih (o.set k' v)
    simp only [setAll, List.foldl_cons] at h ⊢
    rw [h, get_set]
    by_cases hk : k ∈ ks
    · simp [hk]
    · by_cases hk' : k = k' <;> simp [hk, hk']

/-- Delete every key of a list. -/
def deleteAll (o : JsObject K V) (ks : List K) : JsObject K V :=
  ks.foldl (fun o k => o.delete k) o

theorem get_deleteAll (o : JsObject K V) (ks : List K) (k : K) :
    (o.deleteAll ks).get k = if k ∈ ks then none else o.get k := by
  induction ks generalizing o with
  | nil => simp [deleteAll]
  | cons k' ks ih =>
    have h := ih (o.delete k')
    simp only [deleteAll, List.foldl_cons] at h ⊢
    rw [h, get_delete]
    by_cases hk : k ∈ ks
    · simp [hk]
    · by_cases hk' : k = k' <;> simp [hk, hk']

theorem mem_keys_setAll {ks : List K} {v : V} : k ∈ (o.setAll ks v).keys ↔ k ∈ ks ∨ k ∈ o.keys := by
  rw [mem_keys, mem_keys, get_setAll]
  by_cases h : k ∈ ks <;> simp [h]

/-- New keys go to the end. -/
theorem keys_setAll (o : JsObject K V) (ks : List K) (v : V) :
    (o.setAll ks v).keys = ks.foldl (fun l k => if k ∈ l then l else l ++ [k]) o.keys := by
  induction ks generalizing o with
  | nil => rfl
  | cons k ks ih => exact ih (o.set k v)

theorem keys_deleteAll (o : JsObject K V) (ks : List K) :
    (o.deleteAll ks).keys = o.keys.filter fun k => k ∉ ks := by
  induction ks generalizing o with
  | nil => simp [deleteAll]
  | cons k ks ih =>
    have h := ih (o.delete k)
    simp only [deleteAll, List.foldl_cons] at h ⊢
    rw [h, delete, keys_filter, List.filter_filter]
    refine List.filter_congr fun k' _ => ?_
    simp [Bool.and_comm]

/-! ## Building an object -/

omit [DecidableEq K] in
/-- The keys in order and what they map to are all there is to an object. -/
theorem ext_keys {o' : JsObject K V} (hkeys : o.keys = o'.keys)
    (hget : ∀ k ∈ o.keys, o.get k = o'.get k) : o = o' := by
  have hall : o.get = o'.get := by
    funext k
    by_cases hk : k ∈ o.keys
    · exact hget k hk
    · rw [get_eq_none_iff.2 hk, get_eq_none_iff.2 (hkeys ▸ hk)]
  cases o
  cases o'
  simp only at hkeys hall
  subst hkeys hall
  rfl

omit [DecidableEq K] in
@[simp] theorem map_fst_entries (o : JsObject K V) : o.entries.map Prod.fst = o.keys := by
  rw [entries, List.map_filterMap]
  have hkey : ∀ k ∈ o.keys, ((o.get k).map fun v => (k, v)).map Prod.fst = some k := by
    intro k hk
    obtain ⟨v, hv⟩ := mem_keys_iff.1 hk
    rw [hv]
    rfl
  rw [List.filterMap_congr hkey, List.filterMap_some]

/-- New keys are assigned in order what `f` makes of them, if it makes something of all. -/
theorem foldlM_set (key : α → K) (f : α → Option V) (l : List α) :
    ∀ {o o' : JsObject K V}, (l.map key).Nodup → (∀ a ∈ l, key a ∉ o.keys) →
      l.foldlM (fun o a => (f a).map fun v => o.set (key a) v) o = some o' →
      o'.keys = o.keys ++ l.map key ∧ (∀ a ∈ l, o'.get (key a) = f a) ∧
        ∀ k, k ∉ l.map key → o'.get k = o.get k := by
  induction l with
  | nil =>
    intro o o' _ _ h
    obtain rfl : o = o' := Option.some.inj h
    exact ⟨(List.append_nil _).symm, fun a ha => absurd ha List.not_mem_nil, fun _ _ => rfl⟩
  | cons a l ih =>
    intro o o' hnodup hnew h
    rw [List.foldlM_cons] at h
    obtain ⟨o₁, hset, hrest⟩ := Option.bind_eq_some_iff.1 h
    obtain ⟨v, hv, rfl⟩ := Option.map_eq_some_iff.1 hset
    rw [List.map_cons, List.nodup_cons] at hnodup
    have hkey : key a ∉ o.keys := hnew a List.mem_cons_self
    have hfresh : ∀ b ∈ l, key b ∉ (o.set (key a) v).keys := by
      intro b hb hmem
      rcases mem_keys_set.1 hmem with heq | hmem
      · exact hnodup.1 (heq ▸ List.mem_map_of_mem hb)
      · exact hnew b (List.mem_cons_of_mem a hb) hmem
    obtain ⟨hkeys, hget, hother⟩ := ih hnodup.2 hfresh hrest
    refine ⟨?_, fun b hb => ?_, fun k hk => ?_⟩
    · rw [hkeys, List.map_cons, List.append_cons]
      show (if key a ∈ o.keys then o.keys else o.keys ++ [key a]) ++ l.map key = _
      rw [if_neg hkey]
    · rcases List.mem_cons.1 hb with rfl | hb
      · rw [hother _ hnodup.1, get_set_self, hv]
      · exact hget b hb
    · rw [List.map_cons, List.mem_cons, not_or] at hk
      rw [hother k hk.2, get_set_ne hk.1]

/-- The entries of an object are assigned to another one, each changed by `f`. -/
theorem foldlM_set_entries {V' : Type w} (f : K → V → Option V') {o' : JsObject K V'}
    (h : o.entries.foldlM (fun o' e => (f e.1 e.2).map fun v => o'.set e.1 v) .empty = some o') :
    o'.keys = o.keys ∧ ∀ k, o'.get k = (o.get k).bind (f k) := by
  obtain ⟨hkeys, hget, hother⟩ :=
    foldlM_set Prod.fst (fun e : K × V => f e.1 e.2) o.entries o.entries_nodup
      (fun _ _ => List.not_mem_nil) h
  refine ⟨by rw [hkeys, map_fst_entries, keys_empty, List.nil_append], fun k => ?_⟩
  cases hk : o.get k with
  | none =>
    have hnot : k ∉ o.entries.map Prod.fst := by
      rw [map_fst_entries]
      exact get_eq_none_iff.1 hk
    rw [hother k hnot, get_empty, Option.bind_none]
  | some v => exact hget (k, v) (mem_entries.2 hk)

theorem keys_set_of_mem (hk : k ∈ o.keys) (v : V) : (o.set k v).keys = o.keys :=
  if_pos hk

theorem set_set (o : JsObject K V) (k : K) (v v' : V) : (o.set k v).set k v' = o.set k v' := by
  refine ext_keys (keys_set_of_mem (mem_keys_set.2 (.inl rfl)) v') fun k' _ => ?_
  rw [get_set, get_set, get_set]
  split <;> rfl

/-- New keys are assigned in order. -/
theorem foldl_set {key : α → K} (value : α → V) {l : List α} (hnodup : (l.map key).Nodup) :
    (l.foldl (fun o a => o.set (key a) (value a)) (empty : JsObject K V)).keys = l.map key ∧
      ∀ a ∈ l, (l.foldl (fun o a => o.set (key a) (value a)) (empty : JsObject K V)).get (key a) =
        some (value a) := by
  have hpure : ∀ o : JsObject K V, l.foldlM (fun o a => ((some ∘ value) a).map fun v =>
      o.set (key a) v) o = some (l.foldl (fun o a => o.set (key a) (value a)) o) := by
    intro o
    clear hnodup
    induction l generalizing o with
    | nil => rfl
    | cons a l ih => exact ih (o.set (key a) (value a))
  obtain ⟨hkeys, hget, -⟩ := foldlM_set key (some ∘ value) l hnodup (fun _ _ => List.not_mem_nil)
    (hpure .empty)
  exact ⟨hkeys, hget⟩

/-- What is assigned in order are the entries. -/
theorem entries_foldl_set {key : α → K} (value : α → V) {l : List α} (hnodup : (l.map key).Nodup) :
    (l.foldl (fun o a => o.set (key a) (value a)) (empty : JsObject K V)).entries =
      l.map fun a => (key a, value a) := by
  obtain ⟨hkeys, hget⟩ := foldl_set value hnodup
  rw [entries, hkeys, List.filterMap_map]
  have hentry : ∀ a ∈ l, ((fun k => ((l.foldl (fun o a => o.set (key a) (value a))
      (empty : JsObject K V)).get k).map fun v => (k, v)) ∘ key) a = some (key a, value a) := by
    intro a ha
    rw [Function.comp_apply, hget a ha]
    rfl
  rw [List.filterMap_congr hentry, List.filterMap_eq_map']

/-! ## Loops with a turn for each key -/

section Turns

variable {ε : Type*} {W : Type*} {turn : K → W → Option V → Except ε (Option V)}
  {step : JsObject K V → K × W → Except ε (JsObject K V)}

/-- A step reads and writes what is under its key only, as the turn of the key does. -/
structure TurnsAt (turn : K → W → Option V → Except ε (Option V))
    (step : JsObject K V → K × W → Except ε (JsObject K V)) : Prop where
  ok : ∀ o k w v, turn k w (o.get k) = .ok v →
    ∃ o', step o (k, w) = .ok o' ∧ o'.get k = v ∧ ∀ k', k' ≠ k → o'.get k' = o.get k'
  error : ∀ o k w e, turn k w (o.get k) = .error e → ∃ e', step o (k, w) = .error e'

omit [DecidableEq K] in
/-- What a step that does not fail has made. -/
theorem TurnsAt.of_ok (h : TurnsAt turn step) {o o' : JsObject K V} {k : K} {w : W}
    (hstep : step o (k, w) = .ok o') : turn k w (o.get k) = .ok (o'.get k) ∧
      ∀ k', k' ≠ k → o'.get k' = o.get k' := by
  cases hturn : turn k w (o.get k) with
  | error e =>
    obtain ⟨e', he⟩ := h.error o k w e hturn
    exact nomatch hstep.symm.trans he
  | ok v =>
    obtain ⟨o₁, ho₁, hk, hother⟩ := h.ok o k w v hturn
    obtain rfl := Except.ok.inj (hstep.symm.trans ho₁)
    exact ⟨by rw [hk], hother⟩

omit [DecidableEq K] in
/-- **The loop treats the keys one by one**: each by its turn, from what was there at first. -/
theorem TurnsAt.foldlM_get (h : TurnsAt turn step) {l : List (K × W)} :
    ∀ {o o' : JsObject K V}, (l.map Prod.fst).Nodup → l.foldlM step o = .ok o' →
      (∀ kw ∈ l, turn kw.1 kw.2 (o.get kw.1) = .ok (o'.get kw.1)) ∧
        ∀ k, k ∉ l.map Prod.fst → o'.get k = o.get k := by
  induction l with
  | nil =>
    intro o o' _ hfold
    obtain rfl := Except.ok.inj hfold
    exact ⟨fun _ hmem => absurd hmem List.not_mem_nil, fun _ _ => rfl⟩
  | cons a l ih =>
    intro o o' hnodup hfold
    obtain ⟨hnotMem, hnodup⟩ := List.nodup_cons.1 hnodup
    rw [List.foldlM_cons] at hfold
    cases hstep : step o a with
    | error e =>
      rw [hstep] at hfold
      exact nomatch hfold
    | ok o₁ =>
      rw [hstep] at hfold
      obtain ⟨hturn, hother⟩ := h.of_ok hstep
      obtain ⟨hrest, hleft⟩ := ih hnodup hfold
      refine ⟨fun kw hmem => ?_, fun k hk => ?_⟩
      · rcases List.mem_cons.1 hmem with rfl | hmem
        · rw [hleft _ hnotMem]
          exact hturn
        · rw [← hother kw.1]
          · exact hrest kw hmem
          · rintro heq
            exact hnotMem (heq ▸ List.mem_map_of_mem hmem)
      · rw [List.map_cons, List.mem_cons, not_or] at hk
        rw [hleft k hk.2, hother k hk.1]

omit [DecidableEq K] in
/-- **The loop does not fail** when none of the turns does. -/
theorem TurnsAt.exists_foldlM_iff (h : TurnsAt turn step) {l : List (K × W)} :
    ∀ {o : JsObject K V}, (l.map Prod.fst).Nodup → ((∃ o', l.foldlM step o = .ok o') ↔
      ∀ kw ∈ l, ∃ v, turn kw.1 kw.2 (o.get kw.1) = .ok v) := by
  induction l with
  | nil =>
    intro o _
    exact iff_of_true ⟨o, rfl⟩ fun _ hmem => absurd hmem List.not_mem_nil
  | cons a l ih =>
    intro o hnodup
    constructor
    · rintro ⟨o', hfold⟩ kw hmem
      exact ⟨_, (h.foldlM_get hnodup hfold).1 kw hmem⟩
    · intro hturns
      obtain ⟨hnotMem, hnodup⟩ := List.nodup_cons.1 hnodup
      obtain ⟨v, hv⟩ := hturns a List.mem_cons_self
      obtain ⟨o₁, hstep, -, hother⟩ := h.ok o a.1 a.2 v hv
      rw [List.foldlM_cons, show step o a = .ok o₁ from hstep]
      refine (ih hnodup).2 fun kw hmem => ?_
      rw [hother kw.1]
      · exact hturns kw (List.mem_cons_of_mem a hmem)
      · rintro heq
        exact hnotMem (heq ▸ List.mem_map_of_mem hmem)

end Turns

/-! ## Inherited names -/

/-- The property names of `Object.prototype`. -/
def inheritedNames : List String :=
  ["constructor", "__defineGetter__", "__defineSetter__", "hasOwnProperty", "__lookupGetter__",
    "__lookupSetter__", "isPrototypeOf", "propertyIsEnumerable", "toString", "valueOf", "__proto__",
    "toLocaleString"]

/-- What `o[k]` gives: a value of its own, something every object has, or `undefined`. -/
inductive Lookup (V : Type v)
  | own (v : V)
  | inherited
  | missing

/-- `o[k]`. -/
def lookup (o : JsObject String V) (k : String) : Lookup V :=
  match o.get k with
  | some v => .own v
  | none => if k ∈ inheritedNames then .inherited else .missing

theorem lookup_of_not_inherited {o : JsObject String V} {k : String} (h : k ∉ inheritedNames) :
    o.lookup k = match o.get k with
      | some v => .own v
      | none => .missing := by
  unfold lookup
  rw [if_neg h]

theorem get_of_lookup_own {o : JsObject String V} {k : String} {v : V} (h : o.lookup k = .own v) :
    o.get k = some v := by
  unfold lookup at h
  split at h
  next heq =>
    injection h with h
    rw [heq, h]
  next => split at h <;> exact nomatch h

theorem get_of_lookup_missing {o : JsObject String V} {k : String} (h : o.lookup k = .missing) :
    o.get k = none := by
  unfold lookup at h
  split at h
  next => exact nomatch h
  next heq => exact heq

end JsObject

end MatrixSdk.Lib
