/-
Object stores of a database: records that are found by a key, which is part of the record, and that
a cursor meets in the order of their keys.

The order is a field of the type, so that no store has two records for a key. What a store contains
after an operation is said for its members ([`ObjectStore.mem_put`], [`ObjectStore.mem_delete`]).
-/
import Mathlib.Data.List.Sort

set_option autoImplicit false

namespace MatrixSdk.Lib

universe u v

/-- An object store. -/
structure ObjectStore {Record : Type u} {Key : Type v} [LinearOrder Key]
    (keyPath : Record → Key) where
  /-- The records as a cursor meets them. -/
  records : List Record
  sorted : records.Pairwise fun a b => keyPath a < keyPath b

namespace ObjectStore

variable {Record : Type u} {Key : Type v} [LinearOrder Key] {keyPath : Record → Key}
  {s : ObjectStore keyPath}

def empty : ObjectStore keyPath := ⟨[], .nil⟩

/-- The record for a key. -/
def get (s : ObjectStore keyPath) (key : Key) : Option Record :=
  s.records.find? fun record => keyPath record = key

/-- The store without a key. -/
def delete (s : ObjectStore keyPath) (key : Key) : ObjectStore keyPath :=
  ⟨s.records.filter fun record => keyPath record ≠ key, s.sorted.filter _⟩

/-- A record with a new key goes to its place. -/
theorem pairwise_orderedInsert {records : List Record}
    (hsorted : records.Pairwise fun a b => keyPath a < keyPath b) {record : Record}
    (hnew : ∀ other ∈ records, keyPath other ≠ keyPath record) :
    (records.orderedInsert (fun a b => keyPath a < keyPath b) record).Pairwise
      fun a b => keyPath a < keyPath b := by
  induction records with
  | nil => simp
  | cons other records ih =>
    rw [List.pairwise_cons] at hsorted
    have hne : keyPath other ≠ keyPath record := hnew other List.mem_cons_self
    by_cases hlt : keyPath record < keyPath other
    · rw [List.orderedInsert_cons, if_pos hlt, List.pairwise_cons, List.pairwise_cons]
      refine ⟨fun a ha => ?_, hsorted⟩
      rcases List.mem_cons.1 ha with rfl | ha
      · exact hlt
      · exact hlt.trans (hsorted.1 a ha)
    · rw [List.orderedInsert_cons, if_neg hlt, List.pairwise_cons]
      refine ⟨fun a ha => ?_, ih hsorted.2 fun a ha => hnew a (List.mem_cons_of_mem _ ha)⟩
      rcases (List.mem_orderedInsert _).1 ha with rfl | ha
      · exact lt_of_le_of_ne (not_lt.1 hlt) hne
      · exact hsorted.1 a ha

/-- The store with a record, in place of the one with its key. -/
def put (s : ObjectStore keyPath) (record : Record) : ObjectStore keyPath :=
  ⟨(s.delete (keyPath record)).records.orderedInsert (fun a b => keyPath a < keyPath b) record,
    pairwise_orderedInsert (s.delete (keyPath record)).sorted fun other hother => by
      simpa using (List.mem_filter.1 hother).2⟩

/-- `put`, unless there is a record with the key. -/
def add (s : ObjectStore keyPath) (record : Record) : Option (ObjectStore keyPath) :=
  match s.get (keyPath record) with
  | some _ => none
  | none => some (s.put record)

/-! ## What a store contains -/

instance : Membership Record (ObjectStore keyPath) := ⟨fun s record => record ∈ s.records⟩

theorem mem_records {record : Record} : record ∈ s.records ↔ record ∈ s :=
  Iff.rfl

theorem not_mem_empty (record : Record) : record ∉ (empty : ObjectStore keyPath) :=
  List.not_mem_nil

@[simp] theorem mem_delete {s : ObjectStore keyPath} {key : Key} {record : Record} :
    record ∈ s.delete key ↔ record ∈ s ∧ keyPath record ≠ key := by
  show record ∈ s.records.filter _ ↔ _
  simp [mem_records]

@[simp] theorem mem_put {s : ObjectStore keyPath} {record other : Record} :
    other ∈ s.put record ↔ other = record ∨ other ∈ s ∧ keyPath other ≠ keyPath record := by
  rw [← mem_delete]
  exact List.mem_orderedInsert _

/-- The records have different keys. -/
theorem nodup_keys (s : ObjectStore keyPath) : (s.records.map keyPath).Nodup :=
  List.Pairwise.map keyPath (fun _ _ hlt => hlt.ne) s.sorted

theorem nodup_records (s : ObjectStore keyPath) : s.records.Nodup :=
  s.nodup_keys.of_map

theorem eq_of_key {a b : Record} (ha : a ∈ s) (hb : b ∈ s) (h : keyPath a = keyPath b) : a = b :=
  List.inj_on_of_nodup_map s.nodup_keys ha hb h

theorem get_eq_some_iff {key : Key} {record : Record} :
    s.get key = some record ↔ record ∈ s ∧ keyPath record = key := by
  constructor
  · intro h
    exact ⟨List.mem_of_find?_eq_some h, by simpa using List.find?_some h⟩
  · rintro ⟨hmem, rfl⟩
    cases hget : s.get (keyPath record) with
    | none =>
      have hcontra := List.find?_eq_none.1 hget record hmem
      simp at hcontra
    | some other =>
      have hkey : keyPath other = keyPath record := by simpa using List.find?_some hget
      rw [eq_of_key (List.mem_of_find?_eq_some hget) hmem hkey]

theorem get_eq_none_iff {key : Key} : s.get key = none ↔ ∀ record ∈ s, keyPath record ≠ key := by
  simp [get, List.find?_eq_none, mem_records]

theorem get_put (s : ObjectStore keyPath) (record : Record) (key : Key) :
    (s.put record).get key = if key = keyPath record then some record else s.get key := by
  split
  · next hkey =>
      rw [get_eq_some_iff, mem_put]
      exact ⟨.inl rfl, hkey.symm⟩
  · next hkey =>
      cases hget : s.get key with
      | none =>
        rw [get_eq_none_iff] at hget ⊢
        intro other hother
        rcases mem_put.1 hother with rfl | hother
        · exact fun hcontra => hkey hcontra.symm
        · exact hget other hother.1
      | some other =>
        rw [get_eq_some_iff] at hget ⊢
        refine ⟨mem_put.2 (.inr ⟨hget.1, ?_⟩), hget.2⟩
        rw [hget.2]
        exact hkey

/-- A record can be added if its key is new. -/
theorem add_eq_some {record : Record} (h : ∀ other ∈ s, keyPath other ≠ keyPath record) :
    s.add record = some (s.put record) := by
  rw [add, get_eq_none_iff.2 h]

end ObjectStore

end MatrixSdk.Lib
