/-
The tables of a container of annotations.

They group its relations by key and by sender ([`Grouped`]). A relation is put into the container
and its tables, or taken out of them. Names that plain objects inherit are not found to be missing,
and what is found instead is no set.
-/
import MatrixSdk.Models.Relations

set_option autoImplicit false

namespace MatrixSdk.Models

open MatrixSdk.Lib

/-! ## Grouping -/

/-- The key of an annotation, if it has one. -/
def annotationKey (event : String → MatrixEvent) (e : String) : Option String :=
  ((event e).getRelation.map RelatesTo.key).filter (· ≠ "")

/-- The sender of an annotation with a key. -/
def annotationSender (event : String → MatrixEvent) (e : String) : Option String :=
  (annotationKey event e).map fun _ => (event e).sender

/-- **The tables group the relations** by key and by sender, and list the keys by how many relations
they have. A relation without a key is in none of them. -/
structure Grouped (event : String → MatrixEvent) (r : Relations) : Prop where
  nodup : r.relations.Nodup
  byKey : Groups r.annotationsByKey (annotationKey event) r.relations
  bySender : Groups r.annotationsBySender (annotationSender event) r.relations
  nodupSorted : r.sortedAnnotationsByKey.Nodup
  memSorted : ∀ key, key ∈ r.sortedAnnotationsByKey ↔ (r.annotationsByKey.get key).isSome
  sorted : r.sortedAnnotationsByKey.Pairwise fun a b => r.keySize b ≤ r.keySize a

variable {event event' : String → MatrixEvent} {r : Relations} {e key sender : String}

theorem grouped_new : Grouped event .new :=
  ⟨List.nodup_nil, groups_empty, groups_empty, List.nodup_nil,
    fun _ => iff_of_false List.not_mem_nil Bool.false_ne_true, List.Pairwise.nil⟩

/-- Only the relations' own keys and senders matter. -/
theorem Grouped.congr (h : Grouped event r)
    (hkey : ∀ e ∈ r.relations, annotationKey event' e = annotationKey event e)
    (hsender : ∀ e ∈ r.relations, (event' e).sender = (event e).sender) : Grouped event' r := by
  refine ⟨h.nodup, h.byKey.congr hkey, h.bySender.congr fun e he => ?_, h.nodupSorted, h.memSorted,
    h.sorted⟩
  rw [annotationSender, annotationSender, hkey e he, hsender e he]

/-- The target makes no difference to the tables. -/
theorem Grouped.setTarget (h : Grouped event r) (target : Option String) :
    Grouped event { r with targetEvent := target } :=
  ⟨h.nodup, h.byKey, h.bySender, h.nodupSorted, h.memSorted, h.sorted⟩

theorem sortByKeySize_sorted (r : Relations) :
    r.sortByKeySize.sortedAnnotationsByKey.Perm r.sortedAnnotationsByKey ∧
      r.sortByKeySize.sortedAnnotationsByKey.Pairwise fun a b => r.keySize b ≤ r.keySize a := by
  refine ⟨List.perm_insertionSort .., ?_⟩
  have : Std.Total fun a b => r.keySize b ≤ r.keySize a := ⟨fun a b => Nat.le_total ..⟩
  have : IsTrans String fun a b => r.keySize b ≤ r.keySize a := ⟨fun a b c hab hbc => hbc.trans hab⟩
  exact List.pairwise_insertionSort _ _

/-- What has tables that group, and a list of the keys, groups once the list is sorted. -/
theorem grouped_sortByKeySize (hnodup : r.relations.Nodup)
    (hkey : Groups r.annotationsByKey (annotationKey event) r.relations)
    (hsender : Groups r.annotationsBySender (annotationSender event) r.relations)
    (hnodup' : r.sortedAnnotationsByKey.Nodup)
    (hmem : ∀ key, key ∈ r.sortedAnnotationsByKey ↔ (r.annotationsByKey.get key).isSome) :
    Grouped event r.sortByKeySize := by
  obtain ⟨hperm, hsorted⟩ := sortByKeySize_sorted r
  exact ⟨hnodup, hkey, hsender, hperm.nodup_iff.2 hnodup', fun key => hperm.mem_iff.trans (hmem key),
    hsorted⟩

/-- The event is put into the set of its key and into that of its sender, unless a name is found to
be inherited. -/
theorem addAnnotationToAggregation_eq {r' : Relations} (hempty : key ≠ "")
    (h : r.addAnnotationToAggregation e key sender = .ok r') : r' = { r with
        annotationsByKey := r.annotationsByKey.set key
          (setAdd ((r.annotationsByKey.get key).getD []) e)
        sortedAnnotationsByKey := if (r.annotationsByKey.get key).isSome
          then r.sortedAnnotationsByKey
          else r.sortedAnnotationsByKey ++ [key]
        annotationsBySender := r.annotationsBySender.set sender
          (setAdd ((r.annotationsBySender.get sender).getD []) e) }.sortByKeySize := by
  unfold Relations.addAnnotationToAggregation at h
  rw [if_neg hempty] at h
  cases hkey : r.annotationsByKey.lookup key with
  | inherited =>
    rw [hkey] at h
    exact nomatch h
  | own eventsForKey =>
    rw [hkey] at h
    rw [JsObject.get_of_lookup_own hkey]
    simp only [Except.bind, Relations.sortByKeySize] at h
    cases hsender : r.annotationsBySender.lookup sender with
    | inherited =>
      rw [hsender] at h
      exact nomatch h
    | own eventsFromSender =>
      rw [hsender] at h
      rw [JsObject.get_of_lookup_own hsender]
      exact (Except.ok.inj h).symm
    | missing =>
      rw [hsender] at h
      rw [JsObject.get_of_lookup_missing hsender]
      exact (Except.ok.inj h).symm
  | missing =>
    rw [hkey] at h
    rw [JsObject.get_of_lookup_missing hkey]
    simp only [Except.bind, Relations.sortByKeySize] at h
    cases hsender : r.annotationsBySender.lookup sender with
    | inherited =>
      rw [hsender] at h
      exact nomatch h
    | own eventsFromSender =>
      rw [hsender] at h
      rw [JsObject.get_of_lookup_own hsender]
      exact (Except.ok.inj h).symm
    | missing =>
      rw [hsender] at h
      rw [JsObject.get_of_lookup_missing hsender]
      exact (Except.ok.inj h).symm

/-- With names that are not inherited it goes well. -/
theorem addAnnotationToAggregation_ok (hkey : key ∉ JsObject.inheritedNames)
    (hsender : sender ∉ JsObject.inheritedNames) :
    ∃ r', r.addAnnotationToAggregation e key sender = .ok r' := by
  unfold Relations.addAnnotationToAggregation
  split
  · exact ⟨r, rfl⟩
  · rw [JsObject.lookup_of_not_inherited hkey]
    cases r.annotationsByKey.get key with
    | none =>
      simp only [Except.bind, Relations.sortByKeySize, JsObject.lookup_of_not_inherited hsender]
      cases r.annotationsBySender.get sender <;> exact ⟨_, rfl⟩
    | some eventsForKey =>
      simp only [Except.bind, Relations.sortByKeySize, JsObject.lookup_of_not_inherited hsender]
      cases r.annotationsBySender.get sender <;> exact ⟨_, rfl⟩

variable {relation : RelatesTo}

/-- **Adding an annotation.** -/
theorem Grouped.add {r' : Relations} (h : Grouped event r) (he : e ∉ r.relations)
    (hrelation : (event e).getRelation = some relation)
    (hadd : ({ r with relations := r.relations ++ [e] } : Relations).addAnnotationToAggregation e
      relation.key (event e).sender = .ok r') :
    Grouped event r' ∧ r'.relations = r.relations ++ [e] ∧ r'.targetEvent = r.targetEvent := by
  have hnodup : (r.relations ++ [e]).Nodup := by
    refine List.nodup_append.2 ⟨h.nodup, List.nodup_singleton e, fun a ha b hb heq => ?_⟩
    rw [List.mem_singleton] at hb
    exact he (hb ▸ heq ▸ ha)
  have hekey : annotationKey event e = (some relation.key).filter (· ≠ "") := by
    rw [annotationKey, hrelation]
    rfl
  by_cases hempty : relation.key = ""
  · -- it is in none of the tables
    have hnone : annotationKey event e = none := by
      rw [hekey, hempty]
      rfl
    have hnone' : annotationSender event e = none := by
      rw [annotationSender, hnone]
      rfl
    unfold Relations.addAnnotationToAggregation at hadd
    rw [if_pos hempty] at hadd
    obtain rfl := Except.ok.inj hadd
    exact ⟨⟨hnodup, h.byKey.add_none hnone, h.bySender.add_none hnone',
      h.nodupSorted, h.memSorted, h.sorted⟩, rfl, rfl⟩
  · have hsome : annotationKey event e = some relation.key := by
      rw [hekey, Option.filter_some, if_pos (decide_eq_true hempty)]
    have hsome' : annotationSender event e = some (event e).sender := by
      rw [annotationSender, hsome]
      rfl
    obtain rfl := addAnnotationToAggregation_eq hempty hadd
    refine ⟨grouped_sortByKeySize hnodup (h.byKey.add hsome) (h.bySender.add hsome') ?_
      fun key => ?_, rfl, rfl⟩
    · dsimp only
      split
      · exact h.nodupSorted
      next hmissing =>
        refine List.nodup_append.2 ⟨h.nodupSorted, List.nodup_singleton _, fun a ha b hb heq => ?_⟩
        rw [List.mem_singleton] at hb
        exact hmissing ((h.memSorted _).1 (hb ▸ heq ▸ ha))
    · dsimp only
      rw [JsObject.get_set]
      by_cases hk : key = relation.key
      · rw [if_pos hk]
        refine iff_of_true ?_ rfl
        split
        next hthere => exact (h.memSorted key).2 (hk ▸ hthere)
        next => exact List.mem_append_right _ (List.mem_singleton.2 hk)
      · rw [if_neg hk, ← h.memSorted key]
        split
        · rfl
        · rw [List.mem_append, List.mem_singleton]
          exact or_iff_left hk

/-- **Removing an annotation.** Its sets are there. -/
theorem Grouped.remove (h : Grouped event r) (he : e ∈ r.relations)
    (hrelation : (event e).getRelation = some relation) :
    ∃ r', ({ r with relations := r.relations.erase e } : Relations).removeAnnotationFromAggregation
        e relation.key (event e).sender = .ok r' ∧
      Grouped event r' ∧ r'.relations = r.relations.erase e ∧
      r'.targetEvent = r.targetEvent := by
  have hekey : annotationKey event e = (some relation.key).filter (· ≠ "") := by
    rw [annotationKey, hrelation]
    rfl
  by_cases hempty : relation.key = ""
  · have hnone : annotationKey event e = none := by
      rw [hekey, hempty]
      rfl
    have hnone' : annotationSender event e = none := by
      rw [annotationSender, hnone]
      rfl
    exact ⟨_, if_pos hempty, ⟨h.nodup.erase e, h.byKey.erase_none h.nodup hnone,
      h.bySender.erase_none h.nodup hnone', h.nodupSorted, h.memSorted, h.sorted⟩, rfl, rfl⟩
  · have hsome : annotationKey event e = some relation.key := by
      rw [hekey, Option.filter_some, if_pos (decide_eq_true hempty)]
    have hsome' : annotationSender event e = some (event e).sender := by
      rw [annotationSender, hsome]
      rfl
    obtain ⟨forKey, hforKey⟩ := Option.isSome_iff_exists.1 (h.byKey.isSome he hsome)
    obtain ⟨fromSender, hfromSender⟩ := Option.isSome_iff_exists.1 (h.bySender.isSome he hsome')
    have hbyKey := h.byKey.erase h.nodup hsome
    have hbySender := h.bySender.erase h.nodup hsome'
    rw [hforKey, Option.getD_some] at hbyKey
    rw [hfromSender, Option.getD_some] at hbySender
    have hgrouped := @grouped_sortByKeySize event { r with
      relations := r.relations.erase e
      annotationsByKey := r.annotationsByKey.set relation.key (forKey.erase e)
      annotationsBySender := r.annotationsBySender.set (event e).sender (fromSender.erase e) }
      (h.nodup.erase e) hbyKey hbySender h.nodupSorted
    refine ⟨_, ?_, hgrouped fun key => ?_, rfl, rfl⟩
    · unfold Relations.removeAnnotationFromAggregation JsObject.lookup
      rw [if_neg hempty]
      simp only [hforKey, hfromSender, Except.bind, Relations.sortByKeySize]
      rfl
    · dsimp only
      rw [h.memSorted, JsObject.get_set]
      split
      next hk => rw [hk, hforKey]; rfl
      next => rfl

end MatrixSdk.Models
