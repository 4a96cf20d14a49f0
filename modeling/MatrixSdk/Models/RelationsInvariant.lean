/-
What holds of the containers of a timeline set whenever no operation is running.

A container has relations of its own type, and listens to them ([`RelationsState.Inv`]). So when an
event is redacted or cancelled, which it tells its listeners one after the other, no container has
it in the end.
-/
import MatrixSdk.Models.AnnotationTables

set_option autoImplicit false

namespace MatrixSdk.Models

open MatrixSdk.Lib

/-! ## Events that change -/

/-- The events have the relations and the senders they have had. -/
def SameRelations (event event' : String → MatrixEvent) : Prop :=
  ∀ e, (event' e).getRelation = (event e).getRelation ∧ (event' e).sender = (event e).sender

theorem SameRelations.refl (event : String → MatrixEvent) : SameRelations event event :=
  fun _ => ⟨rfl, rfl⟩

variable {event event' : String → MatrixEvent}

theorem sameRelations_update {id : String} {ev : MatrixEvent}
    (hrelation : ev.getRelation = (event id).getRelation)
    (hsender : ev.sender = (event id).sender) :
    SameRelations event (Function.update event id ev) := by
  intro e
  by_cases he : e = id
  · rw [he, Function.update_self]
    exact ⟨hrelation, hsender⟩
  · rw [Function.update_of_ne he]
    exact ⟨rfl, rfl⟩

theorem Grouped.sameRelations {r : Relations} (h : Grouped event r)
    (hsame : SameRelations event event') : Grouped event' r :=
  h.congr (fun e _ => by rw [annotationKey, annotationKey, (hsame e).1]) fun e _ => (hsame e).2

/-- The events differ from what they have been in what replaces them at most. -/
def OnlyReplaced (event event' : String → MatrixEvent) : Prop :=
  ∀ e, ∃ new, event' e = { event e with replacingEvent := new }

theorem OnlyReplaced.refl (event : String → MatrixEvent) : OnlyReplaced event event :=
  fun _ => ⟨_, rfl⟩

theorem OnlyReplaced.trans {event'' : String → MatrixEvent} (h : OnlyReplaced event event')
    (h' : OnlyReplaced event' event'') : OnlyReplaced event event'' := by
  intro e
  obtain ⟨new, hnew⟩ := h e
  obtain ⟨new', hnew'⟩ := h' e
  exact ⟨new', by rw [hnew', hnew]⟩

theorem OnlyReplaced.sameRelations (h : OnlyReplaced event event') :
    SameRelations event event' := by
  intro e
  obtain ⟨new, hnew⟩ := h e
  rw [hnew]
  exact ⟨rfl, rfl⟩

namespace RelationsState

variable {st st' : RelationsState} {k : RelationsKey} {e : String} {r r' : Relations}
  {k' : RelationsKey} {P : RelationsState → Prop} {relation : RelatesTo}

/-! ## One container changes -/

theorem onlyReplaced_replaceTarget (st : RelationsState) (r : Relations) :
    OnlyReplaced st.event (st.replaceTarget r).event := by
  unfold RelationsState.replaceTarget
  split
  · exact .refl _
  next target _ =>
    intro e
    by_cases he : e = target
    · rw [he]
      unfold RelationsState.setEvent MatrixEvent.makeReplaced
      dsimp only
      rw [Function.update_self]
      split <;> exact ⟨_, rfl⟩
    · exact ⟨_, Function.update_of_ne he ..⟩

/-- A container is set, and what replaces its target worked out if it has replacements. -/
def update (st : RelationsState) (k : RelationsKey) (r : Relations) : RelationsState :=
  if k.relationType = "m.replace" then (st.setRelations k r).replaceTarget r
  else st.setRelations k r

/-- Beside the container only an event is changed. -/
theorem update_eq (st : RelationsState) (k : RelationsKey) (r : Relations) :
    st.update k r = { st.setRelations k r with event := (st.update k r).event } := by
  unfold update RelationsState.replaceTarget
  split
  · split <;> rfl
  · rfl

@[simp] theorem update_relations :
    (st.update k r).relations = Function.update st.relations k (some r) := by
  rw [update_eq]
  rfl

@[simp] theorem update_timeline : (st.update k r).timeline = st.timeline := by
  rw [update_eq]
  rfl

@[simp] theorem update_onStatus : (st.update k r).onStatus = st.onStatus := by
  rw [update_eq]
  rfl

@[simp] theorem update_onBeforeRedaction :
    (st.update k r).onBeforeRedaction = st.onBeforeRedaction := by
  rw [update_eq]
  rfl

theorem onlyReplaced_update (st : RelationsState) (k : RelationsKey) (r : Relations) :
    OnlyReplaced st.event (st.update k r).event := by
  unfold update
  split
  · exact onlyReplaced_replaceTarget (st.setRelations k r) r
  · exact .refl _

/-! ## The invariant -/

/-- **The invariant.** Containers have relations of their type, and listen to them; those of
annotations have grouped them. -/
structure Inv (st : RelationsState) : Prop where
  nodup : ∀ k r, st.relations k = some r → r.relations.Nodup
  listens : ∀ k r, st.relations k = some r → ∀ e ∈ r.relations, k ∈ st.onBeforeRedaction e
  relation : ∀ k r, st.relations k = some r → ∀ e ∈ r.relations,
    ∃ relation, (st.event e).getRelation = some relation ∧ relation.relType = k.relationType
  grouped : ∀ k r, k.relationType = "m.annotation" → st.relations k = some r → Grouped st.event r

/-- Events change, but not their relations, and no container stops listening. -/
theorem Inv.sameRelations (hI : Inv st) (hrelations : st'.relations = st.relations)
    (hlistens : ∀ e k, k ∈ st.onBeforeRedaction e → k ∈ st'.onBeforeRedaction e)
    (hsame : SameRelations st.event st'.event) : Inv st' := by
  refine ⟨fun k r h => hI.nodup k r (hrelations ▸ h), fun k r h e he => ?_, fun k r h e he => ?_,
    fun k r hk h => (hI.grouped k r hk (hrelations ▸ h)).sameRelations hsame⟩
  · exact hlistens e k (hI.listens k r (hrelations ▸ h) e he)
  · rw [(hsame e).1]
    exact hI.relation k r (hrelations ▸ h) e he

theorem Inv.setEvent (hI : Inv st) {id : String} {ev : MatrixEvent}
    (hrelation : ev.getRelation = (st.event id).getRelation)
    (hsender : ev.sender = (st.event id).sender) : Inv (st.setEvent id ev) :=
  hI.sameRelations rfl (fun _ _ hk => hk) (sameRelations_update hrelation hsender)

/-- Which container there is after one has been set. -/
theorem update_get {r'' : Relations} (h : (st.update k r).relations k' = some r'') :
    k' = k ∧ r'' = r ∨ k' ≠ k ∧ st.relations k' = some r'' := by
  rw [update_relations] at h
  by_cases hk : k' = k
  · rw [hk, Function.update_self] at h
    exact .inl ⟨hk, (Option.some.inj h).symm⟩
  · rw [Function.update_of_ne hk] at h
    exact .inr ⟨hk, h⟩

/-- A container has the event. -/
def Has (st : RelationsState) (k : RelationsKey) (e : String) : Prop :=
  ∃ r, st.relations k = some r ∧ e ∈ r.relations

theorem has_update :
    Has (st.update k r) k' e ↔ (k' = k ∧ e ∈ r.relations) ∨ (k' ≠ k ∧ Has st k' e) := by
  unfold Has
  rw [update_relations]
  by_cases hk : k' = k
  · rw [hk, Function.update_self]
    constructor
    · rintro ⟨r', hr', he⟩
      exact .inl ⟨rfl, Option.some.inj hr' ▸ he⟩
    · rintro (⟨-, he⟩ | ⟨hne, -⟩)
      · exact ⟨r, rfl, he⟩
      · exact absurd rfl hne
  · rw [Function.update_of_ne hk]
    constructor
    · exact fun h => .inr ⟨hk, h⟩
    · rintro (⟨heq, -⟩ | ⟨-, h⟩)
      · exact absurd heq hk
      · exact h

/-- A container is set to what it may have by the invariant. -/
theorem Inv.update (hI : Inv st) (hnodup : r.relations.Nodup)
    (hlistens : ∀ e ∈ r.relations, k ∈ st.onBeforeRedaction e)
    (hrelation : ∀ e ∈ r.relations,
      ∃ relation, (st.event e).getRelation = some relation ∧ relation.relType = k.relationType)
    (hgrouped : k.relationType = "m.annotation" → Grouped st.event r) : Inv (st.update k r) := by
  have hsame := (onlyReplaced_update st k r).sameRelations
  refine ⟨fun k' r' h => ?_, fun k' r' h e he => ?_, fun k' r' h e he => ?_, fun k' r' hk' h => ?_⟩
  · rcases update_get h with ⟨rfl, rfl⟩ | ⟨-, h⟩
    · exact hnodup
    · exact hI.nodup k' r' h
  · rw [update_onBeforeRedaction]
    rcases update_get h with ⟨rfl, rfl⟩ | ⟨-, h⟩
    · exact hlistens e he
    · exact hI.listens k' r' h e he
  · rw [(hsame e).1]
    rcases update_get h with ⟨rfl, rfl⟩ | ⟨-, h⟩
    · exact hrelation e he
    · exact hI.relation k' r' h e he
  · rcases update_get h with ⟨rfl, rfl⟩ | ⟨-, h⟩
    · exact (hgrouped hk').sameRelations hsame
    · exact (hI.grouped k' r' hk' h).sameRelations hsame

/-! ## Adding an event -/

/-- The names that an event is aggregated by are not inherited. -/
def WellNamed (event : MatrixEvent) : Prop :=
  ∀ relation, event.getRelation = some relation →
    relation.eventId ∉ JsObject.inheritedNames ∧ relation.relType ∉ JsObject.inheritedNames ∧
      event.type ∉ JsObject.inheritedNames ∧
      (relation.relType = "m.annotation" →
        relation.key ∉ JsObject.inheritedNames ∧ event.sender ∉ JsObject.inheritedNames)

instance (event : MatrixEvent) : Decidable (WellNamed event) :=
  inferInstanceAs (Decidable (∀ relation ∈ event.getRelation, _))

/-- A container listens to an event. -/
def listen (st : RelationsState) (k : RelationsKey) (e : String) : RelationsState :=
  { st with
    onStatus := if (st.event e).isSending
      then Function.update st.onStatus e (st.onStatus e ++ [k])
      else st.onStatus
    onBeforeRedaction :=
      Function.update st.onBeforeRedaction e (st.onBeforeRedaction e ++ [k]) }

theorem mem_listen (st : RelationsState) (k : RelationsKey) (e : String) :
    k ∈ (st.listen k e).onBeforeRedaction e := by
  unfold listen
  dsimp only
  rw [Function.update_self]
  exact List.mem_append_right _ (List.mem_singleton.2 rfl)

theorem listen_mono {e' : String} (h : k' ∈ st.onBeforeRedaction e') :
    k' ∈ (st.listen k e).onBeforeRedaction e' := by
  unfold listen
  dsimp only
  by_cases he : e' = e
  · rw [he, Function.update_self]
    exact List.mem_append_left _ (he ▸ h)
  · rw [Function.update_of_ne he]
    exact h

/-- The container `r` of `k` becomes `r'`, and `e` is its new relation. -/
structure Adds (st : RelationsState) (k : RelationsKey) (e : String) (r r' : Relations) : Prop where
  container : st.relations k = some r
  notMem : e ∉ r.relations
  relation : ∃ relation, (st.event e).getRelation = some relation ∧
    relation.relType = k.relationType
  relations : r'.relations = r.relations ++ [e]
  target : r'.targetEvent = r.targetEvent
  grouped : k.relationType = "m.annotation" → Grouped st.event r'

/-- **An event is added to a container** that it belongs to, if it can be added to the tables. -/
theorem addEvent_eq (hI : Inv st) (hr : st.relations k = some r) (he : e ∉ r.relations)
    (hrelation : (st.event e).getRelation = some relation)
    (hrelType : k.relationType = relation.relType) (htype : k.eventType = (st.event e).type)
    (hadd : k.relationType = "m.annotation" → ∃ r',
      ({ r with relations := r.relations ++ [e] } : Relations).addAnnotationToAggregation e
        relation.key (st.event e).sender = .ok r') :
    ∃ r', Adds st k e r r' ∧ st.addEvent k e = .ok ((st.listen k e).update k r') := by
  have hmatch : ¬(k.relationType ≠ relation.relType ∨ k.eventType ≠ (st.event e).type) := by
    rintro (hne | hne)
    · exact hne hrelType
    · exact hne htype
  have hbelongs := (⟨relation, hrelation, hrelType.symm⟩ :
    ∃ relation, (st.event e).getRelation = some relation ∧ relation.relType = k.relationType)
  unfold RelationsState.addEvent
  simp only [hr, if_neg he, hrelation, if_neg hmatch]
  by_cases hannot : k.relationType = "m.annotation"
  · obtain ⟨r', hadd⟩ := hadd hannot
    obtain ⟨hgrouped, hrel, htarget⟩ := (hI.grouped k r hannot hr).add he hrelation hadd
    refine ⟨r', ⟨hr, he, hbelongs, hrel, htarget, fun _ => hgrouped⟩, ?_⟩
    have hreplace : k.relationType ≠ "m.replace" := by
      rw [hannot]
      decide
    rw [if_pos hannot, update, if_neg hreplace, listen]
    split <;> (rw [hadd]; rfl)
  · refine ⟨{ r with relations := r.relations ++ [e] },
      ⟨hr, he, hbelongs, rfl, rfl, fun h => absurd h hannot⟩, ?_⟩
    rw [if_neg hannot, update, listen]
    unfold RelationsState.replaceTarget
    split <;> split <;> (try split) <;> rfl

/-- An event that has been added to a container has been added to its tables. -/
theorem addEvent_tables (hr : st.relations k = some r) (he : e ∉ r.relations)
    (hrelation : (st.event e).getRelation = some relation)
    (hrelType : k.relationType = relation.relType) (htype : k.eventType = (st.event e).type)
    (h : st.addEvent k e = .ok st') (hannot : k.relationType = "m.annotation") :
    ∃ r', ({ r with relations := r.relations ++ [e] } : Relations).addAnnotationToAggregation e
      relation.key (st.event e).sender = .ok r' := by
  have hmatch : ¬(k.relationType ≠ relation.relType ∨ k.eventType ≠ (st.event e).type) :=
    not_or.2 ⟨not_not.2 hrelType, not_not.2 htype⟩
  unfold RelationsState.addEvent at h
  simp only [hr, if_neg he, hrelation, if_neg hmatch, if_pos hannot] at h
  have hsender : ((if (st.event e).isSending then
      { st with onStatus := Function.update st.onStatus e (st.onStatus e ++ [k]) }
      else st : RelationsState).event e).sender = (st.event e).sender := by
    split <;> rfl
  rw [hsender] at h
  cases hadd : ({ r with relations := r.relations ++ [e] } : Relations).addAnnotationToAggregation e
      relation.key (st.event e).sender with
  | ok r' => exact ⟨r', rfl⟩
  | error err =>
    rw [hadd] at h
    exact nomatch h

/-- What has been added keeps the invariant. -/
theorem Inv.adds (hI : Inv st) (h : Adds st k e r r') : Inv ((st.listen k e).update k r') := by
  have hlisten : Inv (st.listen k e) := hI.sameRelations rfl (fun _ _ => listen_mono) (.refl _)
  refine hlisten.update ?_ (fun e' he' => ?_) (fun e' he' => ?_) h.grouped
  · rw [h.relations]
    refine List.nodup_append.2 ⟨hI.nodup k r h.container, List.nodup_singleton e,
      fun a ha b hb heq => ?_⟩
    rw [List.mem_singleton] at hb
    exact h.notMem (hb ▸ heq ▸ ha)
  · rcases List.mem_append.1 (h.relations ▸ he') with hmem | heq
    · exact listen_mono (hI.listens k r h.container e' hmem)
    · exact List.mem_singleton.1 heq ▸ mem_listen ..
  · rcases List.mem_append.1 (h.relations ▸ he') with hmem | heq
    · exact hI.relation k r h.container e' hmem
    · exact List.mem_singleton.1 heq ▸ h.relation

/-! ### Aggregating -/

/-- The container is there; if it is new, its target is what has been found. -/
def withContainer (st : RelationsState) (k : RelationsKey) : RelationsState :=
  if (st.relations k).isSome then st
  else st.setRelations k { Relations.new with targetEvent := st.findEventById k.eventId }

/-- What aggregating an event can do. -/
inductive Aggregates (st : RelationsState) (e : String) : RelationsState → Prop
  | kept (h : (st.event e).isRedacted ∨ (st.event e).status = some .cancelled ∨
      (st.event e).getRelation = none ∨ ∃ relation r, (st.event e).getRelation = some relation ∧
        st.relations ⟨relation.eventId, relation.relType, (st.event e).type⟩ = some r ∧
        e ∈ r.relations) : Aggregates st e st
  | waits (h : (st.event e).isBeingDecrypted) : Aggregates st e
      { st with onDecrypted := Function.update st.onDecrypted e (st.onDecrypted e + 1) }
  | adds (relation : RelatesTo) (r r' : Relations) (hredacted : (st.event e).isRedacted = false)
      (hstatus : (st.event e).status ≠ some .cancelled)
      (hrelation : (st.event e).getRelation = some relation)
      (hadds : Adds (st.withContainer ⟨relation.eventId, relation.relType, (st.event e).type⟩)
        ⟨relation.eventId, relation.relType, (st.event e).type⟩ e r r') :
      Aggregates st e
        (((st.withContainer ⟨relation.eventId, relation.relType, (st.event e).type⟩).listen
          ⟨relation.eventId, relation.relType, (st.event e).type⟩ e).update
          ⟨relation.eventId, relation.relType, (st.event e).type⟩ r')

theorem withContainer_isSome (st : RelationsState) (k : RelationsKey) :
    ∃ r, (st.withContainer k).relations k = some r := by
  unfold withContainer
  split
  next h => exact Option.isSome_iff_exists.1 h
  next => exact ⟨_, Function.update_self ..⟩

theorem withContainer_event (st : RelationsState) (k : RelationsKey) :
    (st.withContainer k).event = st.event := by
  unfold withContainer
  split <;> rfl

/-- A container is as it was, or new and without relations. -/
theorem withContainer_get {r : Relations} (h : (st.withContainer k).relations k' = some r) :
    st.relations k' = some r ∨ k' = k ∧ st.relations k = none ∧
      r = { Relations.new with targetEvent := st.findEventById k.eventId } := by
  unfold withContainer at h
  split at h
  next => exact .inl h
  next hnone =>
    simp only [RelationsState.setRelations] at h
    by_cases hk : k' = k
    · rw [hk, Function.update_self] at h
      exact .inr ⟨hk, Option.not_isSome_iff_eq_none.1 hnone, (Option.some.inj h).symm⟩
    · rw [Function.update_of_ne hk] at h
      exact .inl h

theorem Inv.withContainer (hI : Inv st) : Inv (st.withContainer k) := by
  have hlistens : (st.withContainer k).onBeforeRedaction = st.onBeforeRedaction := by
    unfold RelationsState.withContainer
    split <;> rfl
  refine ⟨fun k' r h => ?_, fun k' r h e he => ?_, fun k' r h e he => ?_, fun k' r hk' h => ?_⟩
  · rcases withContainer_get h with h | ⟨-, -, rfl⟩
    · exact hI.nodup k' r h
    · exact List.nodup_nil
  · rw [hlistens]
    rcases withContainer_get h with h | ⟨-, -, rfl⟩
    · exact hI.listens k' r h e he
    · exact absurd he List.not_mem_nil
  · rw [withContainer_event]
    rcases withContainer_get h with h | ⟨-, -, rfl⟩
    · exact hI.relation k' r h e he
    · exact absurd he List.not_mem_nil
  · rw [withContainer_event]
    rcases withContainer_get h with h | ⟨-, -, rfl⟩
    · exact hI.grouped k' r hk' h
    · exact grouped_new.setTarget _

/-- A new container that has been given a target has no replacement for it. -/
theorem setTargetEvent_new (target : String) :
    (st.setRelations k .new).setTargetEvent k target =
      st.setRelations k { Relations.new with targetEvent := some target } := by
  have hget : (st.setRelations k .new).relations k = some .new := Function.update_self ..
  have hset : (st.setRelations k .new).setRelations k
      { Relations.new with targetEvent := some target } =
      st.setRelations k { Relations.new with targetEvent := some target } := by
    unfold RelationsState.setRelations
    simp only [Function.update_idem]
  have hnone : Relations.new.targetEvent.isSome = false := rfl
  unfold RelationsState.setTargetEvent
  simp only [hget, hnone, Bool.false_eq_true, if_false, hset]
  split <;> rfl

theorem withContainer_eq (st : RelationsState) (k : RelationsKey) :
    (if (st.relations k).isSome then st
      else match st.findEventById k.eventId with
        | none => st.setRelations k .new
        | some target => (st.setRelations k .new).setTargetEvent k target) =
      st.withContainer k := by
  unfold withContainer
  split
  · rfl
  · split
    next hnone => rw [hnone]; rfl
    next target hsome => rw [hsome, setTargetEvent_new]

/-- What is neither redacted nor waited for is added to the container of its relation. -/
theorem aggregateRelations_eq
    (hcurrent : ¬((st.event e).isRedacted ∨ (st.event e).status = some .cancelled))
    (hwaits : ¬(st.event e).isBeingDecrypted) (hrelation : (st.event e).getRelation = some relation)
    (hids : ¬(relation.eventId ∈ JsObject.inheritedNames ∨
      relation.relType ∈ JsObject.inheritedNames))
    (htype : (st.event e).type ∉ JsObject.inheritedNames) :
    st.aggregateRelations e =
      (st.withContainer ⟨relation.eventId, relation.relType, (st.event e).type⟩).addEvent
        ⟨relation.eventId, relation.relType, (st.event e).type⟩ e := by
  unfold RelationsState.aggregateRelations
  rw [if_neg hcurrent, if_neg hwaits, hrelation]
  dsimp only
  rw [if_neg hids, if_neg htype, ← withContainer_eq]
  rfl

/-- An event is added to a container that is there, or that is new. -/
theorem addEvent_aggregates (hI : Inv st)
    (hcurrent : ¬((st.event e).isRedacted ∨ (st.event e).status = some .cancelled))
    (hrelation : (st.event e).getRelation = some relation)
    (h : (st.withContainer ⟨relation.eventId, relation.relType, (st.event e).type⟩).addEvent
      ⟨relation.eventId, relation.relType, (st.event e).type⟩ e = .ok st') :
    Aggregates st e st' := by
  obtain ⟨r, hr⟩ := withContainer_isSome st
    ⟨relation.eventId, relation.relType, (st.event e).type⟩
  have hevent := withContainer_event st ⟨relation.eventId, relation.relType, (st.event e).type⟩
  by_cases he : e ∈ r.relations
  · -- it is in the container already, which is not a new one
    rcases withContainer_get hr with hr' | ⟨-, -, rfl⟩
    · have hst : st.withContainer ⟨relation.eventId, relation.relType, (st.event e).type⟩ = st := by
        rw [withContainer, hr', if_pos Option.isSome_some]
      rw [hst, RelationsState.addEvent, hr'] at h
      obtain rfl : st = st' := Except.ok.inj ((if_pos he).symm.trans h)
      exact .kept (.inr (.inr (.inr ⟨relation, r, hrelation, hr', he⟩)))
    · exact absurd he List.not_mem_nil
  · have hrelation' : ((st.withContainer
        ⟨relation.eventId, relation.relType, (st.event e).type⟩).event e).getRelation =
          some relation := by
      rw [hevent, hrelation]
    obtain ⟨r', hadds, heq⟩ := addEvent_eq hI.withContainer hr he hrelation' rfl (by rw [hevent])
      (addEvent_tables hr he hrelation' rfl (by rw [hevent]) h)
    obtain rfl : _ = st' := Except.ok.inj (heq.symm.trans h)
    rw [not_or] at hcurrent
    exact .adds relation r r' (Bool.eq_false_iff.2 hcurrent.1) hcurrent.2 hrelation hadds

/-- **Aggregating an event**, if it goes well. -/
theorem aggregates_of_ok (hI : Inv st) (h : st.aggregateRelations e = .ok st') :
    Aggregates st e st' := by
  by_cases hcurrent : (st.event e).isRedacted ∨ (st.event e).status = some .cancelled
  · rw [RelationsState.aggregateRelations, if_pos hcurrent] at h
    exact Except.ok.inj h ▸ .kept (hcurrent.elim .inl fun h => .inr (.inl h))
  by_cases hwaits : (st.event e).isBeingDecrypted
  · rw [RelationsState.aggregateRelations, if_neg hcurrent, if_pos hwaits] at h
    exact Except.ok.inj h ▸ .waits hwaits
  cases hrelation : (st.event e).getRelation with
  | none =>
    rw [RelationsState.aggregateRelations, if_neg hcurrent, if_neg hwaits, hrelation] at h
    exact Except.ok.inj h ▸ .kept (.inr (.inr (.inl hrelation)))
  | some relation =>
    by_cases hids : relation.eventId ∈ JsObject.inheritedNames ∨
        relation.relType ∈ JsObject.inheritedNames
    · rw [RelationsState.aggregateRelations, if_neg hcurrent, if_neg hwaits, hrelation] at h
      exact nomatch (if_pos hids).symm.trans h
    by_cases htype : (st.event e).type ∈ JsObject.inheritedNames
    · rw [RelationsState.aggregateRelations, if_neg hcurrent, if_neg hwaits, hrelation] at h
      dsimp only at h
      rw [if_neg hids, if_pos htype] at h
      exact nomatch h
    rw [aggregateRelations_eq hcurrent hwaits hrelation hids htype] at h
    exact addEvent_aggregates hI hcurrent hrelation h

/-- With names that are not inherited it does. -/
theorem aggregateRelations_ok (hI : Inv st) (hnamed : WellNamed (st.event e)) :
    ∃ st', st.aggregateRelations e = .ok st' := by
  by_cases hcurrent : (st.event e).isRedacted ∨ (st.event e).status = some .cancelled
  · exact ⟨st, if_pos hcurrent⟩
  by_cases hwaits : (st.event e).isBeingDecrypted
  · rw [RelationsState.aggregateRelations, if_neg hcurrent, if_pos hwaits]
    exact ⟨_, rfl⟩
  cases hrelation : (st.event e).getRelation with
  | none =>
    rw [RelationsState.aggregateRelations, if_neg hcurrent, if_neg hwaits, hrelation]
    exact ⟨_, rfl⟩
  | some relation =>
    obtain ⟨hid, hrelType, htype, hannotates⟩ := hnamed relation hrelation
    rw [aggregateRelations_eq hcurrent hwaits hrelation (not_or.2 ⟨hid, hrelType⟩) htype]
    obtain ⟨r, hr⟩ := withContainer_isSome st
      ⟨relation.eventId, relation.relType, (st.event e).type⟩
    have hevent := withContainer_event st ⟨relation.eventId, relation.relType, (st.event e).type⟩
    by_cases he : e ∈ r.relations
    · rw [RelationsState.addEvent, hr]
      exact ⟨_, if_pos he⟩
    · obtain ⟨r', -, heq⟩ := addEvent_eq hI.withContainer hr he
        (by rw [hevent, hrelation]) rfl (by rw [hevent]) fun hannot => by
          obtain ⟨hkey, hsender⟩ := hannotates hannot
          rw [hevent]
          exact addAnnotationToAggregation_ok hkey hsender
      exact ⟨_, heq⟩

theorem aggregateRelations_spec (hI : Inv st) (hnamed : WellNamed (st.event e)) :
    ∃ st', st.aggregateRelations e = .ok st' ∧ Aggregates st e st' := by
  obtain ⟨st', heq⟩ := aggregateRelations_ok hI hnamed
  exact ⟨st', heq, aggregates_of_ok hI heq⟩

/-! ## Taking an event out -/

/-- The container `r` of `k` becomes `r'`, without its relation `e`. -/
structure TakesOut (st : RelationsState) (k : RelationsKey) (e : String) (r r' : Relations) :
    Prop where
  container : st.relations k = some r
  mem : e ∈ r.relations
  relations : r'.relations = r.relations.erase e
  target : r'.targetEvent = r.targetEvent
  grouped : k.relationType = "m.annotation" → Grouped st.event r'

/-- **An event is taken out of a container** that has it. -/
theorem takeOut_eq (hI : Inv st) (hr : st.relations k = some r) (he : e ∈ r.relations) :
    ∃ r', TakesOut st k e r r' ∧ st.takeOut k r e = .ok (st.update k r') := by
  unfold RelationsState.takeOut
  by_cases hannot : k.relationType = "m.annotation"
  · obtain ⟨relation, hrelation, -⟩ := hI.relation k r hr e he
    obtain ⟨r', hremove, hgrouped, hrel, htarget⟩ :=
      (hI.grouped k r hannot hr).remove he hrelation
    refine ⟨r', ⟨hr, he, hrel, htarget, fun _ => hgrouped⟩, ?_⟩
    have hreplace : k.relationType ≠ "m.replace" := by
      rw [hannot]
      decide
    rw [if_pos hannot, update, if_neg hreplace]
    simp only [hrelation, hremove]
    rfl
  · refine ⟨{ r with relations := r.relations.erase e },
      ⟨hr, he, rfl, rfl, fun h => absurd h hannot⟩, ?_⟩
    rw [if_neg hannot, update]
    split <;> rfl

theorem Inv.takesOut (hI : Inv st) (h : TakesOut st k e r r') : Inv (st.update k r') := by
  have hsub : ∀ e' ∈ r'.relations, e' ∈ r.relations := by
    intro e' he'
    rw [h.relations] at he'
    exact List.mem_of_mem_erase he'
  refine hI.update ?_ (fun e' he' => hI.listens k r h.container e' (hsub e' he'))
    (fun e' he' => hI.relation k r h.container e' (hsub e' he')) h.grouped
  rw [h.relations]
  exact (hI.nodup k r h.container).erase e

/-- A container that has the event afterwards had it before, and is another one. -/
theorem TakesOut.has {r'' : Relations} (hI : Inv st) (h : TakesOut st k e r r')
    (hr : (st.update k r').relations k' = some r'') (he : e ∈ r''.relations) :
    k' ≠ k ∧ st.relations k' = some r'' := by
  rcases update_get hr with ⟨rfl, rfl⟩ | hother
  · rw [h.relations] at he
    exact absurd he (hI.nodup _ r h.container).not_mem_erase
  · exact hother

/-! ## Telling the containers -/

/-- No container has the event. -/
def InNone (st : RelationsState) (e : String) : Prop :=
  ∀ k r, st.relations k = some r → e ∉ r.relations

/-- A container listens for the redaction no longer. -/
def ignore (st : RelationsState) (k : RelationsKey) (e : String) : RelationsState :=
  { st with
    onBeforeRedaction := Function.update st.onBeforeRedaction e ((st.onBeforeRedaction e).erase k) }

theorem Inv.ignore (hI : Inv st) (hnot : ∀ r, st.relations k = some r → e ∉ r.relations) :
    Inv (st.ignore k e) := by
  refine ⟨hI.nodup, fun k' r h e' he' => ?_, hI.relation, hI.grouped⟩
  unfold RelationsState.ignore
  dsimp only
  by_cases he : e' = e
  · rw [he, Function.update_self]
    refine (List.mem_erase_of_ne fun hk => ?_).2 (hI.listens k' r h e (he ▸ he'))
    rw [hk] at h
    exact hnot r h (he ▸ he')
  · rw [Function.update_of_ne he]
    exact hI.listens k' r h e' he'

theorem onBeforeRedactionOf_eq (hI : Inv st) (hr : st.relations k = some r) (he : e ∈ r.relations) :
    ∃ r', TakesOut st k e r r' ∧ st.onBeforeRedactionOf e k = .ok ((st.update k r').ignore k e) := by
  obtain ⟨r', htakes, heq⟩ := takeOut_eq hI hr he
  refine ⟨r', htakes, ?_⟩
  unfold RelationsState.onBeforeRedactionOf
  simp only [hr, not_not.2 he, if_false, heq]
  rfl

theorem onBeforeRedactionOf_of_not_mem (h : ∀ r, st.relations k = some r → e ∉ r.relations) :
    st.onBeforeRedactionOf e k = .ok st := by
  unfold RelationsState.onBeforeRedactionOf
  split
  · rfl
  next r hr => rw [if_pos (h r hr)]

/-- **The event is about to be redacted.** One listener after the other takes it out, which all
containers are that have it. -/
theorem foldlM_onBeforeRedaction
    (hstep : ∀ {st k r r'}, Inv st → P st → TakesOut st k e r r' → P ((st.update k r').ignore k e))
    (ks : List RelationsKey) :
    ∀ {st : RelationsState}, Inv st → P st →
      (∀ k r, st.relations k = some r → e ∈ r.relations → k ∈ ks) →
      ∃ st', ks.foldlM (fun st k => st.onBeforeRedactionOf e k) st = .ok st' ∧ Inv st' ∧ P st' ∧
        InNone st' e := by
  induction ks with
  | nil =>
    intro st hI hP hks
    exact ⟨st, rfl, hI, hP, fun k r hr he => absurd (hks k r hr he) List.not_mem_nil⟩
  | cons k ks ih =>
    intro st hI hP hks
    rw [List.foldlM_cons]
    by_cases hhas : ∃ r, st.relations k = some r ∧ e ∈ r.relations
    · obtain ⟨r, hr, he⟩ := hhas
      obtain ⟨r', htakes, heq⟩ := onBeforeRedactionOf_eq hI hr he
      rw [heq]
      refine ih ((hI.takesOut htakes).ignore fun r'' hr'' he'' => ?_) (hstep hI hP htakes)
        fun k' r'' hr'' he'' => ?_
      · exact (htakes.has hI hr'' he'').1 rfl
      · obtain ⟨hne, hr''⟩ := htakes.has hI hr'' he''
        exact (List.mem_cons.1 (hks k' r'' hr'' he'')).resolve_left hne
    · have hnot : ∀ r, st.relations k = some r → e ∉ r.relations :=
        fun r hr he => hhas ⟨r, hr, he⟩
      rw [onBeforeRedactionOf_of_not_mem hnot]
      refine ih hI hP fun k' r' hr' he' => ?_
      refine (List.mem_cons.1 (hks k' r' hr' he')).resolve_left fun hk => ?_
      rw [hk] at hr'
      exact hnot r' hr' he'

theorem emitBeforeRedaction_spec (hI : Inv st) (hP : P st)
    (hstep : ∀ {st k r r'}, Inv st → P st → TakesOut st k e r r' →
      P ((st.update k r').ignore k e)) :
    ∃ st', st.emitBeforeRedaction e = .ok st' ∧ Inv st' ∧ P st' ∧ InNone st' e :=
  foldlM_onBeforeRedaction hstep _ hI hP fun k r hr he => hI.listens k r hr e he

theorem Inv.offStatus (hI : Inv st) : Inv (st.offStatus k e) :=
  hI.sameRelations rfl (fun _ _ h => h) (.refl _)

theorem removeEvent_eq (hI : Inv st) (hr : st.relations k = some r) (he : e ∈ r.relations)
    (htype : k.eventType = (st.event e).type) :
    ∃ r', TakesOut st k e r r' ∧ st.removeEvent k e = .ok (st.update k r') := by
  obtain ⟨r', htakes, heq⟩ := takeOut_eq hI hr he
  obtain ⟨relation, hrelation, hrelType⟩ := hI.relation k r hr e he
  refine ⟨r', htakes, ?_⟩
  have hmatch : ¬(k.relationType ≠ relation.relType ∨ k.eventType ≠ (st.event e).type) := by
    rintro (hne | hne)
    · exact hne hrelType.symm
    · exact hne htype
  unfold RelationsState.removeEvent
  simp only [hr, not_not.2 he, if_false, hrelation, if_neg hmatch, heq]

theorem removeEvent_of_not_mem (h : ∀ r, st.relations k = some r → e ∉ r.relations) :
    st.removeEvent k e = .ok st := by
  unfold RelationsState.removeEvent
  split
  · rfl
  next r hr => rw [if_pos (h r hr)]

/-- **The event has been cancelled.** Those that listen for its status take it out. -/
theorem foldlM_onEventStatus_cancelled (hoff : ∀ {st k}, P st → P (st.offStatus k e))
    (hstep : ∀ {st k r r'}, Inv st → P st → TakesOut st k e r r' → P (st.update k r'))
    (ks : List RelationsKey) :
    ∀ {st : RelationsState}, Inv st → P st → (st.event e).status = some .cancelled →
      (∀ k r, st.relations k = some r → e ∈ r.relations →
        k ∈ ks ∧ k.eventType = (st.event e).type) →
      ∃ st', ks.foldlM (fun st k => st.onEventStatus e k (some .cancelled)) st = .ok st' ∧
        Inv st' ∧ P st' ∧ InNone st' e := by
  induction ks with
  | nil =>
    intro st hI hP _ hks
    exact ⟨st, rfl, hI, hP, fun k r hr he => absurd (hks k r hr he).1 List.not_mem_nil⟩
  | cons k ks ih =>
    intro st hI hP hstatus hks
    have hsending : (!(st.event e).isSending) = false := by
      rw [MatrixEvent.isSending, hstatus]
      rfl
    have hI' : Inv (st.offStatus k e) := hI.offStatus
    rw [List.foldlM_cons, RelationsState.onEventStatus, hsending,
      if_neg Bool.false_ne_true, if_neg (not_not.2 rfl)]
    by_cases hhas : ∃ r, st.relations k = some r ∧ e ∈ r.relations
    · obtain ⟨r, hr, he⟩ := hhas
      obtain ⟨r', htakes, heq⟩ := removeEvent_eq hI' hr he (hks k r hr he).2
      obtain ⟨new, hnew⟩ := onlyReplaced_update (st.offStatus k e) k r' e
      rw [heq]
      refine ih (hI'.takesOut htakes) (hstep hI' (hoff hP) htakes) ?_ fun k' r'' hr'' he'' => ?_
      · rw [hnew]
        exact hstatus
      · obtain ⟨hne, hr''⟩ := htakes.has hI' hr'' he''
        obtain ⟨hmem, htype⟩ := hks k' r'' hr'' he''
        rw [hnew]
        exact ⟨(List.mem_cons.1 hmem).resolve_left hne, htype⟩
    · have hnot : ∀ r, (st.offStatus k e).relations k = some r → e ∉ r.relations :=
        fun r hr he => hhas ⟨r, hr, he⟩
      rw [removeEvent_of_not_mem hnot]
      refine ih hI' (hoff hP) hstatus fun k' r' hr' he' => ?_
      obtain ⟨hmem, htype⟩ := hks k' r' hr' he'
      refine ⟨(List.mem_cons.1 hmem).resolve_left fun hk => ?_, htype⟩
      rw [hk] at hr'
      exact hnot r' hr' he'

/-- While the event is sent nothing follows from its status. -/
theorem foldlM_onEventStatus_sending {status : Option EventStatus} (hne : status ≠ some .cancelled)
    (hsending : (st.event e).isSending) (ks : List RelationsKey) :
    ks.foldlM (fun st k => st.onEventStatus e k status) st = .ok st := by
  induction ks with
  | nil => rfl
  | cons k ks ih =>
    rw [List.foldlM_cons, RelationsState.onEventStatus, if_pos hne, hsending, Bool.not_true,
      if_neg Bool.false_ne_true]
    exact ih

/-- Once it has been sent the containers stop listening. -/
theorem foldlM_onEventStatus_sent (status : Option EventStatus) (ks : List RelationsKey) :
    ∀ {st : RelationsState}, (st.event e).isSending = false →
      ks.foldlM (fun st k => st.onEventStatus e k status) st =
        .ok (ks.foldl (fun st k => st.offStatus k e) st) := by
  induction ks with
  | nil => exact fun _ => rfl
  | cons k ks ih =>
    intro st hsent
    have hoff : ((st.offStatus k e).event e).isSending = false := hsent
    rw [List.foldlM_cons, RelationsState.onEventStatus, hsent, Bool.not_false, if_pos rfl]
    exact ih hoff

/-! ## Relations that are current -/

/-- The event is neither redacted nor cancelled if a container has it, which hears of its status
while it is being sent. -/
def Current (st : RelationsState) (e : String) : Prop :=
  ∀ k r, st.relations k = some r → e ∈ r.relations →
    (st.event e).isRedacted = false ∧ (st.event e).status ≠ some .cancelled ∧
      ((st.event e).isSending → k ∈ st.onStatus e ∧ k.eventType = (st.event e).type)

/-- At most an event is taken out of containers. -/
structure Removes (e : String) (st st' : RelationsState) : Prop where
  event : OnlyReplaced st.event st'.event
  timeline : st'.timeline = st.timeline
  has : ∀ e' k, Has st' k e' → Has st k e'
  keeps : ∀ e' k, e' ≠ e → Has st k e' → Has st' k e'
  onStatus : ∀ e', e' ≠ e → st'.onStatus e' = st.onStatus e'

theorem Removes.refl (e : String) (st : RelationsState) : Removes e st st :=
  ⟨.refl _, rfl, fun _ _ h => h, fun _ _ _ h => h, fun _ _ => rfl⟩

theorem Removes.offStatus (h : Removes e st st') : Removes e st (st'.offStatus k e) :=
  ⟨h.event, h.timeline, h.has, h.keeps,
    fun e' he' => (Function.update_of_ne he' ..).trans (h.onStatus e' he')⟩

theorem Removes.takesOut (h : Removes e st st') (htakes : TakesOut st' k e r r') :
    Removes e st (st'.update k r') := by
  refine ⟨h.event.trans (onlyReplaced_update st' k r'), by rw [update_timeline, h.timeline],
    fun e' k' he' => ?_, fun e' k' hne he' => ?_,
    fun e' he' => by rw [update_onStatus, h.onStatus e' he']⟩
  · rcases has_update.1 he' with ⟨rfl, hmem⟩ | ⟨-, hother⟩
    · rw [htakes.relations] at hmem
      exact h.has e' k' ⟨r, htakes.container, List.mem_of_mem_erase hmem⟩
    · exact h.has e' k' hother
  · obtain ⟨r'', hr'', he''⟩ := h.keeps e' k' hne he'
    by_cases hk : k' = k
    · rw [hk, htakes.container] at hr''
      refine has_update.2 (.inl ⟨hk, ?_⟩)
      rw [htakes.relations, Option.some.inj hr'']
      exact (List.mem_erase_of_ne hne).2 he''
    · exact has_update.2 (.inr ⟨hk, r'', hr'', he''⟩)

theorem Current.removes {e' : String} (hc : Current st e') (hne : e' ≠ e) (h : Removes e st st') :
    Current st' e' := by
  intro k r' hr' he'
  obtain ⟨r, hr, he⟩ := h.has e' k ⟨r', hr', he'⟩
  obtain ⟨new, hnew⟩ := h.event e'
  rw [hnew, h.onStatus e' hne]
  exact hc k r hr he

theorem InNone.current (h : InNone st e) : Current st e :=
  fun k r hr he => absurd he (h k r hr)

/-- An event that is neither redacted nor cancelled is added. -/
theorem Current.adds {e' : String} (hc : Current st e') (h : Adds st k e r r')
    (hredacted : (st.event e).isRedacted = false) (hstatus : (st.event e).status ≠ some .cancelled)
    (htype : k.eventType = (st.event e).type) : Current ((st.listen k e).update k r') e' := by
  intro k' r'' hr'' he'
  obtain ⟨new, hnew⟩ := onlyReplaced_update (st.listen k e) k r' e'
  rw [hnew, update_onStatus]
  have hon : ∀ k', k' ∈ st.onStatus e' → k' ∈ (st.listen k e).onStatus e' := by
    intro k' hk'
    unfold listen
    dsimp only
    split
    · by_cases heq : e' = e
      · rw [heq, Function.update_self]
        exact List.mem_append_left _ (heq ▸ hk')
      · rw [Function.update_of_ne heq]
        exact hk'
    · exact hk'
  have hold : ∀ r, st.relations k' = some r → e' ∈ r.relations →
      (st.event e').isRedacted = false ∧ (st.event e').status ≠ some .cancelled ∧
        ((st.event e').isSending →
          k' ∈ (st.listen k e).onStatus e' ∧ k'.eventType = (st.event e').type) := by
    intro r hr he
    obtain ⟨hredacted, hstatus, hhears⟩ := hc k' r hr he
    exact ⟨hredacted, hstatus, fun hsending => ⟨hon k' (hhears hsending).1, (hhears hsending).2⟩⟩
  rcases update_get hr'' with ⟨rfl, rfl⟩ | ⟨-, hr''⟩
  · rcases List.mem_append.1 (h.relations ▸ he') with hmem | heq
    · exact hold r h.container hmem
    · rw [List.mem_singleton.1 heq]
      refine ⟨hredacted, hstatus, fun hsending => ⟨?_, htype⟩⟩
      unfold listen
      have hsending' : (st.event e).isSending := hsending
      dsimp only
      rw [if_pos hsending', Function.update_self]
      exact List.mem_append_right _ (List.mem_singleton.2 rfl)
  · exact hold r'' hr'' he'

end RelationsState

end MatrixSdk.Models
