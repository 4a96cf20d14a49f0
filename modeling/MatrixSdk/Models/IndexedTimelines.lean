/-
Timeline sets whose index finds their events, and what each operation on them does to the
events they have.

The timelines are taken together here ([`allEvents`]); where in them an event is does not
matter. Ids are read with a function that may change between operations, since an event
that is sent gets a new id. [`Indexed.replaceEventId`] is the one place where the change and
the operation have to fit.
-/
import Mathlib.Data.List.Perm.Basic
import MatrixSdk.Models.AddEvents

set_option autoImplicit false

namespace MatrixSdk.Models

open MatrixSdk.Lib

section Indexed

variable {Event EventId Token : Type}

/-- The events of the timelines a set still has. -/
def allEvents (s : EventTimelineSet Event EventId Token) : List Event :=
  s.timelines.flatMap fun t => (s.timeline t).events

/-- The events of the timelines other than `t`. -/
def otherEvents (s : EventTimelineSet Event EventId Token) (t : ℕ) : List Event :=
  (s.timelines.erase t).flatMap fun u => (s.timeline u).events

/-- **The index finds every event**, each event is in one place, and ids tell them apart. -/
structure Indexed (getId : Event → EventId) (s : EventTimelineSet Event EventId Token) : Prop where
  live : s.liveTimeline ∈ s.timelines
  timelines : s.timelines.Nodup
  created : ∀ t ∈ s.timelines, t < s.created
  index : ∀ id t, s.eventIdToTimeline.get id = some t ↔
    t ∈ s.timelines ∧ ∃ e ∈ (s.timeline t).events, getId e = id
  events : (allEvents s).Nodup
  ids : ∀ e ∈ allEvents s, ∀ f ∈ allEvents s, getId e = getId f → e = f

variable {getId getId' : Event → EventId} {s s' : EventTimelineSet Event EventId Token} {x : Event}

theorem mem_allEvents {e : Event} :
    e ∈ allEvents s ↔ ∃ t ∈ s.timelines, e ∈ (s.timeline t).events :=
  List.mem_flatMap

/-- The events of one timeline, and those of the others. -/
theorem allEvents_perm {t : ℕ} (ht : t ∈ s.timelines) :
    (allEvents s).Perm ((s.timeline t).events ++ otherEvents s t) :=
  (List.perm_cons_erase ht).flatMap_right _

/-- Only one timeline has changed. -/
theorem otherEvents_congr {t : ℕ} (hnd : s.timelines.Nodup) (htl : s'.timelines = s.timelines)
    (h : ∀ u, u ≠ t → s'.timeline u = s.timeline u) : otherEvents s' t = otherEvents s t := by
  unfold otherEvents
  rw [htl]
  refine List.flatMap_congr fun u hu => ?_
  rw [h u ((hnd.mem_erase_iff).1 hu).1]

/-- The live timeline of a reset is empty. -/
theorem resetLiveTimeline_new (s : EventTimelineSet Event EventId Token)
    (back forward : Option Token) :
    ((s.resetLiveTimeline back forward).timeline s.created).events = [] := by
  unfold EventTimelineSet.resetLiveTimeline
  simp only [Function.update_self]

/-- The others have the events they have had. -/
theorem resetLiveTimeline_old (s : EventTimelineSet Event EventId Token)
    (back forward : Option Token) {t : ℕ} (ht : t < s.created) :
    ((s.resetLiveTimeline back forward).timeline t).events = (s.timeline t).events := by
  unfold EventTimelineSet.resetLiveTimeline
  dsimp only
  rw [Function.update_of_ne (Nat.ne_of_lt ht)]
  by_cases hlive : t = s.liveTimeline
  · rw [hlive, Function.update_self]
  · rw [Function.update_of_ne hlive]

namespace Indexed

theorem get_isSome (hs : Indexed getId s) {id : EventId} :
    (s.eventIdToTimeline.get id).isSome ↔ ∃ e ∈ allEvents s, getId e = id := by
  rw [Option.isSome_iff_exists]
  constructor
  · rintro ⟨t, ht⟩
    obtain ⟨hmem, e, he, hid⟩ := (hs.index id t).1 ht
    exact ⟨e, mem_allEvents.2 ⟨t, hmem, he⟩, hid⟩
  · rintro ⟨e, he, hid⟩
    obtain ⟨t, hmem, het⟩ := mem_allEvents.1 he
    exact ⟨t, (hs.index id t).2 ⟨hmem, e, het, hid⟩⟩

theorem get_eq_none (hs : Indexed getId s) {id : EventId} :
    s.eventIdToTimeline.get id = none ↔ ∀ e ∈ allEvents s, getId e ≠ id := by
  rw [← Option.not_isSome_iff_eq_none, hs.get_isSome]
  push Not
  exact Iff.rfl

/-- Only the ids of the events it has matter. -/
theorem congr (hs : Indexed getId s) (h : ∀ e ∈ allEvents s, getId' e = getId e) :
    Indexed getId' s where
  live := hs.live
  timelines := hs.timelines
  created := hs.created
  index id t := by
    rw [hs.index]
    refine and_congr_right fun ht => exists_congr fun e => and_congr_right fun he => ?_
    rw [h e (mem_allEvents.2 ⟨t, ht, he⟩)]
  events := hs.events
  ids e he f hf hid := by
    rw [h e he, h f hf] at hid
    exact hs.ids e he f hf hid

/-- Links and tokens do not matter. -/
theorem of_sameEvents (hs : Indexed getId s) (h : SameEvents s s')
    (hcreated : s'.created = s.created) : Indexed getId s' := by
  have hall : allEvents s' = allEvents s := by
    unfold allEvents
    rw [h.timelines]
    exact List.flatMap_congr fun t _ => h.events t
  refine ⟨?_, ?_, fun t ht => ?_, fun id t => ?_, ?_, fun e he f hf => ?_⟩
  · rw [h.liveTimeline, h.timelines]
    exact hs.live
  · rw [h.timelines]
    exact hs.timelines
  · rw [h.timelines] at ht
    rw [hcreated]
    exact hs.created t ht
  · rw [h.eventIdToTimeline, h.timelines, h.events]
    exact hs.index id t
  · rw [hall]
    exact hs.events
  · rw [hall] at he hf
    exact hs.ids e he f hf

/-- A new set. -/
theorem new (timelineSupport : Bool) (filter : Option (Event → Bool)) :
    Indexed getId (EventTimelineSet.new timelineSupport filter :
      EventTimelineSet Event EventId Token) where
  live := List.mem_singleton_self 0
  timelines := List.nodup_singleton 0
  created t ht := by
    rw [List.mem_singleton.1 ht]
    exact Nat.zero_lt_one
  index id t := by
    simp [EventTimelineSet.new, EventTimeline.new]
  events := List.nodup_nil
  ids e he := absurd he List.not_mem_nil

section Operations

variable [DecidableEq EventId]

/-- **Adding** an event with an unknown id, to either end of one of the timelines. -/
theorem addEventToTimeline (hs : Indexed getId s) {t : ℕ} (ht : t ∈ s.timelines) (toStart : Bool)
    (hnew : ∀ e ∈ allEvents s, getId e ≠ getId x) :
    Indexed getId (s.addEventToTimeline getId x t toStart) ∧
      ∀ e, e ∈ allEvents (s.addEventToTimeline getId x t toStart) ↔ e ∈ allEvents s ∨ e = x := by
  have hself : (s.addEventToTimeline getId x t toStart).timeline t =
      (s.timeline t).addEvent x toStart := Function.update_self ..
  have hother : ∀ u, u ≠ t →
      (s.addEventToTimeline getId x t toStart).timeline u = s.timeline u :=
    fun u hu => Function.update_of_ne hu ..
  have hperm : ((s.timeline t).addEvent x toStart).events.Perm (x :: (s.timeline t).events) := by
    unfold EventTimeline.addEvent
    by_cases hstart : toStart = true
    · rw [if_pos hstart]
    · rw [if_neg hstart]
      exact List.perm_append_comm
  have hev : ∀ u e, e ∈ ((s.addEventToTimeline getId x t toStart).timeline u).events ↔
      e ∈ (s.timeline u).events ∨ (u = t ∧ e = x) := fun u e =>
    mem_addEventToTimeline s x e t u toStart
  have hmem : ∀ e, e ∈ allEvents (s.addEventToTimeline getId x t toStart) ↔
      e ∈ allEvents s ∨ e = x := by
    intro e
    rw [mem_allEvents, mem_allEvents]
    simp only [hev]
    constructor
    · rintro ⟨u, hu, he | ⟨_, he⟩⟩
      · exact .inl ⟨u, hu, he⟩
      · exact .inr he
    · rintro (⟨u, hu, he⟩ | he)
      · exact ⟨u, hu, .inl he⟩
      · exact ⟨t, ht, .inr ⟨rfl, he⟩⟩
  refine ⟨⟨hs.live, hs.timelines, hs.created, fun id u => ?_, ?_, fun e he f hf hid => ?_⟩, hmem⟩
  · simp only [hev]
    show (s.eventIdToTimeline.set (getId x) t).get id = some u ↔ _
    rw [JsObject.get_set]
    split
    next hid =>
      rw [Option.some.injEq]
      constructor
      · intro htu
        rw [← htu]
        exact ⟨ht, x, .inr ⟨rfl, rfl⟩, hid.symm⟩
      · rintro ⟨hu, e, he | ⟨rfl, rfl⟩, heid⟩
        · exact absurd (heid.trans hid) (hnew e (mem_allEvents.2 ⟨u, hu, he⟩))
        · rfl
    next hid =>
      rw [hs.index]
      constructor
      · rintro ⟨hu, e, he, heid⟩
        exact ⟨hu, e, .inl he, heid⟩
      · rintro ⟨hu, e, he | ⟨rfl, rfl⟩, heid⟩
        · exact ⟨hu, e, he, heid⟩
        · exact absurd heid.symm hid
  · -- the event is new, so the list stays without duplicates
    have hrest : otherEvents (s.addEventToTimeline getId x t toStart) t = otherEvents s t :=
      otherEvents_congr hs.timelines rfl hother
    have hall : (allEvents (s.addEventToTimeline getId x t toStart)).Perm (x :: allEvents s) := by
      have hafter := allEvents_perm (s := s.addEventToTimeline getId x t toStart) ht
      rw [hself, hrest] at hafter
      exact hafter.trans ((hperm.append_right _).trans ((allEvents_perm ht).symm.cons x))
    rw [hall.nodup_iff, List.nodup_cons]
    exact ⟨fun hx => hnew x hx rfl, hs.events⟩
  · rcases (hmem e).1 he with he | hex <;> rcases (hmem f).1 hf with hf | hfx
    · exact hs.ids e he f hf hid
    · rw [hfx] at hid
      exact absurd hid (hnew e he)
    · rw [hex] at hid
      exact absurd hid.symm (hnew f hf)
    · rw [hex, hfx]

/-- **A new id** for an event of the set. -/
theorem replaceEventId (hs : Indexed getId s) {oldId newId : EventId} (hx : x ∈ allEvents s)
    (hold : getId x = oldId) (hnew : getId' x = newId)
    (hother : ∀ e ∈ allEvents s, e ≠ x → getId' e = getId e ∧ getId e ≠ newId) :
    Indexed getId' (s.replaceEventId oldId newId) ∧
      allEvents (s.replaceEventId oldId newId) = allEvents s := by
  obtain ⟨t, ht⟩ := Option.isSome_iff_exists.1 (hs.get_isSome.2 ⟨x, hx, hold⟩)
  have heq : s.replaceEventId oldId newId =
      { s with eventIdToTimeline := (s.eventIdToTimeline.delete oldId).set newId t } := by
    unfold EventTimelineSet.replaceEventId
    rw [ht]
  rw [heq]
  -- the events that had the old id, or have the new one, are this one
  have hxt : t ∈ s.timelines ∧ x ∈ (s.timeline t).events := by
    obtain ⟨hmem, e, he, hid⟩ := (hs.index _ t).1 ht
    obtain rfl := hs.ids e (mem_allEvents.2 ⟨t, hmem, he⟩) x hx (hid.trans hold.symm)
    exact ⟨hmem, he⟩
  refine ⟨⟨hs.live, hs.timelines, hs.created, fun id u => ?_, hs.events, fun e he f hf hid => ?_⟩,
    rfl⟩
  · simp only [JsObject.get_set, JsObject.get_delete]
    split
    next hid =>
      rw [Option.some.injEq]
      constructor
      · rintro rfl
        exact ⟨hxt.1, x, hxt.2, hnew.trans hid.symm⟩
      · rintro ⟨hu, e, he, heid⟩
        have hea := mem_allEvents.2 ⟨u, hu, he⟩
        by_cases hex : e = x
        · rw [hex] at he
          have hget := (hs.index oldId u).2 ⟨hu, x, he, hold⟩
          exact Option.some.inj (ht.symm.trans hget)
        · obtain ⟨hsame, hne⟩ := hother e hea hex
          exact absurd (hsame.symm.trans (heid.trans hid)) hne
    next hid =>
      split
      next hido =>
        simp only [reduceCtorEq, false_iff]
        rintro ⟨hu, e, he, heid⟩
        have hea := mem_allEvents.2 ⟨u, hu, he⟩
        by_cases hex : e = x
        · rw [hex, hnew] at heid
          exact hid heid.symm
        · obtain ⟨hsame, _⟩ := hother e hea hex
          exact hex (hs.ids e hea x hx (hsame.symm.trans (heid.trans (hido.trans hold.symm))))
      next hido =>
        rw [hs.index]
        refine and_congr_right fun hu => exists_congr fun e => and_congr_right fun he => ?_
        have hea := mem_allEvents.2 ⟨u, hu, he⟩
        by_cases hex : e = x
        · rw [hex, hold, hnew]
          exact iff_of_false (fun h => hido h.symm) (fun h => hid h.symm)
        · rw [(hother e hea hex).1]
  · change e ∈ allEvents s at he
    change f ∈ allEvents s at hf
    by_cases hex : e = x <;> by_cases hfx : f = x
    · rw [hex, hfx]
    · rw [hex, hnew, (hother f hf hfx).1] at hid
      exact absurd hid.symm (hother f hf hfx).2
    · rw [hfx, hnew, (hother e he hex).1] at hid
      exact absurd hid (hother e he hex).2
    · rw [(hother e he hex).1, (hother f hf hfx).1] at hid
      exact hs.ids e he f hf hid

/-- An id nobody has is not replaced. -/
theorem replaceEventId_unknown (hs : Indexed getId s) {oldId : EventId} (newId : EventId)
    (h : ∀ e ∈ allEvents s, getId e ≠ oldId) : s.replaceEventId oldId newId = s := by
  unfold EventTimelineSet.replaceEventId
  rw [hs.get_eq_none.2 h]

/-- `removeEvent` of a timeline takes out an event with the id, if there is one. -/
theorem removeEvent_timeline (t : EventTimeline Event Token) (id : EventId) :
    (t.removeEvent getId id = none ∧ ∀ e ∈ t.events, getId e ≠ id) ∨
      ∃ e t', t.removeEvent getId id = some (e, t') ∧ getId e = id ∧
        t.events.Perm (e :: t'.events) := by
  unfold EventTimeline.removeEvent
  cases hi : EventTimeline.lastIndexOf getId t.events id with
  | none =>
    left
    refine ⟨rfl, fun e he hid => ?_⟩
    obtain ⟨i, hlt, rfl⟩ := List.getElem_of_mem he
    have hnone := List.find?_eq_none.1 hi i (by simpa using hlt)
    simp [hlt, hid] at hnone
  | some i =>
    right
    have hsome := List.find?_some hi
    simp only [decide_eq_true_eq] at hsome
    obtain ⟨e, he, hid⟩ := Option.map_eq_some_iff.1 hsome
    obtain ⟨hlt, hget⟩ := List.getElem?_eq_some_iff.1 he
    refine ⟨e, _, by simp only [Option.bind_some, he, Option.map_some]; rfl, hid, ?_⟩
    rw [← hget]
    exact (List.getElem_cons_eraseIdx_perm hlt).symm

/-- **Removing** the event with an id. -/
theorem removeEvent (hs : Indexed getId s) (id : EventId) :
    Indexed getId (s.removeEvent getId id) ∧
      ∀ e, e ∈ allEvents (s.removeEvent getId id) ↔ e ∈ allEvents s ∧ getId e ≠ id := by
  cases hget : s.eventIdToTimeline.get id with
  | none =>
    have hsame : s.removeEvent getId id = s := by
      unfold EventTimelineSet.removeEvent
      rw [hget]
    rw [hsame]
    exact ⟨hs, fun e => ⟨fun he => ⟨he, hs.get_eq_none.1 hget e he⟩, fun h => h.1⟩⟩
  | some t =>
    obtain ⟨ht, x, hx, hxid⟩ := (hs.index id t).1 hget
    rcases removeEvent_timeline (s.timeline t) id with ⟨_, hnone⟩ | ⟨y, t', hrem, hyid, hperm⟩
    · exact absurd hxid (hnone x hx)
    have hsame : s.removeEvent getId id =
        { s.setTimeline t t' with eventIdToTimeline := s.eventIdToTimeline.delete id } := by
      unfold EventTimelineSet.removeEvent
      simp only [hget, hrem]
    rw [hsame]
    have hself : (s.setTimeline t t').timeline t = t' := Function.update_self ..
    have hother : ∀ u, u ≠ t → (s.setTimeline t t').timeline u = s.timeline u :=
      fun u hu => Function.update_of_ne hu ..
    have hrest : otherEvents (s.setTimeline t t') t = otherEvents s t :=
      otherEvents_congr hs.timelines rfl hother
    have hall : (allEvents s).Perm (y :: allEvents (s.setTimeline t t')) := by
      have hafter := allEvents_perm (s := s.setTimeline t t') ht
      rw [hself, hrest] at hafter
      exact (allEvents_perm ht).trans ((hperm.append_right _).trans (hafter.symm.cons y))
    have hnodup : y ∉ allEvents (s.setTimeline t t') ∧
        (allEvents (s.setTimeline t t')).Nodup := by
      rw [← List.nodup_cons, ← hall.nodup_iff]
      exact hs.events
    have hy : y ∈ allEvents s := hall.mem_iff.2 List.mem_cons_self
    have hmem : ∀ e, e ∈ allEvents (s.setTimeline t t') ↔ e ∈ allEvents s ∧ getId e ≠ id := by
      intro e
      constructor
      · intro he
        have hes : e ∈ allEvents s := hall.mem_iff.2 (List.mem_cons_of_mem y he)
        refine ⟨hes, fun heid => hnodup.1 ?_⟩
        rw [← hs.ids e hes y hy (heid.trans hyid.symm)]
        exact he
      · rintro ⟨he, heid⟩
        rcases List.mem_cons.1 (hall.mem_iff.1 he) with rfl | he
        · exact absurd hyid heid
        · exact he
    refine ⟨⟨hs.live, hs.timelines, hs.created, fun id' u => ?_, hnodup.2, ?_⟩, hmem⟩
    · simp only [JsObject.get_delete]
      split
      next hid =>
        simp only [reduceCtorEq, false_iff]
        rintro ⟨hu, e, he, heid⟩
        have hes : e ∈ allEvents (s.setTimeline t t') := mem_allEvents.2 ⟨u, hu, he⟩
        exact ((hmem e).1 hes).2 (heid.trans hid)
      next hid =>
        rw [hs.index]
        refine and_congr_right fun hu => exists_congr fun e => and_congr_left fun heid => ?_
        by_cases hut : u = t
        · rw [hut, hself, hperm.mem_iff, List.mem_cons]
          refine ⟨fun h => h.resolve_left fun hey => ?_, .inr⟩
          rw [hey] at heid
          exact hid (heid.symm.trans hyid)
        · rw [hother u hut]
    · intro e he f hf hid
      exact hs.ids e ((hmem e).1 he).1 f ((hmem f).1 hf).1 hid

section

omit [DecidableEq EventId]

/-- **A new timeline**, without events, is made. -/
theorem append (hs : Indexed getId s) (hlive : s'.liveTimeline ∈ s'.timelines)
    (htl : s'.timelines = s.timelines ++ [s.created])
    (hindex : s'.eventIdToTimeline = s.eventIdToTimeline) (hcreated : s'.created = s.created + 1)
    (hnew : (s'.timeline s.created).events = [])
    (hold : ∀ t, t < s.created → (s'.timeline t).events = (s.timeline t).events) :
    Indexed getId s' ∧ allEvents s' = allEvents s := by
  have hall : allEvents s' = allEvents s := by
    unfold allEvents
    rw [htl, List.flatMap_append, List.flatMap_cons, hnew]
    simp only [List.flatMap_nil, List.append_nil]
    exact List.flatMap_congr fun t ht => hold t (hs.created t ht)
  refine ⟨⟨hlive, ?_, fun t ht => ?_, fun id t => ?_, ?_, fun e he f hf hid => ?_⟩, hall⟩
  · rw [htl]
    refine hs.timelines.append (List.nodup_singleton _) ?_
    rw [List.disjoint_singleton]
    exact fun h => absurd (hs.created _ h) (Nat.lt_irrefl _)
  · rw [htl, List.mem_append, List.mem_singleton] at ht
    rw [hcreated]
    rcases ht with ht | ht
    · have := hs.created t ht
      omega
    · omega
  · rw [hindex, hs.index, htl, List.mem_append, List.mem_singleton]
    constructor
    · rintro ⟨ht, h⟩
      rw [← hold t (hs.created t ht)] at h
      exact ⟨.inl ht, h⟩
    · rintro ⟨ht | rfl, e, he, hid⟩
      · rw [hold t (hs.created t ht)] at he
        exact ⟨ht, e, he, hid⟩
      · rw [hnew] at he
        exact absurd he List.not_mem_nil
  · rw [hall]
    exact hs.events
  · rw [hall] at he hf
    exact hs.ids e he f hf hid

/-- `addTimeline` only makes a timeline. -/
theorem addTimeline (hs : Indexed getId s) {t : ℕ} (hok : s.addTimeline = .ok (t, s')) :
    Indexed getId s' := by
  unfold EventTimelineSet.addTimeline at hok
  split at hok
  · exact absurd hok (by simp)
  · rw [Except.ok.injEq, Prod.mk.injEq] at hok
    rw [← hok.2]
    refine And.left (hs.append (List.mem_append_left _ hs.live) rfl rfl rfl ?_ fun t ht => ?_)
    · show (Function.update s.timeline s.created EventTimeline.new s.created).events = []
      rw [Function.update_self]
      rfl
    · show (Function.update s.timeline s.created EventTimeline.new t).events = _
      rw [Function.update_of_ne (Nat.ne_of_lt ht)]

/-- **A reset** keeps all events or discards them. -/
theorem resetLiveTimeline (hs : Indexed getId s) (back forward : Option Token) :
    Indexed getId (s.resetLiveTimeline back forward) ∧
      allEvents (s.resetLiveTimeline back forward) =
        if !s.timelineSupport || forward.isNone then [] else allEvents s := by
  have hnew := resetLiveTimeline_new s back forward
  have hold : ∀ t, t < s.created →
      ((s.resetLiveTimeline back forward).timeline t).events = (s.timeline t).events :=
    fun t ht => resetLiveTimeline_old s back forward ht
  by_cases hdiscard : (!s.timelineSupport || forward.isNone) = true
  · have htl : (s.resetLiveTimeline back forward).timelines = [s.created] := if_pos hdiscard
    have hindex : (s.resetLiveTimeline back forward).eventIdToTimeline = .empty :=
      if_pos hdiscard
    have hall : allEvents (s.resetLiveTimeline back forward) = [] := by
      unfold allEvents
      rw [htl, List.flatMap_cons, hnew]
      rfl
    rw [if_pos hdiscard]
    refine ⟨⟨?_, ?_, fun t ht => ?_, fun id t => ?_, ?_, fun e he => ?_⟩, hall⟩
    · rw [htl]
      exact List.mem_singleton_self _
    · rw [htl]
      exact List.nodup_singleton _
    · rw [htl] at ht
      rw [List.mem_singleton.1 ht]
      exact Nat.lt_succ_self _
    · rw [hindex, htl]
      simp only [JsObject.get_empty, reduceCtorEq, false_iff]
      rintro ⟨ht, e, he, _⟩
      rw [List.mem_singleton.1 ht, hnew] at he
      exact absurd he List.not_mem_nil
    · rw [hall]
      exact List.nodup_nil
    · rw [hall] at he
      exact absurd he List.not_mem_nil
  · have htl : (s.resetLiveTimeline back forward).timelines = s.timelines ++ [s.created] :=
      if_neg hdiscard
    have hindex : (s.resetLiveTimeline back forward).eventIdToTimeline = s.eventIdToTimeline :=
      if_neg hdiscard
    rw [if_neg hdiscard]
    refine hs.append ?_ htl hindex rfl hnew hold
    rw [htl]
    exact List.mem_append_right _ (List.mem_singleton_self _)

end

/-- **A live event** is added unless its id is known or the filter rejects it. -/
theorem addLiveEvent (hs : Indexed getId s) :
    Indexed getId (s.addLiveEvent getId x false) ∧
      ∀ e, e ∈ allEvents (s.addLiveEvent getId x false) ↔ e ∈ allEvents s ∨
        (e = x ∧ s.filterRoomTimeline [x] ≠ [] ∧ ∀ f ∈ allEvents s, getId f ≠ getId x) := by
  unfold EventTimelineSet.addLiveEvent
  by_cases hpass : s.filterRoomTimeline [x] = []
  · rw [if_pos hpass]
    refine ⟨hs, fun e => ?_⟩
    simp [hpass]
  · rw [if_neg hpass]
    cases hget : s.eventIdToTimeline.get (getId x) with
    | some t =>
      refine ⟨hs, fun e => ?_⟩
      have hknown := hs.get_isSome.1 (Option.isSome_of_eq_some hget)
      refine ⟨.inl, fun h => ?_⟩
      rcases h with h | ⟨_, _, hnone⟩
      · exact h
      · obtain ⟨f, hf, hid⟩ := hknown
        exact absurd hid (hnone f hf)
    | none =>
      have hnew := hs.get_eq_none.1 hget
      obtain ⟨hs', hmem⟩ := hs.addEventToTimeline hs.live false hnew
      refine ⟨hs', fun e => ?_⟩
      rw [hmem]
      exact or_congr_right ⟨fun h => ⟨h, hpass, hnew⟩, fun h => h.1⟩

omit [DecidableEq EventId] in
/-- One event **in the place of another** that has its id. -/
theorem exchange (hs : Indexed getId s) {t : ℕ} (ht : t ∈ s.timelines) {y : Event}
    {rest : List Event} {timeline : EventTimeline Event Token} (hid : getId y = getId x)
    (hbefore : (s.timeline t).events.Perm (y :: rest))
    (hafter : timeline.events.Perm (x :: rest)) : Indexed getId (s.setTimeline t timeline) := by
  have hself : (s.setTimeline t timeline).timeline t = timeline := Function.update_self ..
  have hother : ∀ u, u ≠ t → (s.setTimeline t timeline).timeline u = s.timeline u :=
    fun u hu => Function.update_of_ne hu ..
  have hall : (allEvents s).Perm (y :: (rest ++ otherEvents s t)) :=
    (allEvents_perm ht).trans (hbefore.append_right _)
  have hall' : (allEvents (s.setTimeline t timeline)).Perm (x :: (rest ++ otherEvents s t)) := by
    have hrest : otherEvents (s.setTimeline t timeline) t = otherEvents s t :=
      otherEvents_congr hs.timelines rfl hother
    have hperm := allEvents_perm (s := s.setTimeline t timeline) ht
    rw [hself, hrest] at hperm
    exact hperm.trans (hafter.append_right _)
  have hy : y ∈ allEvents s := hall.mem_iff.2 List.mem_cons_self
  have hold : ∀ e, e ∈ rest ++ otherEvents s t → e ∈ allEvents s := fun e he =>
    hall.mem_iff.2 (List.mem_cons_of_mem y he)
  have hnodup : y ∉ rest ++ otherEvents s t ∧ (rest ++ otherEvents s t).Nodup := by
    rw [← List.nodup_cons, ← hall.nodup_iff]
    exact hs.events
  -- the others have other ids
  have hne : ∀ e, e ∈ rest ++ otherEvents s t → getId e ≠ getId x := by
    intro e he heid
    rw [← hid] at heid
    rw [hs.ids e (hold e he) y hy heid] at he
    exact hnodup.1 he
  refine ⟨hs.live, hs.timelines, hs.created, fun id u => ?_, ?_, fun e he f hf heid => ?_⟩
  · show s.eventIdToTimeline.get id = some u ↔ _
    rw [hs.index]
    refine and_congr_right fun hu => ?_
    by_cases hut : u = t
    · rw [hut, hself]
      simp only [hbefore.mem_iff, hafter.mem_iff, List.exists_mem_cons_iff, hid]
    · rw [hother u hut]
  · rw [hall'.nodup_iff, List.nodup_cons]
    exact ⟨fun hx => hne x hx rfl, hnodup.2⟩
  · rw [hall'.mem_iff, List.mem_cons] at he hf
    rcases he with rfl | he <;> rcases hf with rfl | hf
    · rfl
    · exact absurd heid.symm (hne f hf)
    · exact absurd heid (hne e he)
    · exact hs.ids e (hold e he) f (hold f hf) heid

/-- Where the strategy puts an event: in the place of one with its id. -/
theorem set_findIdx_perm {l : List Event} (h : ∃ y ∈ l, getId y = getId x) :
    ∃ y rest, getId y = getId x ∧ l.Perm (y :: rest) ∧
      (l.set (l.findIdx fun e => getId e = getId x) x).Perm (x :: rest) := by
  have hlt : l.findIdx (fun e => getId e = getId x) < l.length := by
    rw [List.findIdx_lt_length]
    obtain ⟨y, hy, hid⟩ := h
    exact ⟨y, hy, decide_eq_true hid⟩
  refine ⟨_, l.eraseIdx (l.findIdx fun e => getId e = getId x), ?_,
    (List.getElem_cons_eraseIdx_perm hlt).symm, ?_⟩
  · exact of_decide_eq_true (List.findIdx_getElem (w := hlt))
  · exact List.set_perm_cons_eraseIdx hlt x

/-- **A duplicate** takes the place of the event with its id. -/
theorem addLiveEvent_replace (hs : Indexed getId s) :
    Indexed getId (s.addLiveEvent getId x true) := by
  unfold EventTimelineSet.addLiveEvent
  by_cases hpass : s.filterRoomTimeline [x] = []
  · rw [if_pos hpass]
    exact hs
  · rw [if_neg hpass]
    cases hget : s.eventIdToTimeline.get (getId x) with
    | none => exact (hs.addEventToTimeline hs.live false (hs.get_eq_none.1 hget)).1
    | some t =>
      obtain ⟨ht, hknown⟩ := (hs.index _ t).1 hget
      obtain ⟨y, rest, hy, hperm, hperm'⟩ := set_findIdx_perm hknown
      dsimp only
      rw [if_neg (by decide)]
      generalize (s.timeline t).events.set _ x = events' at hperm'
      exact hs.exchange ht hy hperm hperm'

/-- **An echo** gives an event its new id, and adds it if it is not there. -/
theorem handleRemoteEcho (hs : Indexed getId s) {oldId newId : EventId} (hold : getId x = oldId)
    (hnew : getId' x = newId)
    (hother : ∀ e ∈ allEvents s, e ≠ x →
      getId' e = getId e ∧ getId e ≠ newId ∧ getId e ≠ oldId) :
    Indexed getId' (s.handleRemoteEcho getId' x oldId newId) ∧
      ∀ e, e ∈ allEvents (s.handleRemoteEcho getId' x oldId newId) ↔
        e ∈ allEvents s ∨ (e = x ∧ s.filterRoomTimeline [x] ≠ []) := by
  unfold EventTimelineSet.handleRemoteEcho
  by_cases hx : x ∈ allEvents s
  · rw [if_pos (hs.get_isSome.2 ⟨x, hx, hold⟩)]
    obtain ⟨hs', hall⟩ := hs.replaceEventId hx hold hnew fun e he hex =>
      ⟨(hother e he hex).1, (hother e he hex).2.1⟩
    refine ⟨hs', fun e => ?_⟩
    rw [hall]
    refine ⟨.inl, fun h => ?_⟩
    rcases h with h | ⟨rfl, _⟩
    · exact h
    · exact hx
  · have hne : ∀ e ∈ allEvents s, e ≠ x := fun e he hex => hx (hex ▸ he)
    have hs₁ : Indexed getId' s := hs.congr fun e he => (hother e he (hne e he)).1
    rw [if_neg]
    · split
      next hpass => exact ⟨hs₁, fun e => by simp [hpass]⟩
      next hpass =>
        obtain ⟨hs', hmem⟩ := hs₁.addEventToTimeline (x := x) hs₁.live false fun e he => by
          rw [(hother e he (hne e he)).1, hnew]
          exact (hother e he (hne e he)).2.1
        refine ⟨hs', fun e => ?_⟩
        rw [hmem]
        exact or_congr_right ⟨fun h => ⟨h, hpass⟩, fun h => h.1⟩
    · rw [hs.get_isSome]
      rintro ⟨e, he, hid⟩
      exact (hother e he (hne e he)).2.2 hid

end Operations

end Indexed

end Indexed

end MatrixSdk.Models
