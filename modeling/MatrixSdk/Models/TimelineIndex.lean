/-
The index from event ids to timelines, `_eventIdToTimeline` of `models/event-timeline-set.js`,
along any sequence of calls on a set.

A set whose index is in order is [`Indexed`]; what the operations that add one event, exchange two or
take one out do to that is known. What is left is the loop of `addEventsToTimeline`. The timeline it
starts at is the one the request was made for, and a reset in the meantime can have dropped that one
from the set. The events the loop adds there get into the index all the same, and an entry for a
dropped timeline is never set right again ([`Dangling`]).

The other two calls that can go wrong are those that give an event its new id, for they do not ask
whether the set knows it.
-/
import MatrixSdk.Lib.Loops
import MatrixSdk.Models.AddEvents
import MatrixSdk.Models.IndexedTimelines
import MatrixSdk.Models.TimelineSetCalls

set_option autoImplicit false

namespace MatrixSdk.Models

open MatrixSdk.Lib EventTimelineSet

/-! ## Entries that lead out of the set -/

section Entries

variable {Event EventId Token : Type} {getId : Event → EventId}
variable {s s' : EventTimelineSet Event EventId Token}

/-- The index has an entry for a timeline that the set has dropped. -/
def Dangling (s : EventTimelineSet Event EventId Token) : Prop :=
  ∃ id t, s.eventIdToTimeline.get id = some t ∧ t ∉ s.timelines

theorem Dangling.of_sameEvents (hs : Dangling s) (h : SameEvents s s') : Dangling s' := by
  obtain ⟨id, t, hget, ht⟩ := hs
  refine ⟨id, t, ?_, ?_⟩
  · rw [h.eventIdToTimeline]
    exact hget
  · rw [h.timelines]
    exact ht

/-- At most one of the elements counted. -/
theorem eq_of_countP_eq_one {α : Type} {p : α → Bool} {l : List α} (h : l.countP p = 1) {x y : α}
    (hx : x ∈ l) (hy : y ∈ l) (hpx : p x) (hpy : p y) : x = y := by
  rw [List.countP_eq_length_filter, List.length_eq_one_iff] at h
  obtain ⟨z, hz⟩ := h
  have hxz : x ∈ l.filter p := List.mem_filter.2 ⟨hx, hpx⟩
  have hyz : y ∈ l.filter p := List.mem_filter.2 ⟨hy, hpy⟩
  rw [hz, List.mem_singleton] at hxz hyz
  rw [hxz, hyz]

/-- In an indexed set an id that is there is there once. -/
theorem Indexed.countP_eq_one [DecidableEq Event] [DecidableEq EventId] (hs : Indexed getId s)
    {t : ℕ} (ht : t ∈ s.timelines) (id : EventId) :
    (s.timeline t).events.countP (fun e => getId e = id) = 1 ↔
      ∃ e ∈ (s.timeline t).events, getId e = id := by
  constructor
  · intro hone
    have hpos : 0 < (s.timeline t).events.countP (fun e => getId e = id) := by omega
    obtain ⟨e, he, hid⟩ := List.countP_pos_iff.1 hpos
    exact ⟨e, he, of_decide_eq_true hid⟩
  · rintro ⟨e, he, hid⟩
    have hnodup : (s.timeline t).events.Nodup := by
      have hboth := (allEvents_perm ht).nodup_iff.1 hs.events
      exact hboth.of_append_left
    have hcount : (s.timeline t).events.countP (fun f => getId f = id) =
        (s.timeline t).events.count e := by
      refine List.countP_congr fun f hf => ?_
      rw [decide_eq_true_eq, beq_iff_eq]
      constructor
      · intro hfid
        exact hs.ids f (mem_allEvents.2 ⟨t, ht, hf⟩) e (mem_allEvents.2 ⟨t, ht, he⟩)
          (hfid.trans hid.symm)
      · intro hfe
        rw [hfe]
        exact hid
    rw [hcount]
    exact List.count_eq_one_of_mem hnodup he

end Entries

/-! ## The loop -/

section Batch

variable {Event EventId Token : Type} [DecidableEq EventId] {getId : Event → EventId}
variable {s : EventTimelineSet Event EventId Token} {t : ℕ} {d : Direction}
variable {st : EventTimelineSet.AddEventsState Event EventId Token} {event : Event}

omit [DecidableEq EventId] in
/-- A join moves no event, nor does one that throws half way. -/
theorem joinTimelines_outcome (existing : ℕ) :
    Outcome (fun s' => SameEvents s s' ∧ s'.created = s.created)
      (fun thrown => SameEvents s thrown.set ∧ thrown.set.created = s.created)
      (s.joinTimelines t existing d) := by
  have hrefl : SameEvents s s := ⟨rfl, rfl, rfl, fun _ => rfl⟩
  unfold joinTimelines
  split
  · exact ⟨hrefl, rfl⟩
  next t₁ h₁ =>
    have hhalf : SameEvents s (s.setTimeline t t₁) :=
      setTimeline_sameEvents (setNeighbouringTimeline_events h₁)
    dsimp only
    split
    · exact ⟨hhalf, rfl⟩
    next t₂ h₂ =>
      exact ⟨hhalf.trans (setTimeline_sameEvents (setNeighbouringTimeline_events h₂)), rfl⟩

variable (getId) in
/-- The loop passes over the event, with nothing done: one of the live timeline, when it comes
before those of a timeline that has none before it yet. -/
def passesOver (d : Direction) (s : EventTimelineSet Event EventId Token) (t : ℕ) (event : Event) :
    Bool :=
  d = .backwards ∧ (s.timeline t).getNeighbouringTimeline d = none ∧
    s.eventIdToTimeline.get (getId event) = some s.liveTimeline

/-- An event that is known moves nothing. The loop stays where it is, or goes on at the
timeline that has the event; from a timeline that the set has dropped it always goes on, but for the
events it passes over. -/
theorem addNextEvent_known {existing : ℕ}
    (hknown : st.set.eventIdToTimeline.get (getId event) = some existing) :
    Outcome (fun st' => SameEvents st.set st'.set ∧ st'.set.created = st.set.created ∧
        (st'.timeline = st.timeline ∨ st'.timeline = existing))
      (fun thrown => SameEvents st.set thrown.set ∧ thrown.set.created = st.set.created)
      (addNextEvent getId d st event) := by
  have hrefl : SameEvents st.set st.set := ⟨rfl, rfl, rfl, fun _ => rfl⟩
  unfold addNextEvent
  rw [hknown]
  dsimp only
  by_cases hsame : existing = st.timeline
  · rw [if_pos hsame]
    exact ⟨hrefl, rfl, .inl rfl⟩
  · rw [if_neg hsame]
    split
    · exact ⟨hrefl, rfl, .inr rfl⟩
    · split
      · exact ⟨hrefl, rfl, .inl rfl⟩
      · rw [outcome_map]
        exact (joinTimelines_outcome existing).mono (fun _ h => ⟨h.1, h.2, .inr rfl⟩) fun _ h => h

/-- From a timeline that the set has dropped. -/
theorem addNextEvent_dropped (hs : Indexed getId st.set) (ht : st.timeline ∉ st.set.timelines)
    {existing : ℕ} (hknown : st.set.eventIdToTimeline.get (getId event) = some existing) :
    if passesOver getId d st.set st.timeline event then
      addNextEvent getId d st event = .ok { st with lastEventWasNew := false }
    else Outcome (fun st' => st'.timeline = existing) (fun _ => True)
      (addNextEvent getId d st event) := by
  have hexisting : existing ∈ st.set.timelines := ((hs.index _ _).1 hknown).1
  have hsame : existing ≠ st.timeline := fun heq => ht (heq ▸ hexisting)
  have hnotLive : ¬ (d = .forwards ∧ st.timeline = st.set.liveTimeline) := fun h =>
    ht (h.2 ▸ hs.live)
  unfold addNextEvent passesOver
  rw [hknown]
  dsimp only
  rw [if_neg hsame]
  by_cases hneighbour : (st.set.timeline st.timeline).getNeighbouringTimeline d = none
  · rw [hneighbour]
    by_cases hlive : d = .backwards ∧ existing = st.set.liveTimeline
    · rw [if_pos (decide_eq_true ⟨hlive.1, rfl, congrArg some hlive.2⟩), if_neg (by simp),
        if_pos (.inl hlive)]
    · rw [if_neg, if_neg (by simp), if_neg (fun h => h.elim hlive hnotLive), outcome_map]
      · exact (joinTimelines_outcome existing).mono (fun _ _ => rfl) fun _ _ => trivial
      · rw [decide_eq_true_eq]
        exact fun h => hlive ⟨h.1, Option.some.inj h.2.2⟩
  · rw [if_neg, if_pos (Option.isSome_iff_ne_none.2 hneighbour)]
    · exact rfl
    · rw [decide_eq_true_eq]
      exact fun h => hneighbour h.2.1

/-- **An iteration at a timeline of the set.** -/
theorem addNextEvent_inSet (hs : Indexed getId st.set) (ht : st.timeline ∈ st.set.timelines) :
    Outcome (fun st' => Indexed getId st'.set ∧ st'.timeline ∈ st'.set.timelines)
      (fun thrown => Indexed getId thrown.set)
      (addNextEvent getId d st event) := by
  cases hget : st.set.eventIdToTimeline.get (getId event) with
  | none =>
    rw [addNextEvent_unknown d hget]
    exact ⟨(hs.addEventToTimeline ht _ (hs.get_eq_none.1 hget)).1, ht⟩
  | some existing =>
    have hexisting : existing ∈ st.set.timelines := ((hs.index _ _).1 hget).1
    refine (addNextEvent_known hget).mono (fun st' h => ?_) fun thrown h => ?_
    · obtain ⟨hsame, hcreated, hat⟩ := h
      refine ⟨hs.of_sameEvents hsame hcreated, ?_⟩
      rw [hsame.timelines]
      rcases hat with hat | hat
      · rw [hat]
        exact ht
      · rw [hat]
        exact hexisting
    · exact hs.of_sameEvents h.1 h.2

/-- What dangles goes on dangling. -/
theorem addNextEvent_dangling (hs : Dangling st.set) :
    Outcome (fun st' => Dangling st'.set) (fun thrown => Dangling thrown.set)
      (addNextEvent getId d st event) := by
  cases hget : st.set.eventIdToTimeline.get (getId event) with
  | none =>
    rw [addNextEvent_unknown d hget]
    obtain ⟨id, t, hid, ht⟩ := hs
    refine ⟨id, t, ?_, ht⟩
    show (st.set.eventIdToTimeline.set (getId event) st.timeline).get id = some t
    rw [JsObject.get_set_ne, hid]
    intro heq
    rw [heq, hget] at hid
    exact absurd hid (by simp)
  | some existing =>
    exact (addNextEvent_known hget).mono (fun _ h => hs.of_sameEvents h.1) fun _ h =>
      hs.of_sameEvents h.1

variable (st) in
theorem foldlM_inSet (hs : Indexed getId st.set) (ht : st.timeline ∈ st.set.timelines)
    (events : List Event) :
    Outcome (fun st' => Indexed getId st'.set) (fun thrown => Indexed getId thrown.set)
      (events.foldlM (addNextEvent getId d) st) :=
  (outcome_foldlM (fun _ _ h => addNextEvent_inSet h.1 h.2) events ⟨hs, ht⟩).mono
    (fun _ h => h.1) fun _ h => h

variable (st) in
theorem foldlM_dangling (hs : Dangling st.set) (events : List Event) :
    Outcome (fun st' => Dangling st'.set) (fun thrown => Dangling thrown.set)
      (events.foldlM (addNextEvent getId d) st) :=
  outcome_foldlM (fun _ _ h => addNextEvent_dangling h) events hs

variable (st) in
/-- **The loop, from a timeline that the set has dropped.** The index stays in order if the first
event that the loop does not pass over is a known one: from there on the loop is in the set. -/
theorem foldlM_dropped (hs : Indexed getId st.set) (ht : st.timeline ∉ st.set.timelines)
    (events : List Event) :
    if (events.dropWhile (passesOver getId d st.set st.timeline)).head?.all fun e =>
      (st.set.eventIdToTimeline.get (getId e)).isSome then
      Outcome (fun st' => Indexed getId st'.set) (fun thrown => Indexed getId thrown.set)
        (events.foldlM (addNextEvent getId d) st)
    else
      Outcome (fun st' => Dangling st'.set) (fun thrown => Dangling thrown.set)
        (events.foldlM (addNextEvent getId d) st) := by
  induction events generalizing st with
  | nil => exact hs
  | cons e events ih =>
    cases hget : st.set.eventIdToTimeline.get (getId e) with
    | none =>
      have hnot : ¬ passesOver getId d st.set st.timeline e = true := by
        unfold passesOver
        rw [hget]
        simp
      rw [List.dropWhile_cons_of_neg hnot, List.head?_cons, Option.all_some, hget,
        outcome_foldlM_cons, outcome_foldlM_cons, addNextEvent_unknown d hget,
        if_neg (by decide)]
      -- the event is added to the timeline that has been dropped
      have hdangling : Dangling (st.set.addEventToTimeline getId e st.timeline
          (d = .backwards)) := by
        refine ⟨getId e, st.timeline, ?_, ht⟩
        show (st.set.eventIdToTimeline.set (getId e) st.timeline).get (getId e) = _
        rw [JsObject.get_set_self]
      exact foldlM_dangling ⟨_, st.timeline, true, true⟩ hdangling events
    | some existing =>
      have hfirst := addNextEvent_dropped (d := d) hs ht hget
      by_cases hover : passesOver getId d st.set st.timeline e = true
      · rw [if_pos hover] at hfirst
        rw [List.dropWhile_cons_of_pos hover, outcome_foldlM_cons, outcome_foldlM_cons, hfirst]
        exact ih { st with lastEventWasNew := false } hs ht
      · rw [if_neg hover] at hfirst
        rw [List.dropWhile_cons_of_neg hover, List.head?_cons, Option.all_some, hget,
          if_pos Option.isSome_some, outcome_foldlM_cons]
        have hexisting : existing ∈ st.set.timelines := ((hs.index _ _).1 hget).1
        have hknown := addNextEvent_known (d := d) hget
        cases hres : addNextEvent getId d st e with
        | error thrown =>
          rw [hres] at hknown
          exact hs.of_sameEvents hknown.1 hknown.2
        | ok st' =>
          rw [hres] at hknown hfirst
          have hat : st'.timeline = existing := hfirst
          refine foldlM_inSet st' (hs.of_sameEvents hknown.1 hknown.2.1) ?_ events
          rw [hat, hknown.1.timelines]
          exact hexisting

variable (getId) in
/-- The batch goes into the set: the timeline it is for is one of the set, or the first of its events
that the loop does not pass over is known. -/
def StaysInSet (d : Direction) (s : EventTimelineSet Event EventId Token) (t : ℕ)
    (events : List Event) : Prop :=
  t ∈ s.timelines ∨ (events.dropWhile (passesOver getId d s t)).head?.all fun e =>
    (s.eventIdToTimeline.get (getId e)).isSome

instance (events : List Event) : Decidable (StaysInSet getId d s t events) :=
  inferInstanceAs (Decidable (_ ∨ _))

variable (getId) in
/-- **A batch.** It keeps the index in order, or leaves an entry for a timeline that the set has
dropped. -/
theorem addEventsToTimeline_indexed (hs : Indexed getId s) (events : List Event) (toStart : Bool)
    (t : ℕ) (token : Option Token) :
    if StaysInSet getId (.ofToStart toStart) s t (s.filterRoomTimeline events) then
      Outcome (Indexed getId) (fun thrown => Indexed getId thrown.set)
        (s.addEventsToTimeline getId events toStart (some t) token)
    else
      Outcome Dangling (fun thrown => Dangling thrown.set)
        (s.addEventsToTimeline getId events toStart (some t) token) := by
  by_cases hrej : toStart = false ∧ t = s.liveTimeline
  · rw [hrej.1, hrej.2, if_pos (.inl hs.live)]
    obtain ⟨message, herr⟩ := addEventsToTimeline_rejected getId s events token
    rw [herr]
    exact hs
  by_cases hempty : s.filter.isSome ∧ s.filterRoomTimeline events = []
  · have hok : s.addEventsToTimeline getId events toStart (some t) token = .ok s := by
      unfold addEventsToTimeline
      dsimp only
      rw [if_neg (by simpa using hrej), if_pos hempty]
    rw [hok, hempty.2, if_pos (.inr rfl)]
    exact hs
  rw [addEventsToTimeline_eq hrej hempty, outcome_map, outcome_map]
  generalize s.filterRoomTimeline events = batch
  generalize Direction.ofToStart toStart = d
  -- the token moves no event
  have hkept : ∀ st : EventTimelineSet.AddEventsState Event EventId Token,
      Indexed getId st.set → Indexed getId (st.updateToken d token) := fun st hst =>
    hst.of_sameEvents (updateToken_sameEvents d token st).1 (updateToken_created d token st)
  by_cases ht : t ∈ s.timelines
  · rw [if_pos (.inl ht)]
    exact (foldlM_inSet ⟨s, t, false, false⟩ hs ht batch).mono hkept fun _ h => h
  · have hdropped := foldlM_dropped (d := d) ⟨s, t, false, false⟩ hs ht batch
    by_cases hknown : (batch.dropWhile (passesOver getId d s t)).head?.all fun e =>
        (s.eventIdToTimeline.get (getId e)).isSome
    · rw [if_pos hknown] at hdropped
      rw [if_pos (.inr hknown)]
      exact hdropped.mono hkept fun _ h => h
    · rw [if_neg hknown] at hdropped
      rw [if_neg (fun h => h.elim ht hknown)]
      exact hdropped.mono (fun st hst => hst.of_sameEvents (updateToken_sameEvents d token st).1)
        fun _ h => h

end Batch

/-! ## New ids -/

section NewIds

variable {Event EventId Token : Type} [DecidableEq Event] [DecidableEq EventId]
variable {getId : Event → EventId} {s : EventTimelineSet Event EventId Token} {x : Event}
variable {newId : EventId}

variable (getId) in
/-- What the set knows by the id the event has had is the event itself, and it does not know the new
id yet. -/
def RenamesOwn (s : EventTimelineSet Event EventId Token) (event : Event) (newId : EventId) : Prop :=
  ∀ t ∈ s.eventIdToTimeline.get (getId event), newId = getId event ∨
    (event ∈ (s.timeline t).events ∧ s.eventIdToTimeline.get newId = none)

omit [DecidableEq EventId] in
/-- The id of an event the set does not have. -/
theorem Indexed.update_unknown (hs : Indexed getId s) (hx : x ∉ allEvents s) :
    Indexed (Function.update getId x newId) s :=
  hs.congr fun _ he => Function.update_of_ne (ne_of_mem_of_not_mem he hx) _ _

omit [DecidableEq Event] [DecidableEq EventId] in
theorem Indexed.not_mem_of_get_none (hs : Indexed getId s)
    (h : s.eventIdToTimeline.get (getId x) = none) : x ∉ allEvents s := fun hx =>
  hs.get_eq_none.1 h x hx rfl

theorem Indexed.renamesOwn (hs : Indexed getId s) (h : RenamesOwn getId s x newId) :
    Indexed (Function.update getId x newId) (s.replaceEventId (getId x) newId) := by
  cases hget : s.eventIdToTimeline.get (getId x) with
  | none =>
    rw [hs.replaceEventId_unknown newId (hs.get_eq_none.1 hget)]
    exact hs.update_unknown (hs.not_mem_of_get_none hget)
  | some t =>
    rcases h t hget with hsame | ⟨hx, hnew⟩
    · -- whichever event has the id keeps it
      rw [hsame, Function.update_eq_self]
      obtain ⟨ht, y, hy, hid⟩ := (hs.index _ t).1 hget
      have hya : y ∈ allEvents s := mem_allEvents.2 ⟨t, ht, hy⟩
      refine (hs.replaceEventId hya hid hid fun e he hey => ⟨rfl, fun heid => hey ?_⟩).1
      exact hs.ids e he y hya (heid.trans hid.symm)
    · have hxa : x ∈ allEvents s := mem_allEvents.2 ⟨t, ((hs.index _ t).1 hget).1, hx⟩
      refine (hs.replaceEventId hxa rfl (Function.update_self ..) fun e he hex => ?_).1
      exact ⟨Function.update_of_ne hex _ _, hs.get_eq_none.1 hnew e he⟩

end NewIds

/-! ## Any sequence of calls -/

section Calls

variable {Event EventId Token : Type} [DecidableEq Event] [DecidableEq EventId]

/-- The old id a set is told is the one that the event has had, as `Room` sees to. -/
def TellsOldId (s : TimelineSetState Event EventId Token) :
    TimelineSetCall Event EventId Token → Prop
  | .handleRemoteEcho localEvent oldEventId _ => oldEventId = s.getId localEvent
  | .replaceEventId event oldEventId _ => oldEventId = s.getId event
  | _ => True

instance (s : TimelineSetState Event EventId Token) (e : TimelineSetCall Event EventId Token) :
    Decidable (TellsOldId s e) := by
  cases e <;> unfold TellsOldId <;> infer_instance

/-- The calls on a set of a room. -/
def roomTimelineSetSystem (timelineSupport : Bool) (filter : Option (Event → Bool))
    (getId : Event → EventId) :
    System (TimelineSetState Event EventId Token) (TimelineSetCall Event EventId Token) where
  init := ⟨.new timelineSupport filter, getId, []⟩
  step s e :=
    if TellsOldId s e then (timelineSetSystem timelineSupport filter getId).step s e else none

/-- The index maps an id to a timeline if and only if that is one of the set and has exactly one
event with the id, and no id is in two timelines. -/
structure IndexFaithful (s : TimelineSetState Event EventId Token) : Prop where
  index : ∀ id t, s.set.eventIdToTimeline.get id = some t ↔
    t ∈ s.set.timelines ∧ (s.set.timeline t).events.countP (fun e => s.getId e = id) = 1
  once : ∀ t ∈ s.set.timelines, ∀ t' ∈ s.set.timelines, ∀ e ∈ (s.set.timeline t).events,
    ∀ e' ∈ (s.set.timeline t').events, s.getId e = s.getId e' → t = t'

/-- A batch goes into the set. An event that gets a new id is the one the set knows by the old id, if
it knows one; and the new id is not known yet, unless the set has nothing to do. -/
def KeepsIndex (s : TimelineSetState Event EventId Token) :
    TimelineSetCall Event EventId Token → Prop
  | .addEventsToTimeline events toStart (some t) _ =>
    StaysInSet s.getId (.ofToStart toStart) s.set t (s.set.filterRoomTimeline events)
  | .handleRemoteEcho localEvent _ newEventId =>
    RenamesOwn s.getId s.set localEvent newEventId ∧
      (s.set.eventIdToTimeline.get (s.getId localEvent) = none →
        s.set.filterRoomTimeline [localEvent] ≠ [] →
        s.set.eventIdToTimeline.get newEventId = none)
  | .replaceEventId event _ newEventId => RenamesOwn s.getId s.set event newEventId
  | _ => True

variable {timelineSupport : Bool} {filter : Option (Event → Bool)} {getId : Event → EventId}
variable {s s' : TimelineSetState Event EventId Token}

theorem Indexed.faithful (hs : Indexed s.getId s.set) : IndexFaithful s := by
  refine ⟨fun id t => ?_, fun t ht t' ht' e he e' he' hid => ?_⟩
  · rw [hs.index]
    exact and_congr_right fun ht => (hs.countP_eq_one ht id).symm
  · have hget := (hs.index (s.getId e) t).2 ⟨ht, e, he, rfl⟩
    have hget' := (hs.index (s.getId e) t').2 ⟨ht', e', he', hid.symm⟩
    exact Option.some.inj (hget.symm.trans hget')

omit [DecidableEq Event] in
theorem IndexFaithful.not_dangling (h : IndexFaithful s) : ¬ Dangling s.set := by
  rintro ⟨id, t, hget, ht⟩
  exact ht ((h.index id t).1 hget).1

omit [DecidableEq Event] in
/-- What the index knows is there once. -/
theorem IndexFaithful.eq_of_get (h : IndexFaithful s) {id : EventId} {t : ℕ}
    (hget : s.set.eventIdToTimeline.get id = some t) {e e' : Event}
    (he : e ∈ (s.set.timeline t).events) (he' : e' ∈ (s.set.timeline t).events)
    (hid : s.getId e = id) (hid' : s.getId e' = id) : e = e' :=
  eq_of_countP_eq_one ((h.index id t).1 hget).2 he he' (decide_eq_true hid) (decide_eq_true hid')

/-- **A step that meets the condition** leaves the index in order. -/
theorem indexed_step {e : TimelineSetCall Event EventId Token} (hs : Indexed s.getId s.set)
    (hC : KeepsIndex s e)
    (he : (roomTimelineSetSystem timelineSupport filter getId).step s e = some s') :
    Indexed s'.getId s'.set := by
  obtain ⟨hold, he⟩ := Option.ite_none_right_eq_some.1 he
  cases e with
  | addTimeline =>
    rw [← Option.some.inj he]
    unfold TimelineSetState.addTimeline
    split
    next t set hok => exact hs.addTimeline hok
    next => exact hs
  | addEventsToTimeline events toStart timeline token =>
    obtain ⟨_, he⟩ := Option.ite_none_right_eq_some.1 he
    rw [← Option.some.inj he]
    cases timeline with
    | none => exact hs
    | some t =>
      have hbatch := addEventsToTimeline_indexed s.getId hs events toStart t token
      have hstays : StaysInSet s.getId (.ofToStart toStart) s.set t
          (s.set.filterRoomTimeline events) := hC
      rw [if_pos hstays] at hbatch
      cases hres : s.set.addEventsToTimeline s.getId events toStart (some t) token with
      | ok set =>
        rw [hres] at hbatch
        exact hbatch
      | error thrown =>
        rw [hres] at hbatch
        exact hbatch
  | addLiveEvent event replace =>
    rw [← Option.some.inj he]
    cases replace with
    | false => exact hs.addLiveEvent.1
    | true => exact hs.addLiveEvent_replace
  | resetLiveTimeline back forward =>
    rw [← Option.some.inj he]
    exact (hs.resetLiveTimeline back forward).1
  | removeEvent eventId =>
    rw [← Option.some.inj he]
    exact (hs.removeEvent eventId).1
  | handleRemoteEcho localEvent oldEventId newEventId =>
    rw [← Option.some.inj he]
    obtain ⟨hown, hadd⟩ := hC
    have hold : oldEventId = s.getId localEvent := hold
    rw [hold]
    show Indexed (Function.update s.getId localEvent newEventId) (s.set.handleRemoteEcho _ _ _ _)
    unfold handleRemoteEcho
    cases hget : s.set.eventIdToTimeline.get (s.getId localEvent) with
    | some t =>
      rw [if_pos Option.isSome_some]
      exact hs.renamesOwn hown
    | none =>
      have hx := hs.not_mem_of_get_none hget
      have hs₁ : Indexed (Function.update s.getId localEvent newEventId) s.set :=
        hs.update_unknown hx
      rw [if_neg (by simp)]
      split
      next => exact hs₁
      next hpass =>
        refine (hs₁.addEventToTimeline hs₁.live false ?_).1
        rw [Function.update_self]
        exact hs₁.get_eq_none.1 (hadd hget hpass)
  | replaceEventId event oldEventId newEventId =>
    rw [← Option.some.inj he]
    have hold : oldEventId = s.getId event := hold
    rw [hold]
    exact hs.renamesOwn hC

/-- **The converse for new ids.** A set that is in order after an event has got a new id has known it
by the old one. -/
theorem renamesOwn_of_faithful {x : Event} {newId : EventId} (hs : Indexed s.getId s.set)
    (h : IndexFaithful { s with
      set := s.set.replaceEventId (s.getId x) newId
      getId := Function.update s.getId x newId }) : RenamesOwn s.getId s.set x newId := by
  intro t ht
  have hget : s.set.eventIdToTimeline.get (s.getId x) = some t := ht
  by_cases hsame : newId = s.getId x
  · exact .inl hsame
  right
  have hset : s.set.replaceEventId (s.getId x) newId = { s.set with
      eventIdToTimeline := (s.set.eventIdToTimeline.delete (s.getId x)).set newId t } := by
    unfold replaceEventId
    rw [hget]
  rw [hset] at h
  have hnew : ((s.set.eventIdToTimeline.delete (s.getId x)).set newId t).get newId = some t :=
    JsObject.get_set_self ..
  obtain ⟨htl, y, hy, hid⟩ := (hs.index _ t).1 hget
  have hmem : x ∈ (s.set.timeline t).events := by
    by_contra hx
    -- otherwise another event has the old id, under which nothing is found any more
    have hxa : x ∉ allEvents s.set := by
      intro hxa
      obtain ⟨u, hu, hxu⟩ := mem_allEvents.1 hxa
      have hu' := (hs.index _ u).2 ⟨hu, x, hxu, rfl⟩
      rw [hget] at hu'
      rw [← Option.some.inj hu'] at hxu
      exact hx hxu
    have hs' : Indexed (Function.update s.getId x newId) s.set := hs.update_unknown hxa
    have hyx : y ≠ x := ne_of_mem_of_not_mem hy hx
    have hone := (hs'.countP_eq_one htl (s.getId x)).2
      ⟨y, hy, (Function.update_of_ne hyx _ _).trans hid⟩
    have hfound := (h.index (s.getId x) t).2 ⟨htl, hone⟩
    rw [JsObject.get_set_ne (Ne.symm hsame), JsObject.get_delete_self] at hfound
    exact absurd hfound (by simp)
  refine ⟨hmem, ?_⟩
  by_contra hknown
  obtain ⟨u, hu⟩ := Option.ne_none_iff_exists'.1 hknown
  obtain ⟨hut, z, hz, hzid⟩ := (hs.index newId u).1 hu
  have hzx : z ≠ x := by
    intro heq
    rw [heq] at hzid
    exact hsame hzid.symm
  have hzid' : Function.update s.getId x newId z = newId :=
    (Function.update_of_ne hzx _ _).trans hzid
  have hxid' : Function.update s.getId x newId x = newId := Function.update_self ..
  have htu : u = t := h.once u hut t htl z hz x hmem (hzid'.trans hxid'.symm)
  rw [htu] at hz
  exact hzx (h.eq_of_get hnew hz hmem hzid' hxid')

/-- **A step after which the index is in order** has met the condition. -/
theorem keepsIndex_of_faithful {e : TimelineSetCall Event EventId Token}
    (hs : Indexed s.getId s.set)
    (he : (roomTimelineSetSystem timelineSupport filter getId).step s e = some s')
    (h : IndexFaithful s') : KeepsIndex s e := by
  obtain ⟨hold, he⟩ := Option.ite_none_right_eq_some.1 he
  cases e with
  | addEventsToTimeline events toStart timeline token =>
    cases timeline with
    | none => trivial
    | some t =>
      obtain ⟨_, he⟩ := Option.ite_none_right_eq_some.1 he
      rw [← Option.some.inj he] at h
      by_contra hnot
      have hleaves : ¬ StaysInSet s.getId (.ofToStart toStart) s.set t
          (s.set.filterRoomTimeline events) := hnot
      have hbatch := addEventsToTimeline_indexed s.getId hs events toStart t token
      rw [if_neg hleaves] at hbatch
      cases hres : s.set.addEventsToTimeline s.getId events toStart (some t) token with
      | ok set =>
        rw [hres] at hbatch h
        exact h.not_dangling hbatch
      | error thrown =>
        rw [hres] at hbatch h
        exact h.not_dangling hbatch
  | handleRemoteEcho localEvent oldEventId newEventId =>
    rw [← Option.some.inj he] at h
    have hold : oldEventId = s.getId localEvent := hold
    rw [hold] at h
    cases hget : s.set.eventIdToTimeline.get (s.getId localEvent) with
    | some t =>
      have hset : s.set.handleRemoteEcho (Function.update s.getId localEvent newEventId)
          localEvent (s.getId localEvent) newEventId =
          s.set.replaceEventId (s.getId localEvent) newEventId := by
        unfold handleRemoteEcho
        rw [hget, if_pos Option.isSome_some]
      rw [hset] at h
      refine ⟨renamesOwn_of_faithful hs h, fun hnone => ?_⟩
      rw [hget] at hnone
      exact absurd hnone (by simp)
    | none =>
      refine ⟨fun t ht => ?_, fun _ hpass => ?_⟩
      · rw [hget] at ht
        exact absurd ht (by simp)
      · by_contra hknown
        obtain ⟨u, hu⟩ := Option.ne_none_iff_exists'.1 hknown
        obtain ⟨hut, z, hz, hzid⟩ := (hs.index newEventId u).1 hu
        have hset : s.set.handleRemoteEcho (Function.update s.getId localEvent newEventId)
            localEvent (s.getId localEvent) newEventId =
            s.set.addEventToTimeline (Function.update s.getId localEvent newEventId) localEvent
              s.set.liveTimeline false := by
          unfold handleRemoteEcho
          rw [hget, if_neg (by simp), if_neg hpass]
        rw [hset] at h
        -- the event is now in the live timeline, next to one that has the id as well
        have hzx : z ≠ localEvent := ne_of_mem_of_not_mem (mem_allEvents.2 ⟨u, hut, hz⟩)
          (hs.not_mem_of_get_none hget)
        have hzid' : Function.update s.getId localEvent newEventId z = newEventId :=
          (Function.update_of_ne hzx _ _).trans hzid
        have hxid' : Function.update s.getId localEvent newEventId localEvent = newEventId :=
          Function.update_self ..
        have hlive : localEvent ∈ ((s.set.addEventToTimeline
            (Function.update s.getId localEvent newEventId) localEvent s.set.liveTimeline
            false).timeline s.set.liveTimeline).events :=
          (mem_addEventToTimeline ..).2 (.inr ⟨rfl, rfl⟩)
        have hzu : z ∈ ((s.set.addEventToTimeline
            (Function.update s.getId localEvent newEventId) localEvent s.set.liveTimeline
            false).timeline u).events := (mem_addEventToTimeline ..).2 (.inl hz)
        have hul : u = s.set.liveTimeline :=
          h.once u hut s.set.liveTimeline hs.live z hzu localEvent hlive
            (hzid'.trans hxid'.symm)
        rw [hul] at hzu
        refine hzx (h.eq_of_get ?_ hzu hlive hzid' hxid')
        show (s.set.eventIdToTimeline.set _ s.set.liveTimeline).get newEventId = _
        rw [hxid', JsObject.get_set_self]
  | replaceEventId event oldEventId newEventId =>
    rw [← Option.some.inj he] at h
    have hold : oldEventId = s.getId event := hold
    rw [hold] at h
    exact renamesOwn_of_faithful hs h
  | _ => trivial

/-- **The index, exactly.** All along a run the index maps an id to a timeline just when that is one of
the set with one event of the id, and no id is in two timelines, if and only if each batch goes into
the set, and each event that gets a new id is the one known by its old id and the new id is unknown. -/
theorem indexFaithful_iff
    {tr : List (TimelineSetState Event EventId Token × TimelineSetCall Event EventId Token)}
    (h : (roomTimelineSetSystem timelineSupport filter getId).Trace tr s) :
    System.HoldsAlong IndexFaithful tr s ↔ System.Meets KeepsIndex tr := by
  have hnew : Indexed getId
      (.new timelineSupport filter : EventTimelineSet Event EventId Token) := .new ..
  refine h.holdsAlong_iff_of (I := fun s => Indexed s.getId s.set) hnew hnew.faithful ?_ ?_
  · intro s e s' hs _ he hfaithful
    exact indexed_step hs (keepsIndex_of_faithful hs he hfaithful) he
  · intro s e s' hs _ he
    exact ⟨keepsIndex_of_faithful hs he, fun hC => (indexed_step hs hC he).faithful⟩

end Calls

/-! Two ways out: the answer to a request for a timeline that a reset has dropped meanwhile; and an
echo of an event that has been fetched already, so that the set knows its new id. Events are their own
ids to begin with. -/

section Examples

abbrev exampleRoomSets : System (TimelineSetState ℕ ℕ ℕ) (TimelineSetCall ℕ ℕ ℕ) :=
  roomTimelineSetSystem true none id

def resetWhileFetching : List (TimelineSetCall ℕ ℕ ℕ) :=
  [.addLiveEvent 2 false, .resetLiveTimeline none none, .addEventsToTimeline [1] true (some 0) none]

theorem resetWhileFetching_runs : (exampleRoomSets.run resetWhileFetching).isSome := by decide

def echoAfterFetching : List (TimelineSetCall ℕ ℕ ℕ) :=
  [.addTimeline, .addLiveEvent 1 false, .addEventsToTimeline [2] false (some 1) none,
    .handleRemoteEcho 1 1 2]

theorem echoAfterFetching_runs : (exampleRoomSets.run echoAfterFetching).isSome := by decide

/-- An echo, a request answered after a reset that keeps the timeline, and one answered after a reset
that drops it, with nothing that is not in the live timeline. -/
def fetchAndEcho : List (TimelineSetCall ℕ ℕ ℕ) :=
  [.addLiveEvent 2 false, .addLiveEvent 5 false, .handleRemoteEcho 5 5 3,
    .resetLiveTimeline (some 0) (some 1), .addEventsToTimeline [1] true (some 0) none,
    .addLiveEvent 4 true, .resetLiveTimeline none none, .addLiveEvent 4 true,
    .addEventsToTimeline [4] true (some 1) none]

theorem fetchAndEcho_runs : (exampleRoomSets.run fetchAndEcho).isSome := by decide

theorem indexFaithful_iff_fetchAndEcho :
    ((exampleRoomSets.run fetchAndEcho).get fetchAndEcho_runs).set.eventIdToTimeline.get 4 = some 2 ∧
      System.HoldsAlong IndexFaithful (exampleRoomSets.steps fetchAndEcho)
        ((exampleRoomSets.run fetchAndEcho).get fetchAndEcho_runs) := by
  refine ⟨by decide, (indexFaithful_iff (System.trace_get fetchAndEcho_runs)).2 ?_⟩
  change ∀ q ∈ [_, _, _, _, _, _, _, _, _], _
  simp only [List.forall_mem_cons]
  refine ⟨trivial, trivial, ⟨fun t ht => .inr ?_, fun _ _ => by decide⟩, trivial, .inl (by decide),
    trivial, trivial, trivial, .inr (by decide), fun q hq => absurd hq List.not_mem_nil⟩
  obtain rfl : 0 = t := Option.some.inj ht
  exact ⟨by decide, by decide⟩

/-- Not along all runs: an id leads to a timeline that the set does not have any more, and an id
is in two timelines. -/
theorem indexFaithful_fails :
    (¬ ∀ s, exampleRoomSets.Reachable s → ∀ id t, s.set.eventIdToTimeline.get id = some t ↔
      t ∈ s.set.timelines ∧ (s.set.timeline t).events.countP (fun e => s.getId e = id) = 1) ∧
    ¬ ∀ s, exampleRoomSets.Reachable s → ∀ t ∈ s.set.timelines, ∀ t' ∈ s.set.timelines,
      ∀ e ∈ (s.set.timeline t).events, ∀ e' ∈ (s.set.timeline t').events,
        s.getId e = s.getId e' → t = t' := by
  refine ⟨fun h => ?_, fun h => ?_⟩
  · have hindex := h _ (System.reachable_get resetWhileFetching_runs) 1 0
    exact absurd (hindex.1 (by decide)).1 (by decide)
  · have honce := h _ (System.reachable_get echoAfterFetching_runs) 0 (by decide) 1 (by decide)
    exact absurd (honce 1 (by decide) 2 (by decide) (by decide)) (by decide)

end Examples

end MatrixSdk.Models
