/-
The links between timelines: `setNeighbouringTimeline` of `src/models/event-timeline.js`, where
`addEventsToTimeline` of `src/models/event-timeline-set.js` calls it, and `compareEventOrdering`,
which follows the links.

Timelines are meant to be chains, linked there and back ([`Chained`]). Only the joins in
`addEventsToTimeline` set links, one half after the other; nothing takes a link away, so what a join
has done wrong stays. A join is right if it puts a chain behind another one
([`JoinsEnds`]).
-/
import MatrixSdk.Lib.Links
import MatrixSdk.Lib.Loops
import MatrixSdk.Models.AddEvents
import MatrixSdk.Models.TimelineSetCalls

set_option autoImplicit false

namespace MatrixSdk.Models

open MatrixSdk.Lib Relation

/-! ## The order of two events -/

/-- What `compareEventOrdering` returns: `null`, a number, or `NaN`. -/
inductive EventOrdering
  | unknown
  | number (n : Int)
  | notANumber
  deriving DecidableEq

/-- `idx1 - idx2`. -/
def EventOrdering.ofIndices : Option ℕ × Option ℕ → EventOrdering
  | (some idx1, some idx2) => .number (idx1 - idx2)
  | _ => .notANumber

namespace EventTimelineSet

variable {Event EventId Token : Type}

/-- The timeline that a timeline is linked to in a direction. -/
def link (s : EventTimelineSet Event EventId Token) (d : Direction) (t : ℕ) : Option ℕ :=
  (s.timeline t).getNeighbouringTimeline d

variable [DecidableEq EventId] (getId : Event → EventId)

/-- The loop that looks for both events in one timeline, from the index `idx` on. -/
def eventIndices (eventId1 eventId2 : EventId) :
    List Event → ℕ → Option ℕ × Option ℕ → Option ℕ × Option ℕ
  | [], _, found => found
  | ev :: events, idx, (idx1, idx2) =>
    if idx1.isSome && idx2.isSome then (idx1, idx2)
    else
      let idx1 := if getId ev = eventId1 then some idx else idx1
      let idx2 := if getId ev = eventId2 then some idx else idx2
      eventIndices eventId1 eventId2 events (idx + 1) (idx1, idx2)

/-- `compareEventOrdering`; nothing when the links have been followed for `fuel` timelines and go
on. -/
def compareEventOrdering (s : EventTimelineSet Event EventId Token) (fuel : ℕ)
    (eventId1 eventId2 : EventId) : Option EventOrdering :=
  if eventId1 = eventId2 then some (.number 0)
  else
    match s.eventIdToTimeline.get eventId1, s.eventIdToTimeline.get eventId2 with
    | some timeline1, some timeline2 =>
      if timeline1 = timeline2 then
        let events := (s.timeline timeline1).events
        some (.ofIndices (eventIndices getId eventId1 eventId2 events 0 (none, none)))
      else
        match walk (s.link .forwards) timeline2 fuel (some timeline1) with
        | none => none
        | some true => some (.number (-1))
        | some false =>
          match walk (s.link .backwards) timeline2 fuel (some timeline1) with
          | none => none
          | some true => some (.number 1)
          | some false => some .unknown
    | _, _ => some .unknown

end EventTimelineSet

/-! ## Chains of timelines -/

section Chained

variable {Event EventId Token : Type}

/-- Timelines are linked there and back, and in no cycle. -/
structure Chained (s : EventTimelineSet Event EventId Token) : Prop where
  symmetric : ∀ d t t', s.link d t = some t' ↔ s.link d.inverse t' = some t
  acyclic : ∀ d, Acyclic (Linked (s.link d))

/-- Every link is as it was. -/
def SameLinks (s s' : EventTimelineSet Event EventId Token) : Prop :=
  ∀ d t, s'.link d t = s.link d t

/-- Links, and the index, are about timelines that have been made. -/
structure Bounded (s : EventTimelineSet Event EventId Token) : Prop where
  live : s.liveTimeline < s.created
  link : ∀ d t t', s.link d t = some t' → t < s.created ∧ t' < s.created
  index : ∀ id t, s.eventIdToTimeline.get id = some t → t < s.created

variable {s s' : EventTimelineSet Event EventId Token} {t : ℕ} {d : Direction}
  {st : EventTimelineSet.AddEventsState Event EventId Token} {existing : ℕ}

theorem SameLinks.chained_iff (h : SameLinks s s') : Chained s' ↔ Chained s := by
  have heq : ∀ d, s'.link d = s.link d := fun d => funext (h d)
  constructor
  · rintro ⟨hsymmetric, hacyclic⟩
    refine ⟨fun d t t' => ?_, fun d => ?_⟩
    · rw [← heq, ← heq]
      exact hsymmetric d t t'
    · rw [← heq]
      exact hacyclic d
  · rintro ⟨hsymmetric, hacyclic⟩
    refine ⟨fun d t t' => ?_, fun d => ?_⟩
    · rw [heq, heq]
      exact hsymmetric d t t'
    · rw [heq]
      exact hacyclic d

/-- Chains in one direction are chains in the other one. -/
theorem Chained.of_direction (d : Direction)
    (hsymmetric : ∀ d t t', s.link d t = some t' ↔ s.link d.inverse t' = some t)
    (hacyclic : Acyclic (Linked (s.link d))) : Chained s := by
  refine ⟨hsymmetric, fun d' => ?_⟩
  by_cases hd : d' = d
  · rw [hd]
    exact hacyclic
  · have hinverse : d' = d.inverse := by
      cases d <;> cases d' <;> first | rfl | exact absurd rfl hd
    rw [hinverse]
    exact (acyclic_swap fun t t' => hsymmetric d t t').1 hacyclic

/-- **Comparing events ends** where the timelines are chained. -/
theorem Chained.compareEventOrdering [DecidableEq EventId] (h : Chained s) (hb : Bounded s)
    (getId : Event → EventId) (eventId1 eventId2 : EventId) :
    ∃ fuel, (s.compareEventOrdering getId fuel eventId1 eventId2).isSome := by
  unfold EventTimelineSet.compareEventOrdering
  split
  · exact ⟨0, rfl⟩
  · split
    next timeline1 timeline2 _ _ =>
      split
      · exact ⟨0, rfl⟩
      · have hends : ∀ d, ∃ fuel found,
            walk (s.link d) timeline2 fuel (some timeline1) = some found := by
          intro d
          obtain ⟨fuel, hsome⟩ :=
            walk_terminates (h.acyclic d) (hb.link d) timeline2 (some timeline1)
          exact ⟨fuel, Option.isSome_iff_exists.1 hsome⟩
        obtain ⟨forth, found, hforth⟩ := hends .forwards
        obtain ⟨back, found', hback⟩ := hends .backwards
        refine ⟨max forth back, ?_⟩
        rw [walk_mono (Nat.le_max_left forth back) hforth,
          walk_mono (Nat.le_max_right forth back) hback]
        cases found with
        | true => rfl
        | false =>
          cases found' with
          | true => rfl
          | false => rfl
    · exact ⟨0, rfl⟩

/-! ## One join -/

/-- **What a join does.** It sets both halves of a link, or it throws after the first half, if the
other timeline has a neighbour. -/
theorem joinTimelines_cases (hne : existing ≠ t) (hfree : s.link d t = none) :
    (s.link d.inverse existing = none ∧ ∃ s', s.joinTimelines t existing d = .ok s' ∧
      SameEvents s s' ∧ s'.created = s.created ∧ ∀ d' u, s'.link d' u =
        if u = t ∧ d' = d then some existing
        else if u = existing ∧ d' = d.inverse then some t else s.link d' u) ∨
    (∃ u, s.link d.inverse existing = some u) ∧
      ∃ thrown, s.joinTimelines t existing d = .error thrown ∧
        ∀ d' u, thrown.set.link d' u = if u = t ∧ d' = d then some existing else s.link d' u := by
  cases hex : s.link d.inverse existing with
  | none =>
    obtain ⟨s', hok, hsame, hcreated, hlinks⟩ := joinTimelines_eq_ok hne hfree hex
    exact .inl ⟨rfl, s', hok, hsame, hcreated, fun d' u => hlinks u d'⟩
  | some u =>
    refine .inr ⟨⟨u, rfl⟩, ?_⟩
    obtain ⟨t₁, hok₁, _, hlinks⟩ := setNeighbouringTimeline_eq_ok (n := existing) hfree
    have hget : (s.setTimeline t t₁).timeline existing = s.timeline existing :=
      Function.update_of_ne hne ..
    unfold EventTimelineSet.joinTimelines
    rw [hok₁]
    dsimp only
    rw [hget]
    unfold EventTimeline.setNeighbouringTimeline
    have htaken : ((s.timeline existing).getNeighbouringTimeline d.inverse).isSome :=
      Option.isSome_iff_exists.2 ⟨u, hex⟩
    rw [if_pos htaken]
    refine ⟨_, rfl, fun d' v => ?_⟩
    change ((Function.update s.timeline t t₁) v).getNeighbouringTimeline d' = _
    by_cases hv : v = t
    · rw [hv, Function.update_self, hlinks]
      by_cases hd : d' = d
      · rw [if_pos hd, if_pos ⟨rfl, hd⟩]
      · rw [if_neg hd, if_neg fun h => hd h.2]
        rfl
    · rw [Function.update_of_ne hv, if_neg fun h => hv h.1]
      rfl

/-- Links that are there stay. -/
def LinksGrow (s s' : EventTimelineSet Event EventId Token) : Prop :=
  ∀ d t t', s.link d t = some t' → s'.link d t = some t'

theorem SameLinks.grow (h : SameLinks s s') : LinksGrow s s' :=
  fun d t _ hlink => (h d t).trans hlink

/-- A cycle stays. -/
theorem LinksGrow.acyclic (h : LinksGrow s s') (hacyclic : ∀ d, Acyclic (Linked (s'.link d))) :
    ∀ d, Acyclic (Linked (s.link d)) :=
  fun d => (hacyclic d).mono fun t t' hlink => h d t t' hlink

/-- A join never takes a link away. -/
theorem joinTimelines_grow (hfree : s.link d t = none) (hex : s.link d.inverse existing = none)
    (hlinks : ∀ d' u, s'.link d' u =
      if u = t ∧ d' = d then some existing
      else if u = existing ∧ d' = d.inverse then some t else s.link d' u) : LinksGrow s s' := by
  intro d' u u' hlink
  rw [hlinks]
  split
  next h =>
    rw [h.1, h.2, hfree] at hlink
    exact nomatch hlink
  · split
    next h =>
      rw [h.1, h.2, hex] at hlink
      exact nomatch hlink
    · exact hlink

/-- A join links timelines that have been made. -/
theorem Bounded.join (h : Bounded s) (ht : t < s.created) (hexisting : existing < s.created)
    (hsame : SameEvents s s') (hcreated : s'.created = s.created) (hlinks : ∀ d' u, s'.link d' u =
      if u = t ∧ d' = d then some existing
      else if u = existing ∧ d' = d.inverse then some t else s.link d' u) : Bounded s' := by
  refine ⟨?_, fun d' u v hlink => ?_, fun id u hget => ?_⟩
  · rw [hsame.liveTimeline, hcreated]
    exact h.live
  · rw [hcreated]
    rw [hlinks] at hlink
    split at hlink
    next hnew =>
      rw [hnew.1, ← Option.some.inj hlink]
      exact ⟨ht, hexisting⟩
    · split at hlink
      next hnew =>
        rw [hnew.1, ← Option.some.inj hlink]
        exact ⟨hexisting, ht⟩
      · exact h.link d' u v hlink
  · rw [hcreated]
    rw [hsame.eventIdToTimeline] at hget
    exact h.index id u hget

/-- A join that goes well links there and back. -/
theorem joinTimelines_symmetric (h : ∀ d t t', s.link d t = some t' ↔ s.link d.inverse t' = some t)
    (hne : existing ≠ t) (hfree : s.link d t = none) (hex : s.link d.inverse existing = none)
    (hlinks : ∀ d' u, s'.link d' u =
      if u = t ∧ d' = d then some existing
      else if u = existing ∧ d' = d.inverse then some t else s.link d' u) :
    ∀ d t t', s'.link d t = some t' ↔ s'.link d.inverse t' = some t := by
  -- from a link to its other half, in both directions
  have hback : ∀ d' u v, s'.link d' u = some v → s'.link d'.inverse v = some u := by
    intro d' u v hlink
    rw [hlinks] at hlink
    rw [hlinks]
    split at hlink
    next hnew =>
      obtain ⟨rfl, rfl⟩ := hnew
      obtain rfl := Option.some.inj hlink
      rw [if_neg fun h => hne h.1, if_pos ⟨rfl, rfl⟩]
    · split at hlink
      next hnew =>
        obtain ⟨rfl, rfl⟩ := hnew
        obtain rfl := Option.some.inj hlink
        rw [if_pos ⟨rfl, Direction.inverse_inverse d⟩]
      · have hold : s.link d'.inverse v = some u := (h d' u v).1 hlink
        rw [if_neg, if_neg]
        · exact hold
        · rintro ⟨rfl, hd⟩
          rw [hd, hex] at hold
          exact nomatch hold
        · rintro ⟨rfl, hd⟩
          rw [hd, hfree] at hold
          exact nomatch hold
  intro d' u v
  constructor
  · exact hback d' u v
  · intro hlink
    have hagain := hback d'.inverse v u hlink
    rw [Direction.inverse_inverse] at hagain
    exact hagain

/-- **A join, exactly.** It makes a chain of two chains, unless the other timeline has a neighbour
already, or is where the chain of the first one begins. -/
theorem joinTimelines_chained_iff (h : Chained s) (hne : existing ≠ t) (hfree : s.link d t = none) :
    Outcome Chained (fun _ => False) (s.joinTimelines t existing d) ↔
      s.link d.inverse existing = none ∧ ¬ ReflTransGen (Linked (s.link d)) existing t := by
  rcases joinTimelines_cases hne hfree with
    ⟨hex, s', hok, _, _, hlinks⟩ | ⟨⟨u, hu⟩, thrown, herr, _⟩
  · have hsymmetric := joinTimelines_symmetric h.symmetric hne hfree hex hlinks
    have hiff : Acyclic (Linked (s'.link d)) ↔
        ¬ ReflTransGen (Linked (s.link d)) existing t := by
      refine acyclic_link_iff (h.acyclic d) hfree fun v => ?_
      rw [hlinks]
      by_cases hv : v = t
      · exact .inl ⟨by rw [if_pos ⟨hv, rfl⟩], hv⟩
      · exact .inr ⟨by rw [if_neg fun h => hv h.1, if_neg fun h => d.ne_inverse h.2], hv⟩
    rw [hok]
    constructor
    · exact fun h' => ⟨hex, hiff.1 (h'.acyclic d)⟩
    · exact fun hends => .of_direction d hsymmetric (hiff.2 hends.2)
  · rw [herr]
    refine iff_of_false id fun hends => ?_
    exact nomatch hu.symm.trans hends.1

/-- What a join leaves behind when it throws is half a link. -/
theorem joinTimelines_thrown (h : ∀ d t t', s.link d t = some t' ↔ s.link d.inverse t' = some t)
    (hne : existing ≠ t) (hfree : s.link d t = none) :
    Outcome (fun _ => True) (fun thrown => ¬ Chained thrown.set) (s.joinTimelines t existing d) := by
  rcases joinTimelines_cases hne hfree with ⟨_, s', hok, _⟩ | ⟨_, thrown, herr, hlinks⟩
  · rw [hok]
    trivial
  · rw [herr]
    intro h'
    have hhalf : thrown.set.link d t = some existing := by
      rw [hlinks, if_pos ⟨rfl, rfl⟩]
    have hback := (h'.symmetric d t existing).1 hhalf
    rw [hlinks, if_neg fun h => hne h.1] at hback
    exact nomatch hfree.symm.trans ((h d t existing).2 hback)

/-! ## A batch of events -/

variable [DecidableEq EventId] {getId : Event → EventId}

variable (getId) in
/-- The loop joins the timeline it is at to the timeline `existing`, which has the event. -/
structure Joins (d : Direction) (st : EventTimelineSet.AddEventsState Event EventId Token)
    (event : Event) (existing : ℕ) : Prop where
  known : st.set.eventIdToTimeline.get (getId event) = some existing
  other : existing ≠ st.timeline
  free : st.set.link d st.timeline = none
  notLive : ¬ ((d = .backwards ∧ existing = st.set.liveTimeline) ∨
    (d = .forwards ∧ st.timeline = st.set.liveTimeline))

variable (getId) in
/-- If the event makes the loop join two timelines, then the one that has the event has no neighbour
towards the other, and its chain does not end there. -/
def JoinsEnds (d : Direction) (st : EventTimelineSet.AddEventsState Event EventId Token)
    (event : Event) : Prop :=
  ∀ existing, Joins getId d st event existing →
    st.set.link d.inverse existing = none ∧
      ¬ ReflTransGen (Linked (st.set.link d)) existing st.timeline

variable (getId) in
/-- An iteration either joins timelines, or leaves the links alone. -/
theorem addNextEvent_cases (d : Direction)
    (st : EventTimelineSet.AddEventsState Event EventId Token) (event : Event) :
    (∃ existing, Joins getId d st event existing ∧
      EventTimelineSet.addNextEvent getId d st event =
        (st.set.joinTimelines st.timeline existing d).map fun set => ⟨set, existing, true, false⟩) ∨
    (∀ existing, ¬ Joins getId d st event existing) ∧
      ∃ st', EventTimelineSet.addNextEvent getId d st event = .ok st' ∧
        SameLinks st.set st'.set ∧ st'.set.created = st.set.created ∧
        st'.set.liveTimeline = st.set.liveTimeline ∧
        (∀ id t, st'.set.eventIdToTimeline.get id = some t →
          st.set.eventIdToTimeline.get id = some t ∨ t = st.timeline) ∧
        (st'.timeline = st.timeline ∨
          ∃ id, st.set.eventIdToTimeline.get id = some st'.timeline) := by
  unfold EventTimelineSet.addNextEvent
  split
  next hnew =>
    refine .inr ⟨fun existing hjoins => (nomatch hnew.symm.trans hjoins.known), _, rfl,
      fun d' u => neighbour_addEventToTimeline st.set event st.timeline u _ d', rfl, rfl,
      fun id t hget => ?_, .inl rfl⟩
    change (st.set.eventIdToTimeline.set (getId event) st.timeline).get id = some t at hget
    rw [JsObject.get_set] at hget
    split at hget
    · exact .inr (Option.some.inj hget).symm
    · exact .inl hget
  next existing hknown =>
    split
    next heq =>
      refine .inr ⟨fun existing' hjoins => ?_, _, rfl, fun _ _ => rfl, rfl, rfl,
        fun _ _ hget => .inl hget, .inl rfl⟩
      obtain rfl := Option.some.inj (hknown.symm.trans hjoins.known)
      exact hjoins.other heq
    next hne =>
      split
      next hneighbour =>
        refine .inr ⟨fun existing' hjoins => ?_, _, rfl, fun _ _ => rfl, rfl, rfl,
          fun _ _ hget => .inl hget, .inr ⟨_, hknown⟩⟩
        have hfree : (st.set.timeline st.timeline).getNeighbouringTimeline d = none := hjoins.free
        rw [hfree] at hneighbour
        exact nomatch hneighbour
      next hfree =>
        split
        next hlive =>
          refine .inr ⟨fun existing' hjoins => ?_, _, rfl, fun _ _ => rfl, rfl, rfl,
            fun _ _ hget => .inl hget, .inl rfl⟩
          obtain rfl := Option.some.inj (hknown.symm.trans hjoins.known)
          exact hjoins.notLive hlive
        next hlive =>
          refine .inl ⟨existing, ⟨hknown, hne, ?_, hlive⟩, rfl⟩
          exact Option.not_isSome_iff_eq_none.1 hfree

/-- What is known while the loop runs. -/
structure LoopOk (st : EventTimelineSet.AddEventsState Event EventId Token) : Prop where
  bounded : Bounded st.set
  timeline : st.timeline < st.set.created
  symmetric : ∀ d t t', st.set.link d t = some t' ↔ st.set.link d.inverse t' = some t

/-- An iteration never takes a link away; what it leaves behind when it throws is half a link. -/
theorem LoopOk.next (h : LoopOk st) (getId : Event → EventId) (d : Direction) (event : Event) :
    Outcome (fun st' => LoopOk st' ∧ LinksGrow st.set st'.set)
      (fun thrown => ¬ Chained thrown.set) (EventTimelineSet.addNextEvent getId d st event) := by
  rcases addNextEvent_cases getId d st event with
    ⟨existing, hjoins, heq⟩ | ⟨_, st', heq, hsame, hcreated, hlive, hindex, htimeline⟩
  · have hthrown := joinTimelines_thrown h.symmetric hjoins.other hjoins.free
    rw [heq, outcome_map]
    rcases joinTimelines_cases hjoins.other hjoins.free with
      ⟨hex, s', hok, hsame, hcreated, hlinks⟩ | ⟨_, thrown, herr, _⟩
    · have hexisting : existing < st.set.created := h.bounded.index _ _ hjoins.known
      rw [hok]
      refine ⟨⟨h.bounded.join h.timeline hexisting hsame hcreated hlinks, ?_,
        joinTimelines_symmetric h.symmetric hjoins.other hjoins.free hex hlinks⟩,
        joinTimelines_grow hjoins.free hex hlinks⟩
      change existing < s'.created
      rw [hcreated]
      exact hexisting
    · rw [herr] at hthrown ⊢
      exact hthrown
  · rw [heq]
    refine ⟨⟨⟨?_, fun d' u v hlink => ?_, fun id u hget => ?_⟩, ?_, fun d' u v => ?_⟩,
      SameLinks.grow hsame⟩
    · rw [hlive, hcreated]
      exact h.bounded.live
    · rw [hcreated]
      rw [hsame] at hlink
      exact h.bounded.link d' u v hlink
    · rw [hcreated]
      rcases hindex id u hget with hold | rfl
      · exact h.bounded.index id u hold
      · exact h.timeline
    · rw [hcreated]
      rcases htimeline with hstays | ⟨id, hknown⟩
      · rw [hstays]
        exact h.timeline
      · exact h.bounded.index id _ hknown
    · rw [hsame, hsame]
      exact h.symmetric d' u v

/-- **An iteration, exactly.** -/
theorem addNextEvent_chained_iff (h : Chained st.set) (event : Event) :
    Outcome (fun st' => Chained st'.set) (fun _ => False)
      (EventTimelineSet.addNextEvent getId d st event) ↔ JoinsEnds getId d st event := by
  rcases addNextEvent_cases getId d st event with
    ⟨existing, hjoins, heq⟩ | ⟨hnone, st', heq, hsame, _⟩
  · rw [heq, outcome_map]
    change Outcome Chained (fun _ => False) _ ↔ _
    rw [joinTimelines_chained_iff h hjoins.other hjoins.free]
    constructor
    · intro hends existing' hjoins'
      obtain rfl := Option.some.inj (hjoins.known.symm.trans hjoins'.known)
      exact hends
    · exact fun hends => hends existing hjoins
  · rw [heq]
    exact iff_of_true ((SameLinks.chained_iff hsame).2 h)
      fun existing hjoins => absurd hjoins (hnone existing)

/-- **The loop, exactly.** -/
theorem foldlM_chained_iff (events : List Event) (hI : LoopOk st) (h : Chained st.set) :
    Outcome (fun st' => Chained st'.set) (fun _ => False)
        (events.foldlM (EventTimelineSet.addNextEvent getId d) st) ↔
      MeetsAlong (EventTimelineSet.addNextEvent getId d) (JoinsEnds getId d) events st := by
  refine outcome_foldlM_iff (I := LoopOk) (fun st event st' hI hok => ?_)
    (fun st event _ h => addNextEvent_chained_iff h event) (fun st event hI hbad hgood => ?_)
    events hI h
  · have hnext := hI.next getId d event
    rw [hok] at hnext
    exact hnext.1
  · -- a cycle stays
    have hnext := hI.next getId d event
    cases hok : EventTimelineSet.addNextEvent getId d st event with
    | error thrown =>
      rw [hok] at hgood
      exact hgood
    | ok st' =>
      rw [hok] at hgood hnext
      have hchained : Chained st'.set := hgood
      exact hbad ⟨hI.symmetric, hnext.2.acyclic hchained.acyclic⟩

/-- What the loop leaves behind when it throws is half a link. -/
theorem foldlM_thrown (events : List Event) (hI : LoopOk st) :
    Outcome LoopOk (fun thrown => ¬ Chained thrown.set)
      (events.foldlM (EventTimelineSet.addNextEvent getId d) st) :=
  outcome_foldlM (fun _ event hI => (hI.next getId d event).mono (fun _ h => h.1) fun _ h => h) events hI

variable (getId) in
/-- **A batch, exactly.** -/
theorem addEventsToTimeline_chained_iff (events : List Event) {toStart : Bool}
    (token : Option Token) (hb : Bounded s) (ht : t < s.created) (h : Chained s)
    (hrej : ¬ (toStart = false ∧ t = s.liveTimeline)) :
    Outcome Chained (fun _ => False) (s.addEventsToTimeline getId events toStart (some t) token) ↔
      MeetsAlong (EventTimelineSet.addNextEvent getId (.ofToStart toStart))
        (JoinsEnds getId (.ofToStart toStart)) (s.filterRoomTimeline events) ⟨s, t, false, false⟩ := by
  by_cases hempty : s.filter.isSome ∧ s.filterRoomTimeline events = []
  · have hok : s.addEventsToTimeline getId events toStart (some t) token = .ok s := by
      unfold EventTimelineSet.addEventsToTimeline
      dsimp only
      rw [if_neg (by simpa using hrej), if_pos hempty]
    rw [hok, hempty.2]
    exact iff_of_true h trivial
  · rw [addEventsToTimeline_eq hrej hempty, outcome_map, ← foldlM_chained_iff _ ⟨hb, ht, h.symmetric⟩ h]
    -- the token changes no link
    have hsame : ∀ st : EventTimelineSet.AddEventsState Event EventId Token,
        Chained (st.updateToken (.ofToStart toStart) token) ↔ Chained st.set := fun st =>
      SameLinks.chained_iff fun d u => (updateToken_sameEvents _ token st).2 u d
    constructor
    · exact fun hgood => hgood.mono (fun st => (hsame st).1) fun _ h => h
    · exact fun hgood => hgood.mono (fun st => (hsame st).2) fun _ h => h

variable (getId) in
/-- What a batch that is not rejected leaves behind when it throws is half a link. -/
theorem addEventsToTimeline_outcome (events : List Event) {toStart : Bool} (token : Option Token)
    (hb : Bounded s) (ht : t < s.created) (h : Chained s)
    (hrej : ¬ (toStart = false ∧ t = s.liveTimeline)) :
    Outcome Bounded (fun thrown => ¬ Chained thrown.set)
      (s.addEventsToTimeline getId events toStart (some t) token) := by
  by_cases hempty : s.filter.isSome ∧ s.filterRoomTimeline events = []
  · unfold EventTimelineSet.addEventsToTimeline
    dsimp only
    rw [if_neg (by simpa using hrej), if_pos hempty]
    exact hb
  · rw [addEventsToTimeline_eq hrej hempty, outcome_map]
    refine (foldlM_thrown _ ⟨hb, ht, h.symmetric⟩).mono (fun st hst => ?_) fun _ h => h
    obtain ⟨hsame, hlinks⟩ := updateToken_sameEvents (.ofToStart toStart) token st
    have hcreated := updateToken_created (.ofToStart toStart) token st
    refine ⟨?_, fun d u v hlink => ?_, fun id u hget => ?_⟩
    · rw [hsame.liveTimeline, hcreated]
      exact hst.bounded.live
    · rw [hcreated]
      exact hst.bounded.link d u v ((hlinks u d).symm.trans hlink)
    · rw [hcreated]
      rw [hsame.eventIdToTimeline] at hget
      exact hst.bounded.index id u hget

/-! ## The other calls -/

section

omit [DecidableEq EventId]

/-- Links stay, and what is new has been made. -/
theorem Bounded.of_sameLinks (h : Bounded s) (hsame : SameLinks s s')
    (hcreated : s.created ≤ s'.created) (hlive : s'.liveTimeline < s'.created)
    (hindex : ∀ id t, s'.eventIdToTimeline.get id = some t → t < s'.created) : Bounded s' := by
  refine ⟨hlive, fun d t t' hlink => ?_, hindex⟩
  rw [hsame] at hlink
  obtain ⟨ht, ht'⟩ := h.link d t t' hlink
  exact ⟨Nat.lt_of_lt_of_le ht hcreated, Nat.lt_of_lt_of_le ht' hcreated⟩

/-- A timeline changes, but not its links. -/
theorem setTimeline_sameLinks {timeline : EventTimeline Event Token}
    (h : ∀ d, timeline.getNeighbouringTimeline d = (s.timeline t).getNeighbouringTimeline d) :
    SameLinks s (s.setTimeline t timeline) := by
  intro d u
  change ((Function.update s.timeline t timeline) u).getNeighbouringTimeline d = _
  by_cases hu : u = t
  · rw [hu, Function.update_self, h]
    rfl
  · rw [Function.update_of_ne hu]
    rfl

/-- A timeline that is made has no links. -/
theorem Bounded.link_created (h : Bounded s) (d : Direction) : s.link d s.created = none := by
  rw [Option.eq_none_iff_forall_ne_some]
  intro t hlink
  exact Nat.lt_irrefl _ (h.link d s.created t hlink).1

theorem addTimeline_links (h : Bounded s) (hok : s.addTimeline = .ok (t, s')) :
    SameLinks s s' ∧ Bounded s' := by
  unfold EventTimelineSet.addTimeline at hok
  split at hok
  · exact nomatch hok
  · obtain ⟨rfl, rfl⟩ := Prod.mk.inj (Except.ok.inj hok)
    have hsame : SameLinks s
        { s with
          timelines := s.timelines ++ [s.created]
          timeline := Function.update s.timeline s.created .new
          created := s.created + 1 } := by
      intro d u
      change ((Function.update s.timeline s.created .new) u).getNeighbouringTimeline d = _
      by_cases hu : u = s.created
      · rw [hu, Function.update_self, h.link_created]
        cases d <;> rfl
      · rw [Function.update_of_ne hu]
        rfl
    refine ⟨hsame, h.of_sameLinks hsame (Nat.le_succ _) (Nat.lt_succ_of_lt h.live) ?_⟩
    exact fun id u hget => Nat.lt_succ_of_lt (h.index id u hget)

theorem resetLiveTimeline_links (h : Bounded s) (back forward : Option Token) :
    SameLinks s (s.resetLiveTimeline back forward) ∧ Bounded (s.resetLiveTimeline back forward) := by
  have hsame : SameLinks s (s.resetLiveTimeline back forward) := by
    intro d u
    unfold EventTimelineSet.link EventTimelineSet.resetLiveTimeline
    dsimp only
    by_cases hu : u = s.created
    · rw [hu, Function.update_self]
      have hnone : (s.timeline s.created).getNeighbouringTimeline d = none := h.link_created d
      rw [hnone]
      cases d <;> rfl
    · rw [Function.update_of_ne hu]
      by_cases hlive : u = s.liveTimeline
      · rw [hlive, Function.update_self]
        cases d <;> rfl
      · rw [Function.update_of_ne hlive]
  refine ⟨hsame, h.of_sameLinks hsame (Nat.le_succ _) (Nat.lt_succ_self _) fun id u hget => ?_⟩
  change (if _ then JsObject.empty else s.eventIdToTimeline).get id = some u at hget
  split at hget
  · exact nomatch hget
  · exact Nat.lt_succ_of_lt (h.index id u hget)

end

variable (getId) in
theorem addEventToTimeline_links (h : Bounded s) (ht : t < s.created) (event : Event)
    (toStart : Bool) : SameLinks s (s.addEventToTimeline getId event t toStart) ∧
      Bounded (s.addEventToTimeline getId event t toStart) := by
  have hsame : SameLinks s (s.addEventToTimeline getId event t toStart) := fun d u =>
    neighbour_addEventToTimeline s event t u toStart d
  refine ⟨hsame, h.of_sameLinks hsame (Nat.le_refl _) h.live fun id u hget => ?_⟩
  change (s.eventIdToTimeline.set (getId event) t).get id = some u at hget
  rw [JsObject.get_set] at hget
  split at hget
  · rw [← Option.some.inj hget]
    exact ht
  · exact h.index id u hget

variable (getId) in
theorem addLiveEvent_links (h : Bounded s) (event : Event) (replace : Bool) :
    SameLinks s (s.addLiveEvent getId event replace) ∧
      Bounded (s.addLiveEvent getId event replace) := by
  have hself : SameLinks s s := fun _ _ => rfl
  unfold EventTimelineSet.addLiveEvent
  split
  · exact ⟨hself, h⟩
  · split
    next t _ =>
      split
      · exact ⟨hself, h⟩
      · refine ⟨setTimeline_sameLinks fun d => by cases d <;> rfl, ?_⟩
        exact h.of_sameLinks (setTimeline_sameLinks fun d => by cases d <;> rfl) (Nat.le_refl _) h.live
          h.index
    · exact addEventToTimeline_links getId h h.live event false

theorem replaceEventId_links (h : Bounded s) (oldEventId newEventId : EventId) :
    SameLinks s (s.replaceEventId oldEventId newEventId) ∧
      Bounded (s.replaceEventId oldEventId newEventId) := by
  have hself : SameLinks s s := fun _ _ => rfl
  unfold EventTimelineSet.replaceEventId
  split
  · exact ⟨hself, h⟩
  next t hold =>
    refine ⟨fun _ _ => rfl, h.of_sameLinks (fun _ _ => rfl) (Nat.le_refl _) h.live fun id u hget => ?_⟩
    change ((s.eventIdToTimeline.delete oldEventId).set newEventId t).get id = some u at hget
    rw [JsObject.get_set] at hget
    split at hget
    · rw [← Option.some.inj hget]
      exact h.index oldEventId t hold
    · rw [JsObject.get_delete] at hget
      split at hget
      · exact nomatch hget
      · exact h.index id u hget

variable (getId) in
theorem handleRemoteEcho_links (h : Bounded s) (localEvent : Event)
    (oldEventId newEventId : EventId) :
    SameLinks s (s.handleRemoteEcho getId localEvent oldEventId newEventId) ∧
      Bounded (s.handleRemoteEcho getId localEvent oldEventId newEventId) := by
  unfold EventTimelineSet.handleRemoteEcho
  split
  · exact replaceEventId_links h oldEventId newEventId
  · split
    · exact ⟨fun _ _ => rfl, h⟩
    · exact addEventToTimeline_links getId h h.live localEvent false

variable (getId) in
theorem removeEvent_links (h : Bounded s) (eventId : EventId) :
    SameLinks s (s.removeEvent getId eventId) ∧ Bounded (s.removeEvent getId eventId) := by
  have hself : SameLinks s s := fun _ _ => rfl
  unfold EventTimelineSet.removeEvent
  split
  · exact ⟨hself, h⟩
  next t _ =>
    split
    · exact ⟨hself, h⟩
    next ev timeline hremoved =>
      have hlinks : ∀ d, timeline.getNeighbouringTimeline d =
          (s.timeline t).getNeighbouringTimeline d := by
        intro d
        obtain ⟨i, _, hi⟩ := Option.bind_eq_some_iff.1 hremoved
        obtain ⟨e, _, heq⟩ := Option.map_eq_some_iff.1 hi
        rw [← (Prod.mk.inj heq).2]
        cases d <;> rfl
      have hsame : SameLinks s (s.setTimeline t timeline) := setTimeline_sameLinks hlinks
      refine ⟨hsame, h.of_sameLinks hsame (Nat.le_refl _) h.live fun id u hget => ?_⟩
      change (s.eventIdToTimeline.delete eventId).get id = some u at hget
      rw [JsObject.get_delete] at hget
      split at hget
      · exact nomatch hget
      · exact h.index id u hget

end Chained

/-! ## Any sequence of calls -/

section Calls

variable {Event EventId Token : Type} [DecidableEq Event] [DecidableEq EventId]

/-- The timelines are chained, a call that has thrown has left every link as it was, and comparing
two events ends. -/
structure ChainsKept (s : TimelineSetState Event EventId Token) : Prop where
  chained : Chained s.set
  thrown : ∀ p ∈ s.thrown, SameLinks p.1 p.2
  ends : ∀ eventId1 eventId2, ∃ fuel,
    (s.set.compareEventOrdering s.getId fuel eventId1 eventId2).isSome

/-- In a batch that is not rejected, each event that makes the loop join two timelines makes it
put one chain behind another. -/
def JoinsChains (s : TimelineSetState Event EventId Token) :
    TimelineSetCall Event EventId Token → Prop
  | .addEventsToTimeline events toStart (some t) _ =>
    ¬ (toStart = false ∧ t = s.set.liveTimeline) →
      MeetsAlong (EventTimelineSet.addNextEvent s.getId (.ofToStart toStart))
        (JoinsEnds s.getId (.ofToStart toStart)) (s.set.filterRoomTimeline events)
        ⟨s.set, t, false, false⟩
  | _ => True

variable {timelineSupport : Bool} {filter : Option (Event → Bool)} {getId : Event → EventId}
  {s : TimelineSetState Event EventId Token} {s' : TimelineSetState Event EventId Token}
  {e : TimelineSetCall Event EventId Token}

omit [DecidableEq Event] in
theorem ChainsKept.of_chained (hb : Bounded s.set) (h : Chained s.set)
    (hthrown : ∀ p ∈ s.thrown, SameLinks p.1 p.2) : ChainsKept s :=
  ⟨h, hthrown, fun eventId1 eventId2 => h.compareEventOrdering hb s.getId eventId1 eventId2⟩

/-- Only a batch changes links. -/
theorem call_links (hb : Bounded s.set)
    (hbatch : ∀ events toStart t token, e ≠ .addEventsToTimeline events toStart (some t) token)
    (he : (timelineSetSystem timelineSupport filter getId).step s e = some s') :
    SameLinks s.set s'.set ∧ Bounded s'.set ∧ ∀ p ∈ s'.thrown, p ∈ s.thrown ∨ p.1 = p.2 := by
  cases e with
  | addTimeline =>
    obtain rfl := Option.some.inj he
    unfold TimelineSetState.addTimeline
    split
    next t set hok =>
      obtain ⟨hsame, hb'⟩ := addTimeline_links hb hok
      exact ⟨hsame, hb', fun p hp => .inl hp⟩
    · refine ⟨fun _ _ => rfl, hb, fun p hp => ?_⟩
      rcases List.mem_append.1 hp with hold | hnew
      · exact .inl hold
      · rw [List.mem_singleton.1 hnew]
        exact .inr rfl
  | addEventsToTimeline events toStart timeline token =>
    cases timeline with
    | some t => exact absurd rfl (hbatch events toStart t token)
    | none =>
      obtain rfl := Option.some.inj he
      refine ⟨fun _ _ => rfl, hb, fun p hp => ?_⟩
      rcases List.mem_append.1 hp with hold | hnew
      · exact .inl hold
      · rw [List.mem_singleton.1 hnew]
        exact .inr rfl
  | addLiveEvent event replace =>
    obtain rfl := Option.some.inj he
    obtain ⟨hsame, hb'⟩ := addLiveEvent_links s.getId hb event replace
    exact ⟨hsame, hb', fun p hp => .inl hp⟩
  | resetLiveTimeline back forward =>
    obtain rfl := Option.some.inj he
    obtain ⟨hsame, hb'⟩ := resetLiveTimeline_links hb back forward
    exact ⟨hsame, hb', fun p hp => .inl hp⟩
  | removeEvent eventId =>
    obtain rfl := Option.some.inj he
    obtain ⟨hsame, hb'⟩ := removeEvent_links s.getId hb eventId
    exact ⟨hsame, hb', fun p hp => .inl hp⟩
  | handleRemoteEcho localEvent oldEventId newEventId =>
    obtain rfl := Option.some.inj he
    obtain ⟨hsame, hb'⟩ := handleRemoteEcho_links
      (Function.update s.getId localEvent newEventId) hb localEvent oldEventId newEventId
    exact ⟨hsame, hb', fun p hp => .inl hp⟩
  | replaceEventId event oldEventId newEventId =>
    obtain rfl := Option.some.inj he
    obtain ⟨hsame, hb'⟩ := replaceEventId_links hb oldEventId newEventId
    exact ⟨hsame, hb', fun p hp => .inl hp⟩

/-- A step that keeps the chains, and what it leaves. -/
theorem chainsKept_step (hb : Bounded s.set) (h : ChainsKept s)
    (he : (timelineSetSystem timelineSupport filter getId).step s e = some s') :
    (ChainsKept s' → Bounded s'.set) ∧ (ChainsKept s' ↔ JoinsChains s e) := by
  by_cases hbatch : ∃ events toStart t token, e = .addEventsToTimeline events toStart (some t) token
  · obtain ⟨events, toStart, t, token, rfl⟩ := hbatch
    obtain ⟨ht, he⟩ := Option.ite_none_right_eq_some.1 he
    obtain rfl := Option.some.inj he
    have hcreated : t < s.set.created := of_decide_eq_true ht
    by_cases hrej : toStart = false ∧ t = s.set.liveTimeline
    · -- the call throws before it has done anything
      obtain ⟨rfl, rfl⟩ := hrej
      obtain ⟨message, herr⟩ := addEventsToTimeline_rejected s.getId s.set events token
      rw [herr]
      have hkept : ChainsKept (s.called (.error ⟨message, s.set⟩)) := by
        refine .of_chained hb h.chained fun p hp => ?_
        rcases List.mem_append.1 hp with hold | hnew
        · exact h.thrown p hold
        · rw [List.mem_singleton.1 hnew]
          exact fun _ _ => rfl
      exact ⟨fun _ => hb, iff_of_true hkept fun hnot => absurd ⟨rfl, rfl⟩ hnot⟩
    · have houtcome := addEventsToTimeline_outcome s.getId events token hb hcreated h.chained hrej
      have hiff := addEventsToTimeline_chained_iff s.getId events token hb hcreated h.chained hrej
      have hC : JoinsChains s (.addEventsToTimeline events toStart (some t) token) ↔
          MeetsAlong (EventTimelineSet.addNextEvent s.getId (.ofToStart toStart))
            (JoinsEnds s.getId (.ofToStart toStart)) (s.set.filterRoomTimeline events)
            ⟨s.set, t, false, false⟩ := ⟨fun h => h hrej, fun h _ => h⟩
      rw [hC, ← hiff]
      cases hres : s.set.addEventsToTimeline s.getId events toStart (some t) token with
      | ok set =>
        rw [hres] at houtcome
        exact ⟨fun _ => houtcome, fun hkept => hkept.chained,
          fun hchained => .of_chained houtcome hchained h.thrown⟩
      | error thrown =>
        rw [hres] at houtcome
        exact ⟨fun hkept => absurd hkept.chained houtcome,
          iff_of_false (fun hkept => houtcome hkept.chained) id⟩
  · have hnot : ∀ events toStart t token, e ≠ .addEventsToTimeline events toStart (some t) token :=
      fun events toStart t token heq => hbatch ⟨events, toStart, t, token, heq⟩
    obtain ⟨hsame, hb', hthrown⟩ := call_links hb hnot he
    have hkept : ChainsKept s' := by
      refine .of_chained hb' (hsame.chained_iff.2 h.chained) fun p hp => ?_
      rcases hthrown p hp with hold | heq
      · exact h.thrown p hold
      · rw [heq]
        exact fun _ _ => rfl
    refine ⟨fun _ => hb', iff_of_true hkept ?_⟩
    cases e with
    | addEventsToTimeline events toStart timeline token =>
      cases timeline with
      | none => trivial
      | some t => exact absurd rfl (hnot events toStart t token)
    | _ => trivial

omit [DecidableEq Event] [DecidableEq EventId] in
theorem bounded_new : Bounded (.new timelineSupport filter : EventTimelineSet Event EventId Token) := by
  refine ⟨Nat.one_pos, fun d t t' hlink => ?_, fun id t hget => (nomatch hget)⟩
  cases d with
  | backwards => exact nomatch hlink
  | forwards => exact nomatch hlink

omit [DecidableEq Event] [DecidableEq EventId] in
theorem chained_new : Chained (.new timelineSupport filter : EventTimelineSet Event EventId Token) := by
  have hnone : ∀ d t, (.new timelineSupport filter : EventTimelineSet Event EventId Token).link d t =
      none := by
    intro d t
    cases d <;> rfl
  refine ⟨fun d t t' => ?_, fun d t hcycle => ?_⟩
  · rw [hnone, hnone]
    exact ⟨nofun, nofun⟩
  · obtain ⟨u, hlink, _⟩ := TransGen.head'_iff.1 hcycle
    exact nomatch (hnone d t).symm.trans hlink

end Calls

/-! Two timelines are joined; they are joined once more at their other ends; and a third one is to be
joined where two are joined already. Events are their own ids. -/

section Examples

abbrev exampleSets : System (TimelineSetState ℕ ℕ ℕ) (TimelineSetCall ℕ ℕ ℕ) :=
  timelineSetSystem true none id

def joinOnce : List (TimelineSetCall ℕ ℕ ℕ) :=
  [.addTimeline, .addTimeline, .addEventsToTimeline [1] false (some 1) none,
    .addEventsToTimeline [2] false (some 2) none, .addEventsToTimeline [2] false (some 1) none]

theorem joinOnce_runs : (exampleSets.run joinOnce).isSome := by decide

def joinTwice : List (TimelineSetCall ℕ ℕ ℕ) :=
  joinOnce ++ [.addEventsToTimeline [1] false (some 2) none]

theorem joinTwice_runs : (exampleSets.run joinTwice).isSome := by decide

def joinThird : List (TimelineSetCall ℕ ℕ ℕ) :=
  joinOnce ++ [.addTimeline, .addEventsToTimeline [2] false (some 3) none]

theorem joinThird_runs : (exampleSets.run joinThird).isSome := by decide

/-- A comparison with an event of another timeline goes round in the cycle. -/
def joinTwiceAndCompare : List (TimelineSetCall ℕ ℕ ℕ) := joinTwice ++ [.addLiveEvent 9 false]

theorem joinTwiceAndCompare_runs : (exampleSets.run joinTwiceAndCompare).isSome := by decide

/-- From either timeline of the cycle the walk goes on to the other one. -/
theorem walk_joinTwice (fuel : ℕ) :
    walk (((exampleSets.run joinTwiceAndCompare).get joinTwiceAndCompare_runs).set.link .forwards)
      0 fuel (some 1) = none ∧
    walk (((exampleSets.run joinTwiceAndCompare).get joinTwiceAndCompare_runs).set.link .forwards)
      0 fuel (some 2) = none := by
  induction fuel with
  | zero => exact ⟨rfl, rfl⟩
  | succ fuel ih => exact ⟨ih.2, ih.1⟩

def linkedPair : EventTimelineSet ℕ ℕ ℕ where
  timelineSupport := true
  filter := none
  timelines := [0, 1]
  liveTimeline := 1
  eventIdToTimeline := (JsObject.empty.setAll [1, 2] 0).setAll [3, 4] 1
  timeline
    | 0 => ⟨[1, 2], 0, none, some 1, none, none⟩
    | 1 => ⟨[3, 4], 0, some 0, none, none, none⟩
    | _ => .new
  created := 2

theorem linked_linkedPair {t t' : ℕ} :
    linkedPair.link .forwards t = some t' ↔ t = 0 ∧ t' = 1 := by
  match t with
  | 0 => exact ⟨fun h => ⟨rfl, (Option.some.inj h).symm⟩, fun h => h.2 ▸ rfl⟩
  | 1 => exact ⟨nofun, fun h => absurd h.1 (by decide)⟩
  | t + 2 => exact ⟨nofun, fun h => absurd h.1 (by omega)⟩

theorem linked_back_linkedPair {t t' : ℕ} :
    linkedPair.link .backwards t = some t' ↔ t = 1 ∧ t' = 0 := by
  match t with
  | 0 => exact ⟨nofun, fun h => absurd h.1 (by decide)⟩
  | 1 => exact ⟨fun h => ⟨rfl, (Option.some.inj h).symm⟩, fun h => h.2 ▸ rfl⟩
  | t + 2 => exact ⟨nofun, fun h => absurd h.1 (by omega)⟩

theorem chained_linkedPair : Chained linkedPair := by
  refine Chained.of_direction .forwards (fun d t t' => ?_) fun t hcycle => ?_
  · cases d with
    | forwards =>
      rw [linked_linkedPair, Direction.inverse, linked_back_linkedPair]
      exact and_comm
    | backwards =>
      rw [linked_back_linkedPair, Direction.inverse, linked_linkedPair]
      exact and_comm
  · have hlt : ∀ t t', TransGen (Linked (linkedPair.link .forwards)) t t' → t < t' := by
      intro t t' hchain
      induction hchain with
      | single hlink => have := linked_linkedPair.1 hlink; omega
      | tail _ hlink ih => have := linked_linkedPair.1 hlink; omega
    exact absurd (hlt t t hcycle) (lt_irrefl t)

theorem bounded_linkedPair : Bounded linkedPair := by
  refine ⟨by decide, fun d t t' hlink => ?_, fun id t hget => ?_⟩
  · cases d with
    | forwards => exact (linked_linkedPair.1 hlink).1 ▸ (linked_linkedPair.1 hlink).2 ▸ by decide
    | backwards =>
      exact (linked_back_linkedPair.1 hlink).1 ▸ (linked_back_linkedPair.1 hlink).2 ▸ by decide
  · rw [show linkedPair.eventIdToTimeline = (JsObject.empty.setAll [1, 2] 0).setAll [3, 4] 1 from
      rfl, JsObject.get_setAll, JsObject.get_setAll] at hget
    split at hget
    · exact Option.some.inj hget ▸ by decide
    · split at hget
      · exact Option.some.inj hget ▸ by decide
      · exact nomatch hget

end Examples

end MatrixSdk.Models
