/-
The state that is saved with a joined room.

It should be the state before the timeline that is saved ([`StateExact`]), and it is found from the
events of that timeline alone. An event that does not say what it has replaced is kept, and what has
come in a `state` section since is not rolled back ([`Undisturbed`]).
-/
import MatrixSdk.Sync.AccumulatedTimelines
import MatrixSdk.Sync.EventMaps

set_option autoImplicit false

namespace MatrixSdk.Sync

open MatrixSdk.Lib SyncAccumulator

variable {J : Type}

/-! ## The history of a room -/

/-- An event of a `timeline` or of a `state` section. -/
structure StateItem (J : Type) where
  fromTimeline : Bool
  event : SyncEvent J

/-- The events of join blocks, in order: those of a `state` section come before the timeline. -/
def history (blocks : List (JoinData J)) : List (StateItem J) :=
  blocks.flatMap fun data => (data.state.getD []).map (⟨false, ·⟩) ++
    ((data.timeline.map Timeline.events).getD []).map (⟨true, ·⟩)

def timelineEvents (items : List (StateItem J)) : List (SyncEvent J) :=
  (items.filter StateItem.fromTimeline).map StateItem.event

/-- The content of the state that events make. -/
def contentOf (events : List (SyncEvent J)) (evType stateKey : String) : Option J :=
  (lastSet events evType stateKey).map SyncEvent.content

/-- The content of the state after a part of the history. -/
def stateAfter (items : List (StateItem J)) : String → String → Option J :=
  contentOf (items.map StateItem.event)

/-- **A state event of a timeline says what it has replaced.** -/
def CarriesPrev (items : List (StateItem J)) : Prop :=
  ∀ before e after evType stateKey, items = before ++ ⟨true, e⟩ :: after →
    Sets e evType stateKey →
    e.unsigned.bind Unsigned.prevContent = stateAfter before evType stateKey

/-- The history is cut before the first of the events of a timeline. -/
structure StartsAt (items before since : List (StateItem J)) (events : List (SyncEvent J)) :
    Prop where
  split : items = before ++ since
  events : timelineEvents since = events
  first : ∀ item rest, since = item :: rest → item.fromTimeline = true

/-- **The state section is exact.** It is the state before the first event of the timeline, and the
timeline makes the current state of it. -/
structure StateExact (before since : List (StateItem J)) (state timeline : List (SyncEvent J)) :
    Prop where
  start : ∀ evType stateKey, contentOf state evType stateKey = stateAfter before evType stateKey
  yields : ∀ evType stateKey,
    contentOf (state ++ timeline) evType stateKey = stateAfter (before ++ since) evType stateKey

/-- What is in the history before the timeline sets the type and the state key. -/
def untilSet (since : List (StateItem J)) (evType stateKey : String) : List (StateItem J) :=
  since.takeWhile fun item => !(item.fromTimeline && Sets item.event evType stateKey)

/-- **What does not disturb rolling back.**
- What the timeline sets has been set before it.
- No `state` section has changed it in between, nor what the timeline does not set.
- None has changed it after the timeline has set it. -/
structure Undisturbed (before since : List (StateItem J)) : Prop where
  replaces : ∀ e ∈ timelineEvents since, ∀ evType stateKey, Sets e evType stateKey →
    (stateAfter before evType stateKey).isSome
  until_set : ∀ evType stateKey,
    stateAfter (before ++ untilSet since evType stateKey) evType stateKey =
      stateAfter before evType stateKey
  once_set : ∀ e ∈ timelineEvents since, ∀ evType stateKey, Sets e evType stateKey →
    stateAfter (before ++ since) evType stateKey =
      contentOf (timelineEvents since) evType stateKey

/-! ## What is stored -/

theorem history_append (blocks : List (JoinData J)) (data : JoinData J) :
    history (blocks ++ [data]) = history blocks ++ ((data.state.getD []).map (⟨false, ·⟩) ++
      ((data.timeline.map Timeline.events).getD []).map (⟨true, ·⟩)) := by
  unfold history
  rw [List.flatMap_append, List.flatMap_singleton]

/-- The current state is that after the history. -/
theorem currentState_joinOf (maxTimelineEntries : ℕ) (blocks : List (JoinData J)) :
    (joinOf maxTimelineEntries blocks).currentState =
      ((history blocks).map StateItem.event).foldl setState .empty := by
  induction blocks using List.reverseRecOn with
  | nil => rfl
  | append_singleton blocks data ih =>
    have hevents : ∀ (fromTimeline : Bool) (events : List (SyncEvent J)),
        (events.map fun e => (⟨fromTimeline, e⟩ : StateItem J)).map StateItem.event = events := by
      intro fromTimeline events
      rw [List.map_map]
      exact List.map_id events
    rw [joinOf_append, history_append, List.map_append, List.map_append, hevents, hevents,
      List.foldl_append, List.foldl_append, ← ih]
    rfl

theorem timelineEvents_append (items items' : List (StateItem J)) :
    timelineEvents (items ++ items') = timelineEvents items ++ timelineEvents items' := by
  unfold timelineEvents
  rw [List.filter_append, List.map_append]

/-- Pruning leaves a suffix. -/
theorem prune_suffix (maxTimelineEntries : ℕ) (timeline : List (TimelineEntry J)) :
    RoomData.prune maxTimelineEntries timeline <:+ timeline := by
  unfold RoomData.prune
  split
  · split
    · exact List.suffix_rfl
    · exact (List.dropWhile_suffix _).trans (List.drop_suffix _ _)
  · exact List.suffix_rfl

/-- The stored timeline is of the last events of timelines in the history. -/
theorem timeline_joinOf_suffix (maxTimelineEntries : ℕ) (blocks : List (JoinData J)) :
    (joinOf maxTimelineEntries blocks).timeline.map TimelineEntry.event <:+
      timelineEvents (history blocks) := by
  induction blocks using List.reverseRecOn with
  | nil => exact List.suffix_rfl
  | append_singleton blocks data ih =>
    have hstate : timelineEvents ((data.state.getD []).map fun e => (⟨false, e⟩ : StateItem J)) =
        [] := by
      unfold timelineEvents
      rw [List.filter_eq_nil_iff.2, List.map_nil]
      intro item hitem
      obtain ⟨e, -, rfl⟩ := List.mem_map.1 hitem
      exact Bool.false_ne_true
    have htimeline : ∀ events : List (SyncEvent J),
        timelineEvents (events.map fun e => (⟨true, e⟩ : StateItem J)) = events := by
      intro events
      unfold timelineEvents
      rw [List.filter_eq_self.2, List.map_map]
      · exact List.map_id events
      · intro item hitem
        obtain ⟨e, -, rfl⟩ := List.mem_map.1 hitem
        rfl
    have hentries : ((data.timeline.map RoomData.batchEntries).getD []).map TimelineEntry.event =
        (data.timeline.map Timeline.events).getD [] := by
      cases data.timeline with
      | none => rfl
      | some batch => exact map_event_batchEntries batch
    rw [joinOf_append, history_append, timelineEvents_append, timelineEvents_append, hstate,
      htimeline, List.nil_append]
    refine ((prune_suffix _ _).map _).trans ?_
    rw [List.map_append, hentries]
    refine List.suffix_append_self_iff.2 ?_
    split
    · exact List.nil_suffix
    · exact ih

/-- A suffix of the events of timelines begins somewhere in the history. -/
theorem exists_startsAt (items : List (StateItem J)) {events : List (SyncEvent J)}
    (h : events <:+ timelineEvents items) : ∃ before since, StartsAt items before since events := by
  by_cases hnil : events = []
  · subst hnil
    exact ⟨items, [], (List.append_nil _).symm, rfl, fun _ _ heq => nomatch heq⟩
  induction items with
  | nil => exact absurd (List.suffix_nil.1 h) hnil
  | cons item items ih =>
    by_cases hrest : events <:+ timelineEvents items
    · obtain ⟨before, since, hsplit, hevents, hfirst⟩ := ih hrest
      exact ⟨item :: before, since, by rw [hsplit, List.cons_append], hevents, hfirst⟩
    · have htimeline : item.fromTimeline = true := by
        by_contra hnot
        unfold timelineEvents at h
        rw [List.filter_cons_of_neg hnot] at h
        exact hrest h
      refine ⟨[], item :: items, rfl, ?_, ?_⟩
      · unfold timelineEvents at h ⊢
        rw [List.filter_cons_of_pos htimeline, List.map_cons] at h ⊢
        rcases List.suffix_cons_iff.1 h with heq | hsuffix
        · exact heq.symm
        · exact absurd hsuffix hrest
      · intro first rest heq
        obtain ⟨rfl, -⟩ := List.cons.inj heq
        exact htimeline

/-! ## One type and state key -/

section Exact

variable {before since : List (StateItem J)} {evType stateKey : String}

/-- The first event of the timeline for the type and the state key. -/
theorem find?_timelineEvents {e : SyncEvent J}
    (h : (timelineEvents since).find? (fun e => Sets e evType stateKey) = some e) :
    ∃ after, since = untilSet since evType stateKey ++ ⟨true, e⟩ :: after ∧
      Sets e evType stateKey := by
  unfold timelineEvents at h
  rw [List.find?_map, List.find?_filter] at h
  obtain ⟨item, hfind, rfl⟩ := Option.map_eq_some_iff.1 h
  obtain ⟨hsets, until', after, hsplit, hnot⟩ := List.find?_eq_some_iff_append.1 hfind
  simp only [Function.comp_apply, Bool.decide_and, Bool.decide_eq_true, Bool.and_eq_true,
    decide_eq_true_eq] at hsets
  obtain ⟨htimeline, hsets⟩ := hsets
  have huntil : untilSet since evType stateKey = until' := by
    unfold untilSet
    rw [hsplit, List.takeWhile_append_of_pos, List.takeWhile_cons_of_neg, List.append_nil]
    · simp [htimeline, hsets]
    · intro item' hitem'
      simpa using hnot item' hitem'
  refine ⟨after, ?_, hsets⟩
  rw [huntil, hsplit, ← htimeline]

/-- If there is none, nothing in the history is left out. -/
theorem untilSet_eq (h : (timelineEvents since).find? (fun e => Sets e evType stateKey) = none) :
    untilSet since evType stateKey = since := by
  unfold untilSet
  rw [List.takeWhile_eq_self_iff]
  intro item hitem
  simp only [Bool.not_eq_true', Bool.and_eq_false_imp, decide_eq_false_iff_not]
  intro htimeline hsets
  have hmem : item.event ∈ timelineEvents since :=
    List.mem_map_of_mem (List.mem_filter.2 ⟨hitem, htimeline⟩)
  exact absurd (decide_eq_true hsets) (List.find?_eq_none.1 h item.event hmem)

theorem stateAfter_append (items items' : List (StateItem J)) :
    stateAfter (items ++ items') evType stateKey =
      (contentOf (items'.map StateItem.event) evType stateKey).or
        (stateAfter items evType stateKey) := by
  unfold stateAfter contentOf
  rw [List.map_append, lastSet_append, Option.map_or]

/-- The state that is saved when the history is `before ++ since`. -/
def savedState (before since : List (StateItem J)) : List (SyncEvent J) :=
  stateJson (((before ++ since).map StateItem.event).foldl setState .empty)
    (rollBackState (timelineEvents since))

theorem contentOf_savedState :
    contentOf (savedState before since) evType stateKey =
      (lastSet ((before ++ since).map StateItem.event) evType stateKey).map fun ev =>
        ((((timelineEvents since).find? fun e => Sets e evType stateKey).map
          prevStateEvent).getD ev).content := by
  unfold contentOf savedState
  rw [lastSet_stateJson (wellKeyed_foldl _), Option.map_map, getState_rollBackState]
  rfl

/-- What the timeline does not set is saved as it is now. -/
theorem contentOf_savedState_unset
    (h : (timelineEvents since).find? (fun e => Sets e evType stateKey) = none) :
    contentOf (savedState before since) evType stateKey =
      stateAfter (before ++ since) evType stateKey := by
  rw [contentOf_savedState, h]
  rfl

theorem content_prevStateEvent (e : SyncEvent J) :
    (prevStateEvent e).content = (e.unsigned.bind Unsigned.prevContent).getD e.content := by
  unfold prevStateEvent
  cases e.unsigned <;> rfl

/-- What the timeline sets is saved as it was then, if it was anything. -/
theorem contentOf_savedState_set {e : SyncEvent J} (hprev : CarriesPrev (before ++ since))
    (h : (timelineEvents since).find? (fun e => Sets e evType stateKey) = some e) :
    contentOf (savedState before since) evType stateKey =
      some ((stateAfter (before ++ untilSet since evType stateKey) evType stateKey).getD
        e.content) := by
  obtain ⟨after, hsplit, hsets⟩ := find?_timelineEvents h
  have hsome : (lastSet ((before ++ since).map StateItem.event) evType stateKey).isSome := by
    refine lastSet_isSome.2 ⟨e, ?_, hsets⟩
    refine List.mem_map.2 ⟨⟨true, e⟩, List.mem_append_right _ ?_, rfl⟩
    rw [hsplit]
    exact List.mem_append_right _ List.mem_cons_self
  have hreplaced := hprev (before ++ untilSet since evType stateKey) e after evType stateKey
    (by rw [List.append_assoc, ← hsplit]) hsets
  obtain ⟨ev, hev⟩ := Option.isSome_iff_exists.1 hsome
  rw [contentOf_savedState, hev, h, ← hreplaced, ← content_prevStateEvent]
  rfl

/-- **The section is exact for one type and state key** as far as its start is concerned. -/
theorem start_iff (hprev : CarriesPrev (before ++ since)) :
    contentOf (savedState before since) evType stateKey = stateAfter before evType stateKey ↔
      ((∃ e ∈ timelineEvents since, Sets e evType stateKey) →
        (stateAfter before evType stateKey).isSome) ∧
      stateAfter (before ++ untilSet since evType stateKey) evType stateKey =
        stateAfter before evType stateKey := by
  cases hfind : (timelineEvents since).find? fun e => Sets e evType stateKey with
  | none =>
    have hnot : ¬∃ e ∈ timelineEvents since, Sets e evType stateKey := by
      rintro ⟨e, he, hsets⟩
      exact absurd (decide_eq_true hsets) (List.find?_eq_none.1 hfind e he)
    rw [contentOf_savedState_unset hfind, untilSet_eq hfind]
    exact (and_iff_right fun hset => absurd hset hnot).symm
  | some e =>
    have hsets := List.find?_some hfind
    have hset : ∃ e ∈ timelineEvents since, Sets e evType stateKey :=
      ⟨e, List.mem_of_find?_eq_some hfind, of_decide_eq_true hsets⟩
    rw [contentOf_savedState_set hprev hfind]
    constructor
    · intro hstart
      have hbefore : (stateAfter before evType stateKey).isSome := by
        rw [← hstart]
        rfl
      refine ⟨fun _ => hbefore, ?_⟩
      -- what has been set is set still, so the default is not used
      rw [← hstart]
      rw [stateAfter_append]
      cases hcontent : contentOf ((untilSet since evType stateKey).map StateItem.event) evType
          stateKey with
      | none =>
        obtain ⟨content, hcontent⟩ := Option.isSome_iff_exists.1 hbefore
        rw [hcontent]
        rfl
      | some content => rfl
    · rintro ⟨hreplaces, huntil⟩
      obtain ⟨content, hcontent⟩ := Option.isSome_iff_exists.1 (hreplaces hset)
      rw [huntil, hcontent]
      rfl

/-- **The timeline makes the current state** for one type and state key. -/
theorem yields_iff :
    contentOf (savedState before since ++ timelineEvents since) evType stateKey =
        stateAfter (before ++ since) evType stateKey ↔
      ((∃ e ∈ timelineEvents since, Sets e evType stateKey) →
        stateAfter (before ++ since) evType stateKey =
          contentOf (timelineEvents since) evType stateKey) := by
  have happend : contentOf (savedState before since ++ timelineEvents since) evType stateKey =
      (contentOf (timelineEvents since) evType stateKey).or
        (contentOf (savedState before since) evType stateKey) := by
    unfold contentOf
    rw [lastSet_append, Option.map_or]
  rw [happend]
  by_cases hset : ∃ e ∈ timelineEvents since, Sets e evType stateKey
  · obtain ⟨e, he⟩ := Option.isSome_iff_exists.1 (lastSet_isSome.2 hset)
    have hcontent : contentOf (timelineEvents since) evType stateKey = some e.content := by
      rw [contentOf, he]
      rfl
    rw [hcontent]
    exact ⟨fun h _ => h.symm, fun h => (h hset).symm⟩
  · have hnone : contentOf (timelineEvents since) evType stateKey = none := by
      rw [contentOf, lastSet_eq_none fun e he hsets => hset ⟨e, he, hsets⟩]
      rfl
    have hfind : (timelineEvents since).find? (fun e => Sets e evType stateKey) = none := by
      apply List.find?_eq_none.2
      intro e he hsets
      exact hset ⟨e, he, of_decide_eq_true hsets⟩
    rw [hnone, Option.none_or, contentOf_savedState_unset hfind]
    exact iff_of_true rfl fun h => absurd h hset

/-- **The state section is exact** if rolling back is not disturbed, and only then. -/
theorem stateExact_iff (hprev : CarriesPrev (before ++ since)) :
    StateExact before since (savedState before since) (timelineEvents since) ↔
      Undisturbed before since := by
  constructor
  · rintro ⟨hstart, hyields⟩
    refine ⟨fun e he evType stateKey hsets => ?_, fun evType stateKey => ?_,
      fun e he evType stateKey hsets => ?_⟩
    · exact ((start_iff hprev).1 (hstart evType stateKey)).1 ⟨e, he, hsets⟩
    · exact ((start_iff hprev).1 (hstart evType stateKey)).2
    · exact yields_iff.1 (hyields evType stateKey) ⟨e, he, hsets⟩
  · rintro ⟨hreplaces, huntil, honce⟩
    refine ⟨fun evType stateKey => ?_, fun evType stateKey => ?_⟩
    · refine (start_iff hprev).2 ⟨?_, huntil evType stateKey⟩
      rintro ⟨e, he, hsets⟩
      exact hreplaces e he evType stateKey hsets
    · refine yields_iff.2 ?_
      rintro ⟨e, he, hsets⟩
      exact honce e he evType stateKey hsets

end Exact

/-! ## All runs -/

/-- **What is saved of the state of a joined room** is the state before its timeline, and the timeline
makes the current state of it, exactly if rolling back is not disturbed. -/
theorem savedState_iff {maxTimelineEntries : ℕ} {tr : List (SyncAccumulator J × SyncResponse J)}
    {acc : SyncAccumulator J} (h : (accumulatorSystem J maxTimelineEntries).Trace tr acc)
    {roomId : String} {room : RoomData J} (hroom : acc.joinRooms.get roomId = some room)
    (hprev : CarriesPrev (history (joinBlocks tr roomId))) {savedSync : SavedSync J}
    (hsaved : acc.getJSON = some savedSync) :
    ∃ json state timeline,
      (savedSync.roomsData.join.getD .empty).get roomId = some json ∧
      json.state = some state ∧ json.timeline = some timeline ∧
      (∃ before since,
        StartsAt (history (joinBlocks tr roomId)) before since timeline.events) ∧
      ∀ before since,
        StartsAt (history (joinBlocks tr roomId)) before since timeline.events →
        (StateExact before since state timeline.events ↔ Undisturbed before since) := by
  have hmade := (joinRooms_eq h roomId).2 room hroom
  obtain ⟨json, hget, hof⟩ := getJSON_room hsaved hroom
  obtain ⟨content, -, rfl⟩ := Option.map_eq_some_iff.1 hof
  have hsuffix : (timelineJson room.timeline).events <:+
      timelineEvents (history (joinBlocks tr roomId)) := by
    rw [timelineJson_eq, hmade]
    exact ((List.dropWhile_suffix _).map _).trans (timeline_joinOf_suffix _ _)
  refine ⟨_, _, _, hget, rfl, rfl, exists_startsAt _ hsuffix, ?_⟩
  rintro before since ⟨hsplit, hevents, -⟩
  have hstate : stateJson room.currentState
      (rollBackState (timelineJson room.timeline).events) = savedState before since := by
    unfold savedState
    rw [← hsplit, hevents, ← currentState_joinOf acc.maxTimelineEntries, ← hmade]
  show StateExact before since (stateJson _ (rollBackState (timelineJson room.timeline).events))
    (timelineJson room.timeline).events ↔ _
  rw [hstate, ← hevents]
  exact stateExact_iff (hsplit ▸ hprev)

/-- A topic that replaces another one, if there was one. -/
def exampleTopic (topic : String) (prevContent : Option String) : SyncEvent String :=
  ⟨"m.room.topic", some "", "@alice", topic, some ⟨prevContent, none⟩, ""⟩

/-- A response with a state section and a batch for one room. -/
def exampleState (state timeline : List (SyncEvent String)) : SyncResponse String :=
  exampleResponse "!room" (.join ⟨none, none, none, none, some state,
    some ⟨false, timeline, some "before"⟩⟩)

theorem carriesPrev_nil : CarriesPrev ([] : List (StateItem J)) := by
  intro before e after _ _ hsplit
  have hlength := congrArg List.length hsplit
  rw [List.length_append, List.length_cons, List.length_nil] at hlength
  omega

/-- What is said of all events is said of one after the other. -/
theorem CarriesPrev.append_singleton {items : List (StateItem J)} (h : CarriesPrev items)
    {item : StateItem J}
    (hitem : item.fromTimeline = true → ∀ evType stateKey, Sets item.event evType stateKey →
      item.event.unsigned.bind Unsigned.prevContent = stateAfter items evType stateKey) :
    CarriesPrev (items ++ [item]) := by
  intro before e after evType stateKey hsplit hsets
  rcases List.eq_nil_or_concat after with rfl | ⟨after, last, rfl⟩
  · obtain ⟨rfl, heq⟩ := List.append_inj' hsplit rfl
    obtain rfl := (List.cons.inj heq).1
    exact hitem rfl evType stateKey hsets
  · rw [List.concat_eq_append, ← List.cons_append, ← List.append_assoc] at hsplit
    obtain ⟨rfl, -⟩ := List.append_inj' hsplit rfl
    exact h before e after evType stateKey rfl hsets

theorem prevContent_exampleTopic {items : List (StateItem String)} {topic : String}
    {prevContent : Option String} (hprev : prevContent = stateAfter items "m.room.topic" "")
    (evType stateKey : String) (hsets : Sets (exampleTopic topic prevContent) evType stateKey) :
    (exampleTopic topic prevContent).unsigned.bind Unsigned.prevContent =
      stateAfter items evType stateKey := by
  obtain ⟨rfl, hkey, -⟩ := hsets
  obtain rfl : "" = stateKey := Option.some.inj hkey
  exact hprev

/-- A topic is changed in the timeline. -/
theorem savedState_iff_changed :
    ∃ tr acc room savedSync state timeline,
      (accumulatorSystem String 10).Trace tr acc ∧ acc.joinRooms.get "!room" = some room ∧
      acc.getJSON = some savedSync ∧ ∀ before since,
        StartsAt (history (joinBlocks tr "!room")) before since timeline →
        (StateExact before since state timeline ↔ Undisturbed before since) := by
  have h : ((accumulatorSystem String 10).run
    [exampleState [exampleTopic "old" none] [exampleTopic "new" (some "old")]]).isSome := by
    decide +kernel
  have hroom : ((((accumulatorSystem String 10).run
    [exampleState [exampleTopic "old" none] [exampleTopic "new" (some "old")]]).get h).joinRooms.get
      "!room").isSome := by decide +kernel +revert
  have hsaved : (((accumulatorSystem String 10).run
    [exampleState [exampleTopic "old" none] [exampleTopic "new" (some "old")]]).get
      h).getJSON.isSome := by decide +kernel +revert
  have hprev : CarriesPrev (([] ++ [⟨false, exampleTopic "old" none⟩]) ++
      [⟨true, exampleTopic "new" (some "old")⟩]) :=
    (carriesPrev_nil.append_singleton fun htimeline => absurd htimeline
      Bool.false_ne_true).append_singleton
      fun _ => prevContent_exampleTopic (by decide +kernel)
  obtain ⟨_, state, timeline, -, -, -, -, hiff⟩ := savedState_iff (System.trace_get h)
    (Option.some_get hroom).symm hprev (Option.some_get hsaved).symm
  exact ⟨_, _, _, _, state, timeline.events, System.trace_get h, (Option.some_get hroom).symm,
    (Option.some_get hsaved).symm, hiff⟩

/-- A room gets its first topic in the timeline, and it is saved as if it had had it before. -/
theorem savedState_fails :
    ¬ ∀ tr acc, (accumulatorSystem String 10).Trace tr acc → ∀ roomId room,
      acc.joinRooms.get roomId = some room → CarriesPrev (history (joinBlocks tr roomId)) →
      ∀ savedSync json state timeline, acc.getJSON = some savedSync →
        (savedSync.roomsData.join.getD .empty).get roomId = some json →
        json.state = some state → json.timeline = some timeline →
        ∀ before since, StartsAt (history (joinBlocks tr roomId)) before since timeline.events →
          StateExact before since state timeline.events := by
  intro hclaim
  have h : ((accumulatorSystem String 10).run [exampleState [] [exampleTopic "new" none]]).isSome :=
    by decide +kernel
  have hroom : ((((accumulatorSystem String 10).run
    [exampleState [] [exampleTopic "new" none]]).get h).joinRooms.get "!room").isSome := by
    decide +kernel +revert
  have hsaved : (((accumulatorSystem String 10).run
    [exampleState [] [exampleTopic "new" none]]).get h).getJSON.isSome := by decide +kernel +revert
  have hjson : ((((((accumulatorSystem String 10).run
    [exampleState [] [exampleTopic "new" none]]).get h).getJSON.get
      hsaved).roomsData.join.getD .empty).get "!room").isSome := by decide +kernel +revert
  have hstate : (((((((accumulatorSystem String 10).run
    [exampleState [] [exampleTopic "new" none]]).get h).getJSON.get
      hsaved).roomsData.join.getD .empty).get "!room").get hjson).state =
        some [exampleTopic "new" none] := by decide +kernel +revert
  have hevents : (((((((accumulatorSystem String 10).run
    [exampleState [] [exampleTopic "new" none]]).get h).getJSON.get
      hsaved).roomsData.join.getD .empty).get "!room").get hjson).timeline.map Timeline.events =
        some [exampleTopic "new" none] := by decide +kernel +revert
  obtain ⟨timeline, htimeline, hevents⟩ := Option.map_eq_some_iff.1 hevents
  have hprev : CarriesPrev ([] ++ [⟨true, exampleTopic "new" none⟩]) :=
    carriesPrev_nil.append_singleton fun _ => prevContent_exampleTopic (by decide +kernel)
  have hexact := hclaim _ _ (System.trace_get h) "!room" _ (Option.some_get hroom).symm hprev _ _ _
    timeline (Option.some_get hsaved).symm (Option.some_get hjson).symm hstate htimeline [] [⟨true, exampleTopic "new" none⟩] ⟨rfl, hevents.symm, fun item rest heq => by
      rw [← (List.cons.inj heq).1]⟩
  have hstart := hexact.start "m.room.topic" ""
  exact absurd hstart (by decide +kernel)

end MatrixSdk.Sync
