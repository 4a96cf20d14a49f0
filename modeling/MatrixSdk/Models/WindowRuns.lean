/-
Runs of a `TimelineWindow` whose timelines grow.

What a window shows is a slice of the chain it lies in, as long as it is counted to be
([`WindowShows`]). Its own operations see to that wherever its ends are. What is put into a timeline
is another matter: an end that is in the timeline before, or in that timeline and before the place,
does not move, the other ends move by one. So the window keeps showing what it has shown unless the
place is between its ends, and that is where the start or the end of a timeline is not an end of the
chain ([`GrowsOutside`]).
-/
import MatrixSdk.Models.WindowPlaces

set_option autoImplicit false

namespace MatrixSdk.Models

open MatrixSdk.Lib Relation

variable {Event EventId Token : Type} {s s' : EventTimelineSet Event EventId Token}
  {chain : List ℕ} {t i j p q : ℕ} {w : TimelineWindow} {ends : WindowEnds} {tl : TimelineIndex}

theorem TimelineChain.sameLinks (hc : TimelineChain s chain) (h : SameLinks s s') :
    TimelineChain s' chain :=
  ⟨hc.nodup, fun i t ht => (h .forwards t).trans (hc.next i t ht),
    fun i t ht => (h .backwards t).trans (hc.prev i t ht),
    fun t ht => (h .backwards t).trans (hc.first t ht)⟩

/-- The window is in a chain of the timelines it has now, and shows what it has shown. -/
structure Keeps (s s' : EventTimelineSet Event EventId Token) (w : TimelineWindow) : Prop where
  placed : Placed s' w
  shows : ∃ n, ∀ fuel, n ≤ fuel → w.getEvents s' fuel = w.getEvents s fuel

theorem Keeps.of_unloaded (hends : w.ends = none) (hcount : w.eventCount = 0) : Keeps s s' w := by
  refine ⟨.inl ⟨hends, hcount⟩, 0, fun fuel _ => ?_⟩
  rw [TimelineWindow.getEvents, TimelineWindow.getEvents, hends]

/-- A window between two places is kept by a chain with the same events between two places. -/
theorem Keeps.of_loaded {chain' : List ℕ} {i' p' j' q' : ℕ} (hc : TimelineChain s chain)
    (hw : Loaded s chain w ends i p j q) (hc' : TimelineChain s' chain')
    (hall : ∀ t ∈ chain', t < s'.created) (hw' : Loaded s' chain' w ends i' p' j' q')
    (hslice : slice (chainEvents s' chain') p' q' = slice (chainEvents s chain) p q) :
    Keeps s s' w := by
  refine ⟨.inr ⟨chain', hc', hall, ends, i', p', j', q', hw'⟩, max chain.length chain'.length,
    fun fuel hfuel => ?_⟩
  rw [getEvents_spec hc' hw' ((Nat.le_max_right ..).trans hfuel),
    getEvents_spec hc hw ((Nat.le_max_left ..).trans hfuel), hslice]

/-! ## Timelines that are linked -/

/-- Timelines keep their events and their base index, and their links. -/
structure Relinks (s s' : EventTimelineSet Event EventId Token) : Prop where
  events : ∀ t, (s'.timeline t).events = (s.timeline t).events
  baseIndex : ∀ t, (s'.timeline t).baseIndex = (s.timeline t).baseIndex
  links : LinksGrow s s'

theorem setNeighbouringTimeline_baseIndex {timeline timeline' : EventTimeline Event Token} {n : ℕ}
    {d : Direction} (hok : timeline.setNeighbouringTimeline n d = .ok timeline') :
    timeline'.events = timeline.events ∧ timeline'.baseIndex = timeline.baseIndex := by
  unfold EventTimeline.setNeighbouringTimeline at hok
  split at hok
  · exact nomatch hok
  · obtain rfl := Except.ok.inj hok
    exact ⟨rfl, rfl⟩

/-- A timeline is replaced by one with the same events and base index. -/
theorem setTimeline_baseIndex {timeline : EventTimeline Event Token}
    (h : timeline.events = (s.timeline t).events ∧
      timeline.baseIndex = (s.timeline t).baseIndex) (u : ℕ) :
    ((s.setTimeline t timeline).timeline u).events = (s.timeline u).events ∧
      ((s.setTimeline t timeline).timeline u).baseIndex = (s.timeline u).baseIndex := by
  simp only [EventTimelineSet.setTimeline]
  by_cases hu : u = t
  · rw [hu, Function.update_self]
    exact h
  · rw [Function.update_of_ne hu]
    exact ⟨rfl, rfl⟩

theorem joinTimelines_relinks {existing : ℕ} {d : Direction} (hne : existing ≠ t)
    (hfree : s.link d t = none) (hok : s.joinTimelines t existing d = .ok s') : Relinks s s' := by
  have hlinks : LinksGrow s s' := by
    rcases joinTimelines_cases hne hfree with
      ⟨hex, s₁, hok₁, -, -, hlinks⟩ | ⟨-, thrown, herr, -⟩
    · obtain rfl := Except.ok.inj (hok₁.symm.trans hok)
      exact joinTimelines_grow hfree hex hlinks
    · exact nomatch herr.symm.trans hok
  unfold EventTimelineSet.joinTimelines at hok
  split at hok
  · exact nomatch hok
  next joined hjoined =>
    dsimp only at hok
    split at hok
    · exact nomatch hok
    next joined' hjoined' =>
      obtain rfl := Except.ok.inj hok
      have hfirst := setTimeline_baseIndex (setNeighbouringTimeline_baseIndex hjoined)
      have hsecond := setTimeline_baseIndex (setNeighbouringTimeline_baseIndex hjoined')
      exact ⟨fun u => (hsecond u).1.trans (hfirst u).1,
        fun u => (hsecond u).2.trans (hfirst u).2, hlinks⟩

/-- A chain is in a chain of the timelines that have been linked. -/
theorem TimelineChain.relinks (hc : TimelineChain s chain) (h : Relinks s s') (hs : Chained s')
    (hb : Bounded s') (hne : chain ≠ []) :
    ∃ front back, TimelineChain s' (front ++ (chain ++ back)) ∧
      ∀ n, n ≤ chain.length → before s' (front ++ (chain ++ back)) (front.length + n) =
        (chainEvents s' front).length + before s chain n := by
  have hlinks : List.IsChain (Linked (s'.link .forwards)) chain := by
    rw [List.isChain_iff_getElem]
    intro n hn
    refine h.links .forwards _ _ ?_
    rw [hc.next n _ (List.getElem?_eq_getElem (by omega)), List.getElem?_eq_getElem hn]
  obtain ⟨front, back, hc'⟩ := exists_timelineChain hs hb hne hlinks
  have hevents : timelineEvents s' = timelineEvents s := funext h.events
  refine ⟨front, back, hc', fun n hn => ?_⟩
  unfold before chainEvents
  rw [offset_append front back hn, hevents]

/-- **A window stays where it is** when timelines are linked. -/
theorem Placed.relinks (hw : Placed s w) (h : Relinks s s') (hcreated : s'.created = s.created)
    (hs : Chained s') (hb : Bounded s') : Keeps s s' w := by
  rcases hw with hunloaded | ⟨chain, hc, hall, ends, i, p, j, q, hloaded⟩
  · exact .of_unloaded hunloaded.1 hunloaded.2
  · have hlt := hloaded.stop.lt
    have hne : chain ≠ [] := List.ne_nil_of_length_pos (by omega)
    obtain ⟨front, back, hc', hbefore⟩ := hc.relinks h hs hb hne
    have hat : ∀ {tl : TimelineIndex} {i p : ℕ}, At s chain tl i p →
        At s' (front ++ (chain ++ back)) tl (front.length + i)
          ((chainEvents s' front).length + p) := by
      intro tl i p hat
      have hlt := hat.lt
      have hindex := hat.index
      have hlow := hat.low
      have hhigh := hat.high
      have hi := hbefore i (by omega)
      have hi' := hbefore (i + 1) (by omega)
      rw [← Nat.add_assoc] at hi'
      refine ⟨?_, ?_, by omega, by omega⟩
      · rw [List.getElem?_append_right (Nat.le_add_right ..), Nat.add_sub_cancel_left,
          List.getElem?_append_left hlt]
        exact hat.timeline
      · rw [h.baseIndex, hi]
        push_cast
        omega
    have horder := hloaded.order
    have hle := hloaded.le
    have hcount := hloaded.count
    have hstart := List.mem_of_getElem? hloaded.start.timeline
    have hall' := hc'.lt_created hb
      (List.mem_append_right _ (List.mem_append_left _ hstart)) (hcreated ▸ hall _ hstart)
    have hloaded' : Loaded s' (front ++ (chain ++ back)) w ends _ _ _ _ :=
      ⟨hloaded.loaded, hat hloaded.start, hat hloaded.stop, by omega, by omega,
        by push_cast; omega⟩
    refine .of_loaded hc hloaded hc' hall' hloaded' ?_
    have hevents : timelineEvents s' = timelineEvents s := funext h.events
    have hsplit : chainEvents s' (front ++ (chain ++ back)) =
        chainEvents s' front ++ (chainEvents s chain ++ chainEvents s' back) := by
      unfold chainEvents
      rw [List.flatMap_append, List.flatMap_append, hevents]
    rw [hsplit]
    exact slice_append hloaded.stop.le_length

/-- **A window stays where it is** when a timeline is made. -/
theorem Placed.sameTimelines (hw : Placed s w) (hlinks : SameLinks s s')
    (hcreated : s.created ≤ s'.created) (h : ∀ t, t < s.created → s'.timeline t = s.timeline t) :
    Keeps s s' w := by
  rcases hw with hunloaded | ⟨chain, hc, hall, ends, i, p, j, q, hloaded⟩
  · exact .of_unloaded hunloaded.1 hunloaded.2
  · have hevents : ∀ l : List ℕ, (∀ t ∈ l, t ∈ chain) →
        l.flatMap (timelineEvents s') = l.flatMap (timelineEvents s) := by
      intro l hl
      refine List.flatMap_congr fun t ht => ?_
      rw [timelineEvents, timelineEvents, h t (hall t (hl t ht))]
    have hbefore : ∀ n, before s' chain n = before s chain n := fun n =>
      congrArg List.length (hevents _ fun t ht => List.mem_of_mem_take ht)
    have hat : ∀ {tl : TimelineIndex} {i p : ℕ}, At s chain tl i p → At s' chain tl i p := by
      intro tl i p hat
      refine ⟨hat.timeline, ?_, ?_, ?_⟩
      · rw [h _ (hall _ (List.mem_of_getElem? hat.timeline)), hbefore]
        exact hat.index
      · rw [hbefore]
        exact hat.low
      · rw [hbefore]
        exact hat.high
    have hloaded' : Loaded s' chain w ends i p j q :=
      ⟨hloaded.loaded, hat hloaded.start, hat hloaded.stop, hloaded.order, hloaded.le,
        hloaded.count⟩
    refine .of_loaded hc hloaded (hc.sameLinks hlinks)
      (fun t ht => (hall t ht).trans_le hcreated) hloaded' ?_
    exact congrArg (slice · p q) (hevents chain fun _ ht => ht)

/-! ## One event more or less -/

/-- The timelines `s'` are the timelines `s` without the `r`-th event of the timeline `t`. -/
structure TakenOut (s s' : EventTimelineSet Event EventId Token) (t r : ℕ) : Prop where
  lt : r < (timelineEvents s t).length
  events : timelineEvents s' t = (timelineEvents s t).eraseIdx r
  other : ∀ u, u ≠ t → timelineEvents s' u = timelineEvents s u

variable {m r : ℕ}

/-- In a chain with the timeline it is one event less of the chain. -/
theorem TakenOut.chainEvents (h : TakenOut s s' t r) (hl : chain.Nodup) (hm : chain[m]? = some t) :
    chainEvents s' chain = (chainEvents s chain).eraseIdx (before s chain m + r) :=
  flatMap_eraseIdx h.other hl hm h.lt h.events

theorem TakenOut.before (h : TakenOut s s' t r) (hl : chain.Nodup) (hm : chain[m]? = some t)
    (n : ℕ) : before s chain n = before s' chain n + if m < n then 1 else 0 := by
  have hlen : (timelineEvents s' t).length + 1 = (timelineEvents s t).length := by
    have := h.lt
    rw [h.events, List.length_eraseIdx_of_lt this]
    omega
  split
  next hlt =>
    have hoffset : MatrixSdk.Models.before s' chain n + _ = MatrixSdk.Models.before s chain n + _ :=
      offset_of_lt h.other hl hm hlt
    omega
  next hge => exact (offset_of_le h.other hl hm (by omega)).symm

/-- In any other chain nothing changes. -/
theorem TakenOut.of_not_mem (h : TakenOut s s' t r) (ht : t ∉ chain) :
    MatrixSdk.Models.chainEvents s' chain = MatrixSdk.Models.chainEvents s chain ∧
      ∀ n, MatrixSdk.Models.before s' chain n = MatrixSdk.Models.before s chain n := by
  refine ⟨flatMap_of_not_mem h.other ht, fun n => ?_⟩
  exact congrArg List.length (flatMap_of_not_mem h.other fun hmem => ht (List.mem_of_mem_take hmem))

/-! ## Timelines that grow -/

section Growth

variable [DecidableEq EventId] (getId : Event → EventId) (event : Event) (atStart : Bool)

theorem takenOut_grown : TakenOut (s.addEventToTimeline getId event t atStart) s t
    (if atStart then 0 else (timelineEvents s t).length) := by
  have hself : timelineEvents (s.addEventToTimeline getId event t atStart) t =
      if atStart then event :: timelineEvents s t else timelineEvents s t ++ [event] := by
    simp only [timelineEvents, EventTimelineSet.addEventToTimeline, Function.update_self,
      EventTimeline.addEvent]
  refine ⟨?_, ?_, fun u hu => ?_⟩
  · rw [hself]
    cases atStart <;> simp
  · rw [hself]
    cases atStart with
    | true => rfl
    | false =>
      simp only [Bool.false_eq_true, if_false]
      rw [List.eraseIdx_append_of_length_le le_rfl, Nat.sub_self]
      simp
  · simp only [timelineEvents, EventTimelineSet.addEventToTimeline, Function.update_of_ne hu]

theorem baseIndex_grown (u : ℕ) :
    ((s.addEventToTimeline getId event t atStart).timeline u).baseIndex =
      (s.timeline u).baseIndex + if u = t ∧ atStart = true then 1 else 0 := by
  simp only [EventTimelineSet.addEventToTimeline]
  by_cases hu : u = t
  · rw [hu, Function.update_self, EventTimeline.addEvent]
    cases atStart <;> simp
  · rw [Function.update_of_ne hu, if_neg fun h => hu h.1]
    rfl

/-- How far a place in the `i`-th timeline moves when an event is put into the `m`-th one. -/
def moved (m : ℕ) (atStart : Bool) (i : ℕ) : ℕ :=
  if m < i ∨ m = i ∧ atStart = true then 1 else 0

/-- The new event is at a border between two timelines, or within, one of which comes behind the
`i`-th and none behind the `j`-th. -/
def Between (m : ℕ) (atStart : Bool) (i j : ℕ) : Prop :=
  if atStart then i < m ∧ m ≤ j else i ≤ m ∧ m < j

omit [DecidableEq EventId] in
/-- Places move alike unless the new event is between them. -/
theorem moved_between (m : ℕ) (atStart : Bool) (hij : i ≤ j) :
    (¬ Between m atStart i j ∧ moved m atStart i = moved m atStart j) ∨
      (Between m atStart i j ∧ moved m atStart i = 0 ∧ moved m atStart j = 1) := by
  unfold Between moved
  cases atStart with
  | true =>
    simp only [if_true, and_true]
    split_ifs <;> omega
  | false =>
    simp only [Bool.false_eq_true, and_false, or_false, if_false]
    split_ifs <;> omega

/-- **A place when a timeline grows.** -/
theorem At.grown (hc : TimelineChain s chain) (hm : chain[m]? = some t) (h : At s chain tl i p) :
    At (s.addEventToTimeline getId event t atStart) chain tl i (p + moved m atStart i) := by
  have hindex := h.index
  have hlow := h.low
  have hhigh := h.high
  have hgrown : TakenOut _ s t _ := takenOut_grown getId event atStart
  have hbefore := hgrown.before hc.nodup hm i
  have hbefore' := hgrown.before hc.nodup hm (i + 1)
  have hbase := baseIndex_grown (s := s) (t := t) getId event atStart tl.timeline
  have hsame : tl.timeline = t ↔ m = i :=
    ⟨fun heq => getElem?_inj hc.nodup hm (heq ▸ h.timeline),
      fun heq => Option.some.inj (h.timeline.symm.trans (heq ▸ hm))⟩
  rcases Nat.lt_trichotomy m i with hlt | heq | hgt
  · have hmoved : moved m atStart i = 1 := if_pos (.inl hlt)
    rw [if_pos hlt] at hbefore
    rw [if_pos (by omega)] at hbefore'
    rw [if_neg fun heq => absurd (hsame.1 heq.1) (by omega)] at hbase
    refine ⟨h.timeline, ?_, by omega, by omega⟩
    rw [hbase, hbefore, hmoved]
    push_cast
    omega
  · rw [if_neg (by omega)] at hbefore
    rw [if_pos (by omega)] at hbefore'
    cases atStart with
    | true =>
      have hmoved : moved m true i = 1 := if_pos (.inr ⟨heq, rfl⟩)
      rw [if_pos ⟨hsame.2 heq, rfl⟩] at hbase
      refine ⟨h.timeline, ?_, by omega, by omega⟩
      rw [hbase, hbefore, hmoved]
      push_cast
      omega
    | false =>
      have hmoved : moved m false i = 0 := if_neg (by simp [heq])
      rw [if_neg (by simp)] at hbase
      refine ⟨h.timeline, ?_, by omega, by omega⟩
      rw [hbase, hbefore, hmoved]
      exact hindex
  · have hmoved : moved m atStart i = 0 := if_neg (by omega)
    rw [if_neg (by omega)] at hbefore
    rw [if_neg (by omega)] at hbefore'
    rw [if_neg fun heq => absurd (hsame.1 heq.1) (by omega)] at hbase
    refine ⟨h.timeline, ?_, by omega, by omega⟩
    rw [hbase, hbefore, hmoved]
    exact hindex

omit [DecidableEq EventId] in
/-- A place moves if the new event is before it. -/
theorem At.moved_cases (hm : chain[m]? = some t) (h : At s chain tl i p) :
    (moved m atStart i = 1 ∧
      before s chain m + (if atStart then 0 else (timelineEvents s t).length) ≤ p) ∨
    (moved m atStart i = 0 ∧
      p ≤ before s chain m + if atStart then 0 else (timelineEvents s t).length) := by
  have hlow := h.low
  have hhigh := h.high
  have hlen : before s chain (m + 1) = before s chain m + (timelineEvents s t).length :=
    before_succ hm
  rcases Nat.lt_trichotomy m i with hlt | heq | hgt
  · have hbehind := before_mono s chain (show m + 1 ≤ i by omega)
    refine .inl ⟨if_pos (.inl hlt), ?_⟩
    split <;> omega
  · rw [← heq] at hlow hhigh
    cases atStart with
    | true => exact .inl ⟨if_pos (.inr ⟨heq, rfl⟩), by rw [if_pos rfl]; omega⟩
    | false =>
      exact .inr ⟨if_neg (by simp [heq]), by rw [if_neg (by decide)]; omega⟩
  · have hahead := before_mono s chain (show i + 1 ≤ m by omega)
    exact .inr ⟨if_neg (by omega), by omega⟩

theorem grown_sameLinks : SameLinks s (s.addEventToTimeline getId event t atStart) :=
  fun d u => neighbour_addEventToTimeline s event t u atStart d

variable {atStart}

/-- **A window when a timeline grows**: where both ends move alike it shows what it has shown. -/
theorem Loaded.grown (hc : TimelineChain s chain) (hm : chain[m]? = some t)
    (h : Loaded s chain w ends i p j q) (hout : ¬ Between m atStart i j) :
    Loaded (s.addEventToTimeline getId event t atStart) chain w ends
        i (p + moved m atStart i) j (q + moved m atStart j) ∧
      slice (chainEvents (s.addEventToTimeline getId event t atStart) chain)
          (p + moved m atStart i) (q + moved m atStart j) = slice (chainEvents s chain) p q := by
  have hmoved : moved m atStart i = moved m atStart j := by
    rcases moved_between m atStart h.order with ⟨-, hmoved⟩ | ⟨hin, -⟩
    · exact hmoved
    · exact absurd hin hout
  have hstart := h.start.grown getId event atStart hc hm
  have hstop := h.stop.grown getId event atStart hc hm
  have hle := h.le
  have hcount := h.count
  refine ⟨⟨h.loaded, hstart, hstop, h.order, by omega, by push_cast; omega⟩, ?_⟩
  have hgrown : TakenOut _ s t _ := takenOut_grown getId event atStart
  have hbefore := hgrown.before hc.nodup hm m
  rw [if_neg (lt_irrefl m)] at hbefore
  rw [hgrown.chainEvents hc.nodup hm, ← hmoved]
  rcases At.moved_cases atStart hm h.start with ⟨hone, hplace⟩ | ⟨hzero, -⟩
  · rw [hone]
    exact (slice_eraseIdx_of_lt (p := p + 1) (q := q + 1) (by omega)).symm
  · rcases At.moved_cases atStart hm h.stop with ⟨hone, -⟩ | ⟨-, hplace⟩
    · omega
    · rw [hzero]
      exact (slice_eraseIdx_of_le (by omega)).symm

/-- Where they do not, it shows the new event and has not counted it. -/
theorem Loaded.grown_between (hc : TimelineChain s chain) (hm : chain[m]? = some t)
    (h : Loaded s chain w ends i p j q) (hin : Between m atStart i j)
    {fuel : ℕ} (hfuel : chain.length ≤ fuel) :
    ∃ shown, w.getEvents (s.addEventToTimeline getId event t atStart) fuel = some (.ok shown) ∧
      (shown.length : Int) = w.eventCount + 1 := by
  have hstart := h.start.grown getId event atStart hc hm
  have hstop := h.stop.grown getId event atStart hc hm
  have hle := h.le
  have hcount := h.count
  have hgrow : moved m atStart i = 0 ∧ moved m atStart j = 1 := by
    rcases moved_between m atStart h.order with ⟨hout, -⟩ | ⟨-, hgrow⟩
    · exact absurd hin hout
    · exact hgrow
  have hc' := hc.sameLinks (grown_sameLinks getId event atStart (s := s) (t := t))
  have hloaded : Loaded (s.addEventToTimeline getId event t atStart) chain
      { w with eventCount := ((q + moved m atStart j : ℕ) : Int) - (p + moved m atStart i : ℕ) }
      ends _ _ _ _ :=
    ⟨h.loaded, hstart, hstop, h.order, by omega, rfl⟩
  refine ⟨_, getEvents_spec hc' hloaded hfuel, ?_⟩
  rw [List.length_map, length_slice hstop.le_length]
  omega

/-- In a chain without the timeline the window does not notice. -/
theorem Loaded.grown_elsewhere (ht : t ∉ chain) (h : Loaded s chain w ends i p j q) :
    Loaded (s.addEventToTimeline getId event t atStart) chain w ends i p j q := by
  have hgrown : TakenOut _ s t _ := takenOut_grown getId event atStart
  obtain ⟨-, hbefore⟩ := hgrown.of_not_mem ht
  have hat : ∀ {tl : TimelineIndex} {i p : ℕ}, At s chain tl i p →
      At (s.addEventToTimeline getId event t atStart) chain tl i p := by
    intro tl i p hat
    have hne : tl.timeline ≠ t := fun heq =>
      ht (heq ▸ List.mem_of_getElem? hat.timeline)
    refine ⟨hat.timeline, ?_, ?_, ?_⟩
    · rw [baseIndex_grown, if_neg fun h => hne h.1, ← hbefore]
      exact hat.index
    · rw [← hbefore]
      exact hat.low
    · rw [← hbefore]
      exact hat.high
  exact ⟨h.loaded, hat h.start, hat h.stop, h.order, h.le, h.count⟩

end Growth

/-! ## Runs -/

/-- **The window shows a slice of a chain**, of the length that it has counted. -/
def WindowShows (st : WindowState Event EventId Token) : Prop :=
  ∃ chain front shown back n, TimelineChain st.set chain ∧
    chainEvents st.set chain = front ++ shown ++ back ∧
    (∀ fuel, n ≤ fuel → st.window.getEvents st.set fuel = some (.ok (shown.map some))) ∧
    (shown.length : Int) = st.window.eventCount

/-- An event is put in at a border between timelines of the window: at the start of one behind that
of its start, or at the end of one before that of its end. -/
def GrowsBetween (s : EventTimelineSet Event EventId Token) (ends : WindowEnds) (t : ℕ)
    (atStart : Bool) : Prop :=
  if atStart then TransGen (Linked (s.link .forwards)) ends.start.timeline t ∧
    ReflTransGen (Linked (s.link .forwards)) t ends.stop.timeline
  else ReflTransGen (Linked (s.link .forwards)) ends.start.timeline t ∧
    TransGen (Linked (s.link .forwards)) t ends.stop.timeline

/-- The steps of the timelines. -/
def WindowStep.Grows : WindowStep Event EventId → Prop
  | .addTimeline => True
  | .addEvent _ _ _ => True
  | .join _ _ _ => True
  | _ => False

/-- Timelines grow where the window does not go on. -/
def GrowsOutside (st : WindowState Event EventId Token) (e : WindowStep Event EventId) : Prop :=
  match e with
  | .addEvent _ t atStart =>
    ∀ ends, st.window.ends = some ends → ¬ GrowsBetween st.set ends t atStart
  | _ => True

theorem TimelineChain.reflTransGen_iff_le {u m : ℕ} (hc : TimelineChain s chain)
    (hi : chain[i]? = some t) (hm : chain[m]? = some u) :
    ReflTransGen (Linked (s.link .forwards)) t u ↔ i ≤ m := by
  rw [hc.reflTransGen_iff hi]
  constructor
  · rintro ⟨n, hn⟩
    have := getElem?_inj hc.nodup hm hn
    omega
  · intro hle
    exact ⟨m - i, by rw [Nat.add_sub_cancel' hle]; exact hm⟩

theorem TimelineChain.transGen_iff_lt {u m : ℕ} (hc : TimelineChain s chain)
    (hi : chain[i]? = some t) (hm : chain[m]? = some u) :
    TransGen (Linked (s.link .forwards)) t u ↔ i < m := by
  rw [hc.transGen_iff hi]
  constructor
  · rintro ⟨n, hn⟩
    have := getElem?_inj hc.nodup hm hn
    omega
  · intro hlt
    exact ⟨m - i - 1, by rw [show i + (m - i - 1) + 1 = m by omega]; exact hm⟩

theorem growsBetween_iff {m : ℕ} {atStart : Bool} (hc : TimelineChain s chain)
    (hm : chain[m]? = some t) (h : Loaded s chain w ends i p j q) :
    GrowsBetween s ends t atStart ↔ Between m atStart i j := by
  unfold GrowsBetween Between
  split
  · exact and_congr (hc.transGen_iff_lt h.start.timeline hm)
      (hc.reflTransGen_iff_le hm h.stop.timeline)
  · exact and_congr (hc.reflTransGen_iff_le h.start.timeline hm)
      (hc.transGen_iff_lt hm h.stop.timeline)

/-- A timeline between two others is in their chain. -/
theorem GrowsBetween.mem {atStart : Bool} (h : GrowsBetween s ends t atStart)
    (hc : TimelineChain s chain) (hi : chain[i]? = some ends.start.timeline) : t ∈ chain := by
  have hreach : ReflTransGen (Linked (s.link .forwards)) ends.start.timeline t := by
    unfold GrowsBetween at h
    split at h
    · exact h.1.to_reflTransGen
    · exact h.1
  obtain ⟨n, hn⟩ := (hc.reflTransGen_iff hi).1 hreach
  exact List.mem_of_getElem? hn

/-- Events are put in at ends of chains. -/
def GrowsAtEnds (st : WindowState Event EventId Token) : WindowStep Event EventId → Prop
  | .addEvent _ t atStart => st.set.link (if atStart then .backwards else .forwards) t = none
  | _ => True

instance (st : WindowState Event EventId Token) (e : WindowStep Event EventId) :
    Decidable (GrowsAtEnds st e) :=
  match e with
  | .addEvent _ _ _ => inferInstanceAs (Decidable (_ = none))
  | .load _ _ | .loaded _ _ | .extend _ _ | .unpaginate _ _ | .paginate _ _ _ _ | .paginated _ _
  | .addTimeline | .join _ _ _ => isTrue trivial

/-- **The ends of a chain are outside** of every window: what has no neighbour is not between two
timelines of one. -/
theorem GrowsAtEnds.growsOutside {st : WindowState Event EventId Token}
    {e : WindowStep Event EventId} (hs : Chained st.set) (h : GrowsAtEnds st e) :
    GrowsOutside st e := by
  cases e with
  | addEvent event t atStart =>
    intro ends _ hbetween
    unfold GrowsBetween at hbetween
    cases atStart with
    | true =>
      obtain ⟨u, -, hlink⟩ := TransGen.tail'_iff.1 hbetween.1
      exact nomatch ((hs.symmetric .forwards u t).1 hlink).symm.trans h
    | false =>
      obtain ⟨u, hlink, -⟩ := TransGen.head'_iff.1 hbetween.2
      exact nomatch hlink.symm.trans h
  | _ => trivial

theorem Placed.windowShows {st : WindowState Event EventId Token} (h : Placed st.set st.window) :
    WindowShows st := by
  rcases h with ⟨hends, hcount⟩ | ⟨chain, hc, -, ends, i, p, j, q, hloaded⟩
  · refine ⟨[], [], [], [], 0, ⟨List.nodup_nil, nofun, nofun, nofun⟩, rfl, fun fuel _ => ?_,
      hcount.symm⟩
    rw [TimelineWindow.getEvents, hends]
    rfl
  · obtain ⟨front, back, hslice⟩ := slice_infix (l := chainEvents st.set chain) (p := p) (q := q)
    refine ⟨chain, front, _, back, chain.length, hc, hslice.symm,
      fun fuel hfuel => getEvents_spec hc hloaded hfuel, ?_⟩
    have hle := hloaded.le
    rw [length_slice hloaded.stop.le_length, hloaded.count]
    omega

/-- What holds of all states whose timelines have grown outside of the window. -/
structure WindowInv (st : WindowState Event EventId Token) : Prop where
  chained : Chained st.set
  bounded : Bounded st.set
  placed : Placed st.set st.window

section Steps

variable [DecidableEq EventId] {getId : Event → EventId} {set : EventTimelineSet Event EventId Token}
  {windowLimit : ℕ} {st st' : WindowState Event EventId Token} {e : WindowStep Event EventId}

section

omit [DecidableEq EventId]

theorem WindowInv.exists_chain (h : WindowInv st) {t : ℕ} (ht : t < st.set.created) :
    ∃ (chain : List ℕ) (i : ℕ), TimelineChain st.set chain ∧ (∀ u ∈ chain, u < st.set.created) ∧
      chain[i]? = some t := by
  obtain ⟨front, back, hc⟩ := exists_timelineChain h.chained h.bounded (List.cons_ne_nil t [])
    (List.isChain_singleton t)
  refine ⟨_, front.length, hc, hc.lt_created h.bounded (by simp) ht, ?_⟩
  rw [List.getElem?_append_right le_rfl, Nat.sub_self]
  rfl

/-- **Extending returns**, and leaves no more events than the limit if it has found some. -/
theorem Placed.extend (h : Placed s w) (direction : Direction) (size : ℕ)
    {fuel : ℕ} (hfuel : s.created ≤ fuel) :
    ∃ w' extended, w.extend s fuel direction size = some (w', .ok extended) ∧
      (extended = true → w'.eventCount ≤ w'.windowLimit) ∧ Placed s w' := by
  rcases h with ⟨hends, hcount⟩ | ⟨chain, hc, hall, ends, i, p, j, q, hloaded⟩
  · refine ⟨w, false, ?_, Bool.false_ne_true.elim, .inl ⟨hends, hcount⟩⟩
    rw [TimelineWindow.extend, TimelineWindow.getTimelineIndex, hends]
    rfl
  · obtain ⟨w', extended, hextend, -, hlimit, hloaded'⟩ :=
      extend_spec hc ((hc.length_le hall).trans hfuel) direction size hloaded
    exact ⟨w', extended, hextend, hlimit, .inr ⟨chain, hc, hall, hloaded'⟩⟩

/-- **Taking events off returns**; it throws if there are not so many. -/
theorem Placed.unpaginate (h : Placed s w) (delta : Int) (startOfTimeline : Bool) {fuel : ℕ}
    (hfuel : s.created ≤ fuel) :
    ∃ w' thrown, w.unpaginate s fuel delta startOfTimeline = some (w', thrown) ∧ Placed s w' := by
  by_cases hmany : delta > w.eventCount ∨ delta < 0
  · rw [TimelineWindow.unpaginate, if_pos hmany]
    exact ⟨w, _, rfl, h⟩
  · rcases h with ⟨hends, hcount⟩ | ⟨chain, hc, hall, ends, i, p, j, q, hloaded⟩
    · rw [TimelineWindow.unpaginate, if_neg hmany, TimelineWindow.unpaginateLoop, if_pos (by omega)]
      exact ⟨w, _, rfl, .inl ⟨hends, hcount⟩⟩
    · have hcount := hloaded.count
      obtain ⟨n, rfl⟩ : ∃ n : ℕ, delta = n := ⟨delta.toNat, by omega⟩
      obtain ⟨w', hunpaginate, -, -, hloaded'⟩ := unpaginate_spec hc (n := n)
        ((hc.length_le hall).trans hfuel) startOfTimeline hloaded (by omega)
      exact ⟨w', _, hunpaginate, .inr ⟨chain, hc, hall, hloaded'⟩⟩

/-- Whether there is a promise says nothing about the place. -/
theorem Placed.setPending (h : Placed s w) {direction : Direction}
    (htl : w.getTimelineIndex direction = some tl) (pending : Bool) :
    Placed s (w.setTimelineIndex direction { tl with pendingPaginate := pending }) := by
  rcases h with ⟨hends, -⟩ | ⟨chain, hc, hall, ends, i, p, j, q, hloaded⟩
  · rw [TimelineWindow.getTimelineIndex, hends] at htl
    cases htl
  · have hat : ∀ {tl : TimelineIndex} {i p : ℕ}, At s chain tl i p →
        At s chain { tl with pendingPaginate := pending } i p := fun h =>
      ⟨h.timeline, h.index, h.low, h.high⟩
    rw [TimelineWindow.getTimelineIndex, hloaded.loaded] at htl
    refine .inr ⟨chain, hc, hall, ?_⟩
    simp only [TimelineWindow.setTimelineIndex, hloaded.loaded, Option.map_some]
    obtain rfl := Option.some.inj htl
    cases direction with
    | backwards =>
      exact ⟨_, i, p, j, q, rfl, hat hloaded.start, hloaded.stop, hloaded.order, hloaded.le,
        hloaded.count⟩
    | forwards =>
      exact ⟨_, i, p, j, q, rfl, hloaded.start, hat hloaded.stop, hloaded.order, hloaded.le,
        hloaded.count⟩

/-- `paginate` moves the window, and nothing else that matters here. -/
theorem paginate_inv (hI : WindowInv st) {direction : Direction} {size : ℕ} {makeRequest : Bool}
    {requestLimit : ℕ} (hp : st.paginate direction size makeRequest requestLimit = some st') :
    WindowInv st' := by
  unfold WindowState.paginate at hp
  split at hp
  · obtain rfl := Option.some.inj hp
    exact hI
  · split at hp
    · obtain rfl := Option.some.inj hp
      exact hI
    · obtain ⟨w', extended, hextend, -, hplaced⟩ :=
        hI.placed.extend direction size le_rfl
      rw [hextend] at hp
      obtain rfl := Option.some.inj hp
      have hI' : WindowInv { st with window := w' } := ⟨hI.chained, hI.bounded, hplaced⟩
      cases extended with
      | true => exact hI'
      | false =>
        dsimp only
        split
        · exact hI'
        · split
          · exact hI'
          next tl htl =>
            split
            · exact hI'
            · exact ⟨hI.chained, hI.bounded, hplaced.setPending htl true⟩

end

/-- `initFields` moves the window into one timeline. -/
theorem initFields_inv (hI : WindowInv st) {timeline : ℕ} (ht : timeline < st.set.created)
    (initialEventId : Option EventId) (initialWindowSize : ℕ) :
    WindowInv (st.initFields getId timeline initialEventId initialWindowSize) := by
  unfold WindowState.initFields
  split
  · exact hI
  next w' hok =>
    obtain ⟨chain, i, hc, hall, hi⟩ := hI.exists_chain ht
    obtain ⟨-, ends', p', q', hloaded⟩ := initFields_spec hi hok
    exact ⟨hI.chained, hI.bounded, .inr ⟨chain, hc, hall, ends', i, p', i, q', hloaded⟩⟩

omit [DecidableEq EventId] in
/-- No pagination is pending any more. -/
theorem Placed.settle (h : Placed s w) (direction : Direction) :
    Placed s (match w.getTimelineIndex direction with
      | none => w
      | some tl => w.setTimelineIndex direction { tl with pendingPaginate := false }) := by
  split
  · exact h
  next tl htl => exact h.setPending htl false

/-- What is called on the window keeps it in a chain. -/
theorem windowInv_call (hgrowth : ¬ e.Grows) (hI : WindowInv st)
    (he : (windowSystem getId set windowLimit).step st e = some st') : WindowInv st' := by
  cases e with
  | load initialEventId initialWindowSize =>
    obtain rfl := Option.some.inj he
    unfold WindowState.load
    split
    · exact initFields_inv hI hI.bounded.live ..
    · split
      next timeline hget => exact initFields_inv hI (hI.bounded.index _ _ hget) ..
      next => exact ⟨hI.chained, hI.bounded, hI.placed⟩
  | loaded i timeline =>
    simp only [windowSystem] at he
    split at he
    next ht =>
      obtain ⟨request, -, rfl⟩ := Option.map_eq_some_iff.1 he
      have hI' : WindowInv { st with loading := st.loading.eraseIdx i } :=
        ⟨hI.chained, hI.bounded, hI.placed⟩
      exact initFields_inv hI' ht ..
    next => cases he
  | extend direction size =>
    obtain ⟨w', extended, hextend, -, hplaced⟩ :=
      hI.placed.extend direction size le_rfl
    simp only [windowSystem, hextend, Option.map_some] at he
    obtain rfl := Option.some.inj he
    exact ⟨hI.chained, hI.bounded, hplaced⟩
  | unpaginate delta startOfTimeline =>
    obtain ⟨w', thrown, hunpaginate, hplaced⟩ :=
      hI.placed.unpaginate delta startOfTimeline le_rfl
    simp only [windowSystem, hunpaginate, Option.map_some] at he
    obtain rfl := Option.some.inj he
    exact ⟨hI.chained, hI.bounded, hplaced⟩
  | paginate direction size makeRequest requestLimit => exact paginate_inv hI he
  | paginated i more =>
    obtain ⟨request, -, hpaginated⟩ := Option.bind_eq_some_iff.1 he
    unfold WindowState.paginated at hpaginated
    dsimp only at hpaginated
    split at hpaginated
    · obtain rfl := Option.some.inj hpaginated
      refine ⟨hI.chained, hI.bounded, ?_⟩
      split
      · exact hI.placed.settle _
      · exact hI.placed
    · refine paginate_inv ?_ hpaginated
      refine ⟨hI.chained, hI.bounded, ?_⟩
      split
      · exact hI.placed.settle _
      · exact hI.placed
  | addTimeline => exact absurd trivial hgrowth
  | addEvent event t atStart => exact absurd trivial hgrowth
  | join t existing direction => exact absurd trivial hgrowth

variable (getId) in
/-- **An event that is put in**: the window keeps what it shows, exactly if it is outside. -/
theorem placed_grown (hw : Placed s w) (event : Event) (t : ℕ) (atStart : Bool) :
    ((∀ ends, w.ends = some ends → ¬ GrowsBetween s ends t atStart) ∧
      Keeps s (s.addEventToTimeline getId event t atStart) w) ∨
    ∃ ends, w.ends = some ends ∧ GrowsBetween s ends t atStart ∧
      ∃ n, ∀ fuel, n ≤ fuel → ∃ shown,
        w.getEvents (s.addEventToTimeline getId event t atStart) fuel = some (.ok shown) ∧
          (shown.length : Int) = w.eventCount + 1 := by
  rcases hw with ⟨hends, hcount⟩ | ⟨chain, hc, hall, ends, i, p, j, q, hloaded⟩
  · exact .inl ⟨(fun ends h => nomatch hends.symm.trans h), .of_unloaded hends hcount⟩
  · have hself : ∀ ends', w.ends = some ends' → ends' = ends :=
      fun ends' h => Option.some.inj (h.symm.trans hloaded.loaded)
    have hc' := hc.sameLinks (grown_sameLinks (s := s) (t := t) getId event atStart)
    by_cases ht : t ∈ chain
    · obtain ⟨m, hlt, hm⟩ := List.getElem_of_mem ht
      have hm' : chain[m]? = some t := by rw [List.getElem?_eq_getElem hlt, hm]
      by_cases hin : Between m atStart i j
      · refine .inr ⟨ends, hloaded.loaded, (growsBetween_iff hc hm' hloaded).2 hin, chain.length,
          fun fuel hfuel => hloaded.grown_between getId event hc hm' hin hfuel⟩
      · obtain ⟨hloaded', hslice⟩ := hloaded.grown getId event hc hm' hin
        refine .inl ⟨fun ends' h hbetween => ?_, .of_loaded hc hloaded hc' hall hloaded' hslice⟩
        rw [hself ends' h] at hbetween
        exact hin ((growsBetween_iff hc hm' hloaded).1 hbetween)
    · have hgrown : TakenOut _ s t _ := takenOut_grown getId event atStart
      refine .inl ⟨fun ends' h hbetween => ?_, .of_loaded hc hloaded hc' hall
        (hloaded.grown_elsewhere getId event ht) ?_⟩
      · rw [hself ends' h] at hbetween
        exact ht (hbetween.mem hc hloaded.start.timeline)
      · rw [(hgrown.of_not_mem ht).1]

/-- What happens to the timelines leaves the window, and the links are chains. -/
theorem growth_spec (hgrowth : e.Grows) (hI : WindowInv st)
    (he : (windowSystem getId set windowLimit).step st e = some st') :
    st'.window = st.window ∧ Chained st'.set ∧ Bounded st'.set ∧
      ((GrowsOutside st e ∧ Keeps st.set st'.set st.window) ∨
        (¬ GrowsOutside st e ∧ ¬ WindowShows st')) := by
  cases e with
  | addTimeline =>
    simp only [windowSystem] at he
    split at he
    · cases he
    next t' set' hok =>
      obtain rfl := Option.some.inj he
      obtain ⟨hlinks, hb⟩ := addTimeline_links hI.bounded hok
      refine ⟨rfl, hlinks.chained_iff.2 hI.chained, hb, .inl ⟨trivial, ?_⟩⟩
      unfold EventTimelineSet.addTimeline at hok
      split at hok
      · cases hok
      · obtain ⟨-, rfl⟩ := Prod.mk.inj (Except.ok.inj hok)
        refine hI.placed.sameTimelines hlinks (Nat.le_succ _) fun u hu => ?_
        exact Function.update_of_ne (Nat.ne_of_lt hu) ..
  | addEvent event t atStart =>
    simp only [windowSystem] at he
    split at he
    next ht =>
      obtain rfl := Option.some.inj he
      obtain ⟨hlinks, hb⟩ := addEventToTimeline_links getId hI.bounded ht event atStart
      refine ⟨rfl, hlinks.chained_iff.2 hI.chained, hb, ?_⟩
      rcases placed_grown getId hI.placed event t atStart with
        hout | ⟨ends, hends, hin, n, hmore⟩
      · exact .inl hout
      · refine .inr ⟨fun hout => hout ends hends hin, ?_⟩
        rintro ⟨chain, front, shown, back, n', -, -, hshows, hcount⟩
        obtain ⟨shown', hshows', hcount'⟩ := hmore (max n n') (Nat.le_max_left ..)
        have heq := (hshows (max n n') (Nat.le_max_right ..)).symm.trans hshows'
        rw [← Except.ok.inj (Option.some.inj heq), List.length_map, hcount] at hcount'
        dsimp only at hcount'
        omega
    next => cases he
  | join t existing direction =>
    simp only [windowSystem] at he
    split at he
    next hguard =>
      obtain ⟨ht, hexisting, hne, hfree, hwalk⟩ := hguard
      split at he
      · cases he
      next set' hok =>
        obtain rfl := Option.some.inj he
        rcases joinTimelines_cases hne hfree with
          ⟨hex, s', hok', hsame, hcreated, hlinks⟩ | ⟨-, thrown, herr, -⟩
        · obtain rfl := Except.ok.inj (hok'.symm.trans hok)
          have hapart : ¬ ReflTransGen (Linked (st.set.link direction)) existing t := by
            rw [← walk_eq_some_iff hwalk]
            exact Bool.false_ne_true
          have hchained := (joinTimelines_chained_iff hI.chained hne hfree).2 ⟨hex, hapart⟩
          rw [hok] at hchained
          have hb := hI.bounded.join ht hexisting hsame hcreated hlinks
          exact ⟨rfl, hchained, hb, .inl ⟨trivial, hI.placed.relinks
            (joinTimelines_relinks hne hfree hok) hcreated hchained hb⟩⟩
        · cases (herr.symm.trans hok)
    next => cases he
  | load | loaded | extend | unpaginate | paginate | paginated => exact hgrowth.elim

/-- A step outside keeps the window in a chain. -/
theorem windowInv_step (hI : WindowInv st) (hout : GrowsOutside st e)
    (he : (windowSystem getId set windowLimit).step st e = some st') : WindowInv st' := by
  by_cases hgrowth : e.Grows
  · obtain ⟨hwindow, hchained, hb, ⟨-, hkeeps⟩ | ⟨hnot, -⟩⟩ := growth_spec hgrowth hI he
    · exact ⟨hchained, hb, hwindow ▸ hkeeps.placed⟩
    · exact absurd hout hnot
  · exact windowInv_call hgrowth hI he

/-- One that is not outside makes it show more than it has counted. -/
theorem windowShows_step (hI : WindowInv st)
    (he : (windowSystem getId set windowLimit).step st e = some st') :
    WindowShows st' ↔ GrowsOutside st e := by
  constructor
  · intro hshows
    by_cases hgrowth : e.Grows
    · obtain ⟨-, -, -, ⟨hout, -⟩ | ⟨-, hnot⟩⟩ := growth_spec hgrowth hI he
      · exact hout
      · exact absurd hshows hnot
    · cases e with
      | addEvent event t atStart => exact absurd trivial hgrowth
      | _ => trivial
  · exact fun hout => (windowInv_step hI hout he).placed.windowShows

omit [DecidableEq EventId] in
theorem windowInv_new (hs : Chained set) (hb : Bounded set) (windowLimit : ℕ) :
    WindowInv (⟨set, .new windowLimit, 0, [], []⟩ : WindowState Event EventId Token) :=
  ⟨hs, hb, .inl ⟨rfl, rfl⟩⟩

/-- A run whose timelines grow at the ends of chains only. -/
theorem growsAtEnds_outside (hs : Chained set) (hb : Bounded set)
    {tr : List (WindowState Event EventId Token × WindowStep Event EventId)}
    (h : (windowSystem getId set windowLimit).Trace tr st) (hends : System.Meets GrowsAtEnds tr) :
    System.Meets GrowsOutside tr :=
  h.meets_of (I := WindowInv) (windowInv_new hs hb windowLimit)
    (fun _ _ _ hI hout he => windowInv_step hI hout he) (fun _ _ hI => GrowsAtEnds.growsOutside hI.1)
    hends

/-- **Windows, exactly.** All along a run `getEvents` returns a slice of a chain, as long as
`_eventCount` says, if and only if no event is put in at a border between the timelines of the
window's ends. Then extending leaves no more events than the limit if it has found some, and what
the timelines do does not change what the window shows. -/
theorem windowShows_iff (hs : Chained set) (hb : Bounded set)
    {tr : List (WindowState Event EventId Token × WindowStep Event EventId)}
    (h : (windowSystem getId set windowLimit).Trace tr st) :
    (System.HoldsAlong WindowShows tr st ↔ System.Meets GrowsOutside tr) ∧
    (System.Meets GrowsOutside tr →
      (∀ direction size fuel, st.set.created ≤ fuel → ∃ w extended,
        st.window.extend st.set fuel direction size = some (w, .ok extended) ∧
          (extended = true → w.eventCount ≤ w.windowLimit)) ∧
      ∀ e st', e.Grows → GrowsOutside st e →
        (windowSystem getId set windowLimit).step st e = some st' →
        ∃ n, ∀ fuel, n ≤ fuel →
          st'.window.getEvents st'.set fuel = st.window.getEvents st.set fuel) := by
  have hinit : WindowInv (⟨set, .new windowLimit, 0, [], []⟩ : WindowState Event EventId Token) :=
    windowInv_new hs hb windowLimit
  constructor
  · refine h.holdsAlong_iff_of (I := WindowInv) hinit hinit.placed.windowShows ?_ ?_
    · intro st e st' hI _ he hshows
      exact windowInv_step hI ((windowShows_step hI he).1 hshows) he
    · exact fun st e st' hI _ he => windowShows_step hI he
  · intro hmeets
    have hI : WindowInv st := h.invariant_under hinit
      (fun st e st' hI hout he => windowInv_step hI hout he) hmeets
    refine ⟨fun direction size fuel hfuel => ?_, fun e st' hgrowth hout he => ?_⟩
    · obtain ⟨w', extended, hextend, hlimit, -⟩ := hI.placed.extend direction size hfuel
      exact ⟨w', extended, hextend, hlimit⟩
    · obtain ⟨hwindow, -, -, ⟨-, hkeeps⟩ | ⟨hnot, -⟩⟩ := growth_spec hgrowth hI he
      · rw [hwindow]
        exact hkeeps.shows
      · exact absurd hout hnot

end Steps

/-! A window on two timelines, from the second event of the first one on. Events are their own ids. -/

section Examples

abbrev exampleWindows : System (WindowState ℕ ℕ ℕ) (WindowStep ℕ ℕ) :=
  windowSystem id linkedPair 3

/-- Events come at both ends of the chain; then the window goes on to the last one. -/
def growAtEnds : List (WindowStep ℕ ℕ) :=
  [.load (some 3) 20, .extend .backwards 1, .addEvent 9 1 false, .addEvent 8 0 true,
    .extend .forwards 5]

theorem growAtEnds_runs : (exampleWindows.run growAtEnds).isSome := by decide +kernel

theorem windowShows_iff_growAtEnds :
    System.HoldsAlong WindowShows (exampleWindows.steps growAtEnds)
      ((exampleWindows.run growAtEnds).get growAtEnds_runs) ∧
    ((exampleWindows.run growAtEnds).get growAtEnds_runs).window.getEvents
      ((exampleWindows.run growAtEnds).get growAtEnds_runs).set 2 =
        some (.ok [some 3, some 4, some 9]) := by
  refine ⟨(windowShows_iff chained_linkedPair bounded_linkedPair
    (System.trace_get growAtEnds_runs)).1.2 ?_, by decide +kernel⟩
  exact growsAtEnds_outside chained_linkedPair bounded_linkedPair
    (System.trace_get growAtEnds_runs) (by decide +kernel)

/-- An event comes at the border in the window. -/
def beforeBorder : List (WindowStep ℕ ℕ) := [.load (some 3) 20, .extend .backwards 1]

theorem beforeBorder_runs : (exampleWindows.run beforeBorder).isSome := by decide +kernel

def growAtBorder : List (WindowStep ℕ ℕ) := beforeBorder ++ [.addEvent 9 0 false]

theorem growAtBorder_runs : (exampleWindows.run growAtBorder).isSome := by decide +kernel

/-- Not in all states: an event that is appended to the first of two timelines shows up in the
middle of the window, and is not counted. -/
theorem windowShows_fails : Chained linkedPair ∧ Bounded linkedPair ∧
    (¬ ∀ st, exampleWindows.Reachable st → WindowShows st) ∧
    ¬ ∀ st, exampleWindows.Reachable st → ∀ e st', e.Grows →
      exampleWindows.step st e = some st' →
      ∃ n, ∀ fuel, n ≤ fuel →
        st'.window.getEvents st'.set fuel = st.window.getEvents st.set fuel := by
  refine ⟨chained_linkedPair, bounded_linkedPair, fun h => ?_, fun h => ?_⟩
  · obtain ⟨_, _, shown, _, n, -, -, hshows, hcount⟩ :=
      h _ (System.reachable_get growAtBorder_runs)
    have hevents : some (Except.ok [some 2, some 9, some 3, some 4]) =
        some (Except.ok (shown.map some)) :=
      hshows (n + 2) (Nat.le_add_right n 2)
    have hlen := congrArg List.length (Except.ok.inj (Option.some.inj hevents))
    rw [List.length_map] at hlen
    rw [← hlen] at hcount
    exact absurd hcount (by decide)
  · obtain ⟨n, hsame⟩ := h _ (System.reachable_get beforeBorder_runs) (.addEvent 9 0 false) _
      trivial rfl
    have hevents : some (Except.ok [some 2, some 9, some 3, some 4]) =
        some (Except.ok [some 2, some 3, some 4]) := hsame (n + 2) (Nat.le_add_right n 2)
    exact absurd (Except.ok.inj (Option.some.inj hevents)) (by decide)

end Examples

end MatrixSdk.Models
