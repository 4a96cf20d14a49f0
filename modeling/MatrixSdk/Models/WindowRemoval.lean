/-
Events that are taken out of the timelines of a `TimelineWindow`.

`EventTimeline.removeEvent` moves the base index of the timeline if the event is before it, so the
indices relative to it stay where they are among the events behind the base index. An end of the
window stays among the same events only if the base index and the event are on the same side of it;
and the window does not hear of the event, so it counts it still. That leaves the removals that do
no harm to those of [`RemovesOutside`].
-/
import MatrixSdk.Models.WindowRuns

set_option autoImplicit false

namespace MatrixSdk.Models

open MatrixSdk.Lib Relation TimelineWindow

variable {Event EventId Token : Type}

/-! ## Removing an event -/

section Removal

variable [DecidableEq EventId] (getId : Event → EventId)

/-- `removeEvent` of a timeline of the window, with its event. -/
def WindowState.removeEvent (st : WindowState Event EventId Token) (timeline : ℕ)
    (eventId : EventId) : Option (Event × WindowState Event EventId Token) :=
  ((st.set.timeline timeline).removeEvent getId eventId).map fun (event, t) =>
    (event, { st with set := st.set.setTimeline timeline t })

/-- `extend` and `unpaginate`. -/
def WindowStep.Resizes : WindowStep Event EventId → Prop
  | .extend _ _ => True
  | .unpaginate _ _ => True
  | _ => False

/-- The window shows what it has shown before, without the event, and goes on from there: whatever
it extends and unpaginates, it shows a slice of the chain, as long as it is counted to be. -/
structure ShowsWithout [DecidableEq Event] (event : Event)
    (st st' : WindowState Event EventId Token) : Prop where
  shows : ∃ (shown : List Event) (n : ℕ), ∀ fuel, n ≤ fuel →
    st.window.getEvents st.set fuel = some (.ok (shown.map some)) ∧
    st'.window.getEvents st'.set fuel = some (.ok ((shown.filter (· ≠ event)).map some))
  resizes : ∀ calls, (∀ e ∈ calls, WindowStep.Resizes e) →
    ∃ st'', (windowSystem getId st'.set st'.window.windowLimit).runFrom st' calls = some st'' ∧
      WindowShows st''

/-- The `r`-th event of a timeline is not in the window, and its removal leaves the ends of the
window where they were among the others; or there are no events in the window, and it stays in its
timeline. -/
def RemovesOutside (s : EventTimelineSet Event EventId Token) (ends : WindowEnds) (t r : ℕ) : Prop :=
  let baseIndex := (s.timeline t).baseIndex
  let startIndex := ends.start.index + baseIndex
  let endIndex := ends.stop.index + baseIndex
  ¬ (ReflTransGen (Linked (s.link .forwards)) ends.start.timeline t ∧
      ReflTransGen (Linked (s.link .forwards)) t ends.stop.timeline) ∨
    (t = ends.start.timeline ∧ r < startIndex ∧ r < baseIndex) ∨
    (t = ends.stop.timeline ∧ endIndex ≤ r ∧ baseIndex ≤ r) ∨
    (t = ends.start.timeline ∧ t = ends.stop.timeline ∧ startIndex = endIndex ∧
      (baseIndex ≤ r ∧ r < startIndex ∧ startIndex < (s.timeline t).events.length ∨
        startIndex ≤ r ∧ r < baseIndex ∧ 0 < startIndex))

end Removal

variable {s s' : EventTimelineSet Event EventId Token} {chain : List ℕ} {t r m i j p q : ℕ}
  {w : TimelineWindow} {ends : WindowEnds} {tl : TimelineIndex}

/-- The timelines `s'` are the timelines `s` after `removeEvent` has taken out the `r`-th event of
the timeline `t`. -/
structure Removed (s s' : EventTimelineSet Event EventId Token) (t r : ℕ) : Prop where
  takenOut : TakenOut s s' t r
  baseIndex : ∀ u, (s.timeline u).baseIndex =
    (s'.timeline u).baseIndex + if u = t ∧ r < (s.timeline t).baseIndex then 1 else 0
  links : SameLinks s s'

/-- What `removeEvent` does. -/
theorem removeEvent_spec [DecidableEq EventId] {getId : Event → EventId} {eventId : EventId}
    {event : Event} {st st' : WindowState Event EventId Token}
    (h : st.removeEvent getId t eventId = some (event, st')) :
    st'.window = st.window ∧ st'.set.created = st.set.created ∧
      (Bounded st.set → Bounded st'.set) ∧
      ∃ r, EventTimeline.lastIndexOf getId (timelineEvents st.set t) eventId = some r ∧
        (timelineEvents st.set t)[r]? = some event ∧ Removed st.set st'.set t r := by
  unfold WindowState.removeEvent at h
  obtain ⟨⟨event', timeline⟩, hremoved, hst'⟩ := Option.map_eq_some_iff.1 h
  obtain ⟨rfl, rfl⟩ := Prod.mk.inj hst'
  obtain ⟨r, hlast, hr⟩ := Option.bind_eq_some_iff.1 hremoved
  obtain ⟨event'', hevent, heq⟩ := Option.map_eq_some_iff.1 hr
  obtain ⟨rfl, rfl⟩ := Prod.mk.inj heq
  have hlinks : SameLinks st.set (st.set.setTimeline t { (st.set.timeline t) with
      events := (st.set.timeline t).events.eraseIdx r
      baseIndex := if r < (st.set.timeline t).baseIndex then (st.set.timeline t).baseIndex - 1
        else (st.set.timeline t).baseIndex }) :=
    setTimeline_sameLinks fun d => by cases d <;> rfl
  refine ⟨rfl, rfl, fun hb => hb.of_sameLinks hlinks le_rfl hb.live hb.index, r, hlast, hevent,
    ⟨(List.getElem?_eq_some_iff.1 hevent).1, ?_, fun u hu => ?_⟩, fun u => ?_, hlinks⟩
  · simp only [timelineEvents, EventTimelineSet.setTimeline, Function.update_self]
  · simp only [timelineEvents, EventTimelineSet.setTimeline, Function.update_of_ne hu]
  · simp only [EventTimelineSet.setTimeline]
    by_cases hu : u = t
    · rw [hu, Function.update_self]
      dsimp only
      split_ifs <;> omega
    · rw [Function.update_of_ne hu, if_neg fun h => hu h.1]
      rfl

/-- A place moves if the event is taken out before it, and the base index says whether it does. -/
def movedBack (m r baseIndex i : ℕ) : ℕ := if m < i ∨ m = i ∧ r < baseIndex then 1 else 0

/-- **A place when an event is taken out.** It is one still unless it gets out of its timeline. -/
theorem At.removed (hR : Removed s s' t r) (hl : chain.Nodup) (hm : chain[m]? = some t)
    (h : At s chain tl i p) {p' : ℕ} (hp : p' + movedBack m r (s.timeline t).baseIndex i = p)
    (hlow : m = i → before s chain i ≤ p') (hhigh : m = i → p' < before s chain (i + 1)) :
    At s' chain tl i p' := by
  have hindex := h.index
  have hlow' := h.low
  have hhigh' := h.high
  have hbefore := hR.takenOut.before hl hm i
  have hbefore' := hR.takenOut.before hl hm (i + 1)
  have hbase := hR.baseIndex tl.timeline
  have hsame : tl.timeline = t ↔ m = i :=
    ⟨fun heq => getElem?_inj hl hm (heq ▸ h.timeline),
      fun heq => Option.some.inj (h.timeline.symm.trans (heq ▸ hm))⟩
  simp only [hsame] at hbase
  unfold movedBack at hp
  rcases Nat.lt_trichotomy m i with hlt | heq | hgt
  · rw [if_pos hlt] at hbefore
    rw [if_pos (by omega)] at hbefore'
    rw [if_neg (by omega)] at hbase
    rw [if_pos (.inl hlt)] at hp
    exact ⟨h.timeline, by omega, by omega, by omega⟩
  · have hl := hlow heq
    have hh := hhigh heq
    rw [if_neg (by omega)] at hbefore
    rw [if_pos (by omega)] at hbefore'
    by_cases hr : r < (s.timeline t).baseIndex
    · rw [if_pos ⟨heq, hr⟩] at hbase
      rw [if_pos (.inr ⟨heq, hr⟩)] at hp
      exact ⟨h.timeline, by omega, by omega, by omega⟩
    · rw [if_neg fun h => hr h.2] at hbase
      rw [if_neg (by omega)] at hp
      exact ⟨h.timeline, by omega, by omega, by omega⟩
  · rw [if_neg (by omega)] at hbefore
    rw [if_neg (by omega)] at hbefore'
    rw [if_neg (by omega)] at hbase
    rw [if_neg (by omega)] at hp
    exact ⟨h.timeline, by omega, by omega, by omega⟩

/-- The place of the event in the chain. -/
theorem Removed.place (h : Removed s s' t r) (hm : chain[m]? = some t) :
    before s chain m + r < before s chain (m + 1) := by
  have hlen : before s chain (m + 1) = before s chain m + (timelineEvents s t).length :=
    before_succ hm
  have := h.takenOut.lt
  omega

/-- Taken out before the window, with both ends moving. -/
theorem Loaded.removed_before (hR : Removed s s' t r) (hl : chain.Nodup) (hm : chain[m]? = some t)
    (h : Loaded s chain w ends i p j q) (hplace : before s chain m + r < p)
    (hmoved : m = i → r < (s.timeline t).baseIndex) :
    Loaded s' chain w ends i (p - 1) j (q - 1) ∧
      slice (chainEvents s' chain) (p - 1) (q - 1) = slice (chainEvents s chain) p q := by
  have hlow := h.start.low
  have hhigh := h.start.high
  have hqhigh := h.stop.high
  have horder := h.order
  have hle := h.le
  have hcount := h.count
  have hmi : m ≤ i := by
    by_contra hnot
    have := before_mono s chain (show i + 1 ≤ m by omega)
    omega
  have hmove : ∀ n, m ≤ n → (m = n → r < (s.timeline t).baseIndex) →
      movedBack m r (s.timeline t).baseIndex n = 1 := by
    intro n hn hbase
    refine if_pos ?_
    rcases Nat.lt_or_eq_of_le hn with hlt | heq
    · exact .inl hlt
    · exact .inr ⟨heq, hbase heq⟩
  have hstop : m = j → m = i := fun heq => by omega
  refine ⟨⟨h.loaded, ?_, ?_, horder, by omega, by omega⟩, ?_⟩
  · refine h.start.removed hR hl hm ?_ (fun heq => ?_) fun heq => by omega
    · rw [hmove i hmi hmoved]
      omega
    · rw [heq] at hplace
      omega
  · refine h.stop.removed hR hl hm ?_ (fun heq => ?_) fun heq => by omega
    · rw [hmove j (by omega) fun heq => hmoved (hstop heq)]
      omega
    · rw [heq] at hplace
      omega
  · rw [hR.takenOut.chainEvents hl hm]
    exact slice_eraseIdx_of_lt hplace

/-- Taken out behind the window, with neither end moving. -/
theorem Loaded.removed_behind (hR : Removed s s' t r) (hl : chain.Nodup) (hm : chain[m]? = some t)
    (h : Loaded s chain w ends i p j q) (hplace : q ≤ before s chain m + r)
    (hmoved : m = j → (s.timeline t).baseIndex ≤ r) :
    Loaded s' chain w ends i p j q ∧
      slice (chainEvents s' chain) p q = slice (chainEvents s chain) p q := by
  have hlow := h.start.low
  have hqlow := h.stop.low
  have horder := h.order
  have hle := h.le
  have hroom := hR.place hm
  have hjm : j ≤ m := by
    by_contra hnot
    have := before_mono s chain (show m + 1 ≤ j by omega)
    omega
  have hmove : ∀ n, n ≤ m → (m = n → (s.timeline t).baseIndex ≤ r) →
      movedBack m r (s.timeline t).baseIndex n = 0 := by
    intro n hn hbase
    refine if_neg ?_
    rintro (hlt | ⟨heq, hr⟩)
    · omega
    · have := hbase heq
      omega
  refine ⟨⟨h.loaded, ?_, ?_, horder, hle, h.count⟩, ?_⟩
  · refine h.start.removed hR hl hm ?_ (fun _ => hlow) fun heq => ?_
    · rw [hmove i (by omega) fun heq => hmoved (by omega)]
      rfl
    · rw [heq] at hplace hroom
      omega
  · refine h.stop.removed hR hl hm ?_ (fun _ => hqlow) fun heq => ?_
    · rw [hmove j hjm hmoved]
      rfl
    · rw [heq] at hplace hroom
      omega
  · rw [hR.takenOut.chainEvents hl hm]
    exact slice_eraseIdx_of_le hplace

/-- In a chain without the timeline the window does not notice. -/
theorem Loaded.removed_elsewhere (hR : Removed s s' t r) (ht : t ∉ chain)
    (h : Loaded s chain w ends i p j q) : Loaded s' chain w ends i p j q := by
  obtain ⟨-, hbefore⟩ := hR.takenOut.of_not_mem ht
  have hat : ∀ {tl : TimelineIndex} {i p : ℕ}, At s chain tl i p → At s' chain tl i p := by
    intro tl i p hat
    have hne : tl.timeline ≠ t := fun heq =>
      ht (heq ▸ List.mem_of_getElem? hat.timeline)
    have hbase := hR.baseIndex tl.timeline
    rw [if_neg fun h => hne h.1] at hbase
    have hindex := hat.index
    refine ⟨hat.timeline, ?_, ?_, ?_⟩
    · rw [hbefore]
      omega
    · rw [hbefore]
      exact hat.low
    · rw [hbefore]
      exact hat.high
  exact ⟨h.loaded, hat h.start, hat h.stop, h.order, h.le, h.count⟩

/-- A window without events stays in its timeline. -/
theorem Loaded.removed_empty (hR : Removed s s' t r) (hl : chain.Nodup) (hm : chain[m]? = some t)
    (h : Loaded s chain w ends m p m p)
    (hin : (s.timeline t).baseIndex ≤ r ∧ p < before s chain (m + 1) ∨
      r < (s.timeline t).baseIndex ∧ before s chain m < p) :
    ∃ p', Loaded s' chain w ends m p' m p' := by
  have hlow := h.start.low
  have hhigh := h.start.high
  have hroom := hR.place hm
  have hcount := h.count
  rcases hin with ⟨hr, hp⟩ | ⟨hr, hp⟩
  · have hmove : p + movedBack m r (s.timeline t).baseIndex m = p := by
      rw [movedBack, if_neg (by omega)]
      rfl
    have hat : ∀ {tl : TimelineIndex}, At s chain tl m p → At s' chain tl m p := fun hat =>
      hat.removed hR hl hm hmove (fun _ => hlow) fun _ => hp
    exact ⟨p, h.loaded, hat h.start, hat h.stop, le_rfl, le_rfl, hcount⟩
  · have hmove : p - 1 + movedBack m r (s.timeline t).baseIndex m = p := by
      rw [movedBack, if_pos (.inr ⟨rfl, hr⟩)]
      omega
    have hat : ∀ {tl : TimelineIndex}, At s chain tl m p → At s' chain tl m (p - 1) := fun hat =>
      hat.removed hR hl hm hmove (fun _ => by omega) fun _ => by omega
    exact ⟨p - 1, h.loaded, hat h.start, hat h.stop, le_rfl, le_rfl, by omega⟩

/-- The removal in the terms of the chain: the timeline is the `m`-th one. -/
theorem removesOutside_iff (hc : TimelineChain s chain) (hm : chain[m]? = some t)
    (h : Loaded s chain w ends i p j q) :
    RemovesOutside s ends t r ↔ m < i ∨ j < m ∨
      (m = i ∧ before s chain m + r < p ∧ r < (s.timeline t).baseIndex) ∨
      (m = j ∧ q ≤ before s chain m + r ∧ (s.timeline t).baseIndex ≤ r) ∨
      (m = i ∧ m = j ∧ p = q ∧
        ((s.timeline t).baseIndex ≤ r ∧ before s chain m + r < p ∧ p < before s chain (m + 1) ∨
          p ≤ before s chain m + r ∧ r < (s.timeline t).baseIndex ∧ before s chain m < p)) := by
  have hlen := before_succ (s := s) hm
  have hstart := h.start.index
  have hstop := h.stop.index
  have hti : t = ends.start.timeline ↔ m = i :=
    ⟨fun heq => getElem?_inj hc.nodup hm (heq ▸ h.start.timeline),
      fun heq => Option.some.inj ((heq ▸ hm).symm.trans h.start.timeline)⟩
  have htj : t = ends.stop.timeline ↔ m = j :=
    ⟨fun heq => getElem?_inj hc.nodup hm (heq ▸ h.stop.timeline),
      fun heq => Option.some.inj ((heq ▸ hm).symm.trans h.stop.timeline)⟩
  have hspan : ¬ (ReflTransGen (Linked (s.link .forwards)) ends.start.timeline t ∧
      ReflTransGen (Linked (s.link .forwards)) t ends.stop.timeline) ↔ m < i ∨ j < m := by
    rw [hc.reflTransGen_iff_le h.start.timeline hm, hc.reflTransGen_iff_le hm h.stop.timeline]
    omega
  unfold RemovesOutside
  rw [hspan, hti, htj, or_assoc]
  -- in the timeline of an end its index is its place without the events before the timeline
  have hstart' : m = i → (p : Int) =
      before s chain m + (ends.start.index + (s.timeline t).baseIndex) := fun heq => by
    rw [hti.2 heq, heq]
    exact hstart.symm
  have hstop' : m = j → (q : Int) =
      before s chain m + (ends.stop.index + (s.timeline t).baseIndex) := fun heq => by
    rw [htj.2 heq, heq]
    exact hstop.symm
  refine or_congr_right (or_congr_right (or_congr ?_ (or_congr ?_ ?_)))
  · exact and_congr_right fun heq => by have := hstart' heq; omega
  · exact and_congr_right fun heq => by have := hstop' heq; omega
  · refine and_congr_right fun heq => and_congr_right fun heq' => ?_
    have := hstart' heq
    have := hstop' heq'
    omega

/-! ## Removals that do no harm -/

/-- An event has been put into one timeline, once. -/
structure EventsOnce (s : EventTimelineSet Event EventId Token) : Prop where
  nodup : ∀ t, (timelineEvents s t).Nodup
  timeline : ∀ t u event, event ∈ timelineEvents s t → event ∈ timelineEvents s u → t = u

theorem EventsOnce.nodup_chain (h : EventsOnce s) (hl : chain.Nodup) : (chainEvents s chain).Nodup := by
  refine List.nodup_flatMap.2 ⟨fun t _ => h.nodup t, ?_⟩
  refine hl.imp fun {t u} hne event ht hu => hne (h.timeline t u event ht hu)

section Steps

variable [DecidableEq EventId] {getId : Event → EventId} {set : EventTimelineSet Event EventId Token}
  {windowLimit : ℕ} {st st' : WindowState Event EventId Token}

/-- A window in a chain goes on. -/
theorem WindowInv.resizes (hI : WindowInv st) {calls : List (WindowStep Event EventId)}
    (hcalls : ∀ e ∈ calls, e.Resizes) :
    ∃ st', (windowSystem getId set windowLimit).runFrom st calls = some st' ∧ WindowShows st' := by
  induction calls generalizing st with
  | nil => exact ⟨st, rfl, hI.placed.windowShows⟩
  | cons e calls ih =>
    obtain ⟨he, hcalls⟩ := List.forall_mem_cons.1 hcalls
    have hstep : ∃ st₁, (windowSystem getId set windowLimit).step st e = some st₁ := by
      cases e with
      | extend direction size =>
        obtain ⟨w, extended, hextend, -⟩ := hI.placed.extend direction size le_rfl
        exact ⟨{ st with window := w }, by simp only [windowSystem, hextend, Option.map_some]⟩
      | unpaginate delta startOfTimeline =>
        obtain ⟨w, thrown, hunpaginate, -⟩ := hI.placed.unpaginate delta startOfTimeline le_rfl
        exact ⟨{ st with window := w }, by simp only [windowSystem, hunpaginate, Option.map_some]⟩
      | _ => exact he.elim
    have hgrowth : ¬ e.Grows := by
      cases e with
      | extend direction size => exact id
      | unpaginate delta startOfTimeline => exact id
      | _ => exact he.elim
    obtain ⟨st₁, hst₁⟩ := hstep
    obtain ⟨st', hrun, hshows⟩ := ih (windowInv_call hgrowth hI hst₁) hcalls
    refine ⟨st', ?_, hshows⟩
    rw [System.runFrom, hst₁, Option.bind_some]
    exact hrun

variable [DecidableEq Event] {event : Event}

/-- The window is in its chain still, with the same events. -/
theorem showsWithout_of_loaded (hI : WindowInv st') {chain' : List ℕ} {i' j' p' q' : ℕ}
    (hc : TimelineChain st.set chain) (h : Loaded st.set chain st.window ends i p j q)
    (hc' : TimelineChain st'.set chain') (h' : Loaded st'.set chain' st'.window ends i' p' j' q')
    (hslice : slice (chainEvents st'.set chain') p' q' = slice (chainEvents st.set chain) p q)
    (hevent : event ∉ slice (chainEvents st.set chain) p q) :
    ShowsWithout getId event st st' := by
  refine ⟨⟨slice (chainEvents st.set chain) p q, max chain.length chain'.length,
    fun fuel hfuel => ⟨?_, ?_⟩⟩, fun calls hcalls => hI.resizes hcalls⟩
  · exact getEvents_spec hc h ((Nat.le_max_left ..).trans hfuel)
  · have hall : ∀ ev ∈ slice (chainEvents st.set chain) p q, decide (ev ≠ event) = true :=
      fun ev hev => decide_eq_true fun heq => hevent (heq ▸ hev)
    rw [List.filter_eq_self.2 hall, ← hslice]
    exact getEvents_spec hc' h' ((Nat.le_max_right ..).trans hfuel)

omit [DecidableEq EventId] [DecidableEq Event] in
/-- The timelines without the event. -/
theorem WindowInv.removed (hI : WindowInv st) (hR : Removed st.set st'.set t r)
    (hb : Bounded st'.set) (hplaced : Placed st'.set st'.window) : WindowInv st' :=
  ⟨hR.links.chained_iff.2 hI.chained, hb, hplaced⟩

theorem showsWithout_of_unloaded (hI : WindowInv st) (hR : Removed st.set st'.set t r)
    (hb : Bounded st'.set) (hw : st'.window = st.window) (hends : st.window.ends = none) :
    ShowsWithout getId event st st' := by
  have hcount : st.window.eventCount = 0 := by
    rcases hI.placed with ⟨-, hcount⟩ | ⟨_, _, _, _, _, _, _, _, hloaded⟩
    · exact hcount
    · exact nomatch hends.symm.trans hloaded.loaded
  have hI' : WindowInv st' := hI.removed hR hb (.inl (hw.symm ▸ ⟨hends, hcount⟩))
  refine ⟨⟨[], 0, fun fuel _ => ?_⟩, fun calls hcalls => hI'.resizes hcalls⟩
  rw [hw, getEvents, getEvents, hends]
  exact ⟨rfl, rfl⟩

/-- **A removal that does no harm** to a window in a chain. -/
theorem showsWithout_of_outside (hI : WindowInv st) (hR : Removed st.set st'.set t r)
    (hb : Bounded st'.set) (hw : st'.window = st.window)
    (hevent : (timelineEvents st.set t)[r]? = some event) (hc : TimelineChain st.set chain)
    (hall : ∀ t ∈ chain, t < st'.set.created) (honce : EventsOnce st.set)
    (h : Loaded st.set chain st.window ends i p j q) (hout : RemovesOutside st.set ends t r) :
    ShowsWithout getId event st st' := by
  have hc' : TimelineChain st'.set chain := hc.sameLinks hR.links
  have hgo : ∀ {p' q' : ℕ}, Loaded st'.set chain st.window ends i p' j q' →
      slice (chainEvents st'.set chain) p' q' = slice (chainEvents st.set chain) p q →
      event ∉ slice (chainEvents st.set chain) p q → ShowsWithout getId event st st' := by
    intro p' q' hloaded hslice hnot
    rw [← hw] at hloaded
    exact showsWithout_of_loaded
      (hI.removed hR hb (.inr ⟨chain, hc', hall, ends, i, p', j, q', hloaded⟩)) hc h hc' hloaded
      hslice hnot
  by_cases ht : t ∈ chain
  · obtain ⟨m, hlt, hm⟩ := List.getElem_of_mem ht
    have hm' : chain[m]? = some t := by rw [List.getElem?_eq_getElem hlt, hm]
    have hplace : (chainEvents st.set chain)[before st.set chain m + r]? = some event :=
      (getElem?_segment hm' hR.takenOut.lt).trans hevent
    have hnot : before st.set chain m + r < p ∨ q ≤ before st.set chain m + r →
        event ∉ slice (chainEvents st.set chain) p q := by
      intro hwhere hmem
      obtain ⟨hp, hq⟩ := (mem_slice_iff (honce.nodup_chain hc.nodup) hplace).1 hmem
      omega
    have hroom := hR.place hm'
    have hlow := h.start.low
    have hqhigh := h.stop.high
    have hbefore : before st.set chain m + r < p → (m = i → r < (st.set.timeline t).baseIndex) →
        ShowsWithout getId event st st' := fun hp hmoved => by
      obtain ⟨hloaded, hslice⟩ := h.removed_before hR hc.nodup hm' hp hmoved
      exact hgo hloaded hslice (hnot (.inl hp))
    have hbehind : q ≤ before st.set chain m + r → (m = j → (st.set.timeline t).baseIndex ≤ r) →
        ShowsWithout getId event st st' := fun hq hmoved => by
      obtain ⟨hloaded, hslice⟩ := h.removed_behind hR hc.nodup hm' hq hmoved
      exact hgo hloaded hslice (hnot (.inr hq))
    rcases (removesOutside_iff hc hm' h).1 hout with
      hmi | hjm | ⟨-, hp, hr⟩ | ⟨-, hq, hr⟩ | ⟨rfl, rfl, rfl, hin⟩
    · have := before_mono st.set chain (show m + 1 ≤ i by omega)
      exact hbefore (by omega) fun heq => by omega
    · have := before_mono st.set chain (show j + 1 ≤ m by omega)
      exact hbehind (by omega) fun heq => by omega
    · exact hbefore hp fun _ => hr
    · exact hbehind hq fun _ => hr
    · obtain ⟨p', hloaded⟩ := h.removed_empty hR hc.nodup hm' (by omega)
      refine hgo hloaded ?_ (hnot (by omega))
      rw [slice_self, slice_self]
  · refine hgo (h.removed_elsewhere hR ht) ?_ fun hmem => ht ?_
    · rw [(hR.takenOut.of_not_mem ht).1]
    · obtain ⟨u, hu, hmem⟩ := List.mem_flatMap.1 (List.IsInfix.subset slice_infix hmem)
      rw [honce.timeline t u event (List.mem_of_getElem? hevent) hmem]
      exact hu

/-! ## Removals that do harm -/

/-- Without a call the window shows just what it has shown, and the event is not in it. -/
theorem ShowsWithout.same (h : ShowsWithout getId event st st') (hw : st'.window = st.window)
    (hc : TimelineChain st.set chain) (hl : Loaded st.set chain st.window ends i p j q) :
    WindowShows st' ∧ event ∉ slice (chainEvents st.set chain) p q ∧
      ∃ n, ∀ fuel, n ≤ fuel → st'.window.getEvents st'.set fuel =
        some (.ok ((slice (chainEvents st.set chain) p q).map some)) := by
  obtain ⟨shown, n, hshown⟩ := h.shows
  obtain ⟨_, hrun, hshows⟩ := h.resizes [] (fun _ he => absurd he List.not_mem_nil)
  obtain rfl := Option.some.inj hrun
  refine ⟨hshows, ?_⟩
  obtain ⟨_, _, shown', _, n', -, -, hevents, hcount⟩ := hshows
  have hlarge : ∀ fuel, max (max n n') chain.length ≤ fuel →
      n ≤ fuel ∧ n' ≤ fuel ∧ chain.length ≤ fuel := fun fuel hfuel => by omega
  obtain ⟨hn, hn', hlen⟩ := hlarge _ le_rfl
  obtain rfl : shown = slice (chainEvents st.set chain) p q := by
    have heq := (hshown _ hn).1.symm.trans (getEvents_spec hc hl hlen)
    exact List.map_injective_iff.2 (Option.some_injective _)
      (Except.ok.inj (Option.some.inj heq))
  -- as many are shown as are counted, and the count has not changed
  have hfilter : (slice (chainEvents st.set chain) p q).filter (· ≠ event) =
      slice (chainEvents st.set chain) p q := by
    have heq := (hshown _ hn).2.symm.trans (hevents _ hn')
    have heq' := congrArg List.length (Except.ok.inj (Option.some.inj heq))
    rw [List.length_map, List.length_map] at heq'
    refine List.filter_sublist.eq_of_length ?_
    have hle := hl.le
    have hcount' := hl.count
    rw [hw] at hcount
    rw [heq', length_slice hl.stop.le_length]
    omega
  refine ⟨fun hmem => ?_, n, fun fuel hfuel => ?_⟩
  · have := List.filter_eq_self.1 hfilter event hmem
    exact absurd rfl (of_decide_eq_true this)
  · rw [← hfilter]
    exact (hshown fuel hfuel).2

omit [DecidableEq EventId] [DecidableEq Event] in
/-- A window that is in a chain, and has not counted its events right. -/
theorem Loaded.not_windowShows {w : TimelineWindow} (hc : TimelineChain st.set chain)
    (h : Loaded st.set chain w ends i p j q) (hends : st.window.ends = w.ends)
    (hcount : st.window.eventCount ≠ w.eventCount) : ¬ WindowShows st := by
  rintro ⟨_, _, shown, _, n, -, -, hevents, hlen⟩
  have hsame : ∀ fuel, st.window.getEvents st.set fuel = w.getEvents st.set fuel := fun fuel => by
    rw [getEvents, getEvents, hends]
  have heq := (hevents _ (Nat.le_max_left n chain.length)).symm.trans
    ((hsame _).trans (getEvents_spec hc h (Nat.le_max_right n chain.length)))
  have heq' := congrArg List.length (Except.ok.inj (Option.some.inj heq))
  have hle := h.le
  have hcount' := h.count
  rw [List.length_map, List.length_map, length_slice h.stop.le_length] at heq'
  omega

omit [DecidableEq EventId] [DecidableEq Event] in
/-- The events of a window in one timeline, wherever its ends are. -/
theorem getEvents_oneTimeline (hends : w.ends = some ends)
    (hone : ends.start.timeline = ends.stop.timeline) (fuel : ℕ) :
    w.getEvents s fuel = some (.ok ((List.range (ends.stop.index - ends.start.index).toNat).map
      fun i : ℕ => eventAt (timelineEvents s ends.start.timeline)
        (ends.start.index + (s.timeline ends.start.timeline).baseIndex + i))) := by
  have hlen : ends.stop.index + ((s.timeline ends.start.timeline).baseIndex : Int) -
      (ends.start.index + (s.timeline ends.start.timeline).baseIndex) =
        ends.stop.index - ends.start.index := by omega
  rw [getEvents, hends]
  dsimp only
  rw [getEventsLoop.eq_def]
  dsimp only
  rw [if_pos rfl, if_pos hone, if_pos hone, List.nil_append, hlen]
  rfl

/-! An end that has got out of its timeline gets back when the window is extended by one event, and
that event is counted. -/

/-- The window with its start one event before. -/
def TimelineWindow.startBack (w : TimelineWindow) (ends : WindowEnds) : TimelineWindow :=
  { w with ends := some { ends with start := { ends.start with index := ends.start.index - 1 } } }

/-- The window with its end one event behind. -/
def TimelineWindow.stopForth (w : TimelineWindow) (ends : WindowEnds) : TimelineWindow :=
  { w with ends := some { ends with stop := { ends.stop with index := ends.stop.index + 1 } } }

/-- The window with another count. -/
def TimelineWindow.counting (w : TimelineWindow) (eventCount : Int) : TimelineWindow :=
  { w with eventCount := eventCount }

section

omit [DecidableEq EventId] [DecidableEq Event]

theorem extend_backwards_one (hends : w.ends = some ends)
    (hroom : ends.start.minIndex s < ends.start.index) (fuel : ℕ) :
    w.extend s fuel .backwards 1 =
      (let w := (w.startBack ends).counting (w.eventCount + 1)
        if w.eventCount - (w.windowLimit : Int) > 0 then
          (w.unpaginate s fuel (w.eventCount - (w.windowLimit : Int)) false).map fun (w, thrown) =>
            (w, thrown.map fun _ => true)
        else some (w, .ok true)) := by
  have hretreat : ends.start.retreat s fuel ((1 : ℕ) : Int) =
      some ({ ends.start with index := ends.start.index - 1 }, 1) := by
    have hmax : max (((1 : ℕ) : Int) * -1) (ends.start.minIndex s - ends.start.index) = -1 := by
      omega
    rw [retreat_backwards (by omega), hmax, if_pos (by omega)]
    rfl
  unfold extend getTimelineIndex setTimelineIndex
  rw [hends]
  dsimp only [Option.map_some]
  rw [if_pos rfl, hretreat, Option.bind_some]
  rfl

theorem extend_forwards_one (hends : w.ends = some ends)
    (hroom : ends.stop.index < ends.stop.maxIndex s) (fuel : ℕ) :
    w.extend s fuel .forwards 1 =
      (let w := (w.stopForth ends).counting (w.eventCount + 1)
        if w.eventCount - (w.windowLimit : Int) > 0 then
          (w.unpaginate s fuel (w.eventCount - (w.windowLimit : Int)) true).map fun (w, thrown) =>
            (w, thrown.map fun _ => true)
        else some (w, .ok true)) := by
  have hadvance : ends.stop.advance s fuel ((1 : ℕ) : Int) =
      some ({ ends.stop with index := ends.stop.index + 1 }, 1) := by
    have hmin : min ((1 : ℕ) : Int) (ends.stop.maxIndex s - ends.stop.index) = 1 := by omega
    rw [advance_forwards (by omega), hmin, if_pos (by omega)]
  unfold extend getTimelineIndex setTimelineIndex
  rw [hends]
  dsimp only [Option.map_some]
  rw [if_neg (by decide), hadvance, Option.bind_some]
  rfl

/-- What has been counted makes no difference to what `unpaginate` takes off. -/
theorem unpaginateLoop_counting {fuel : ℕ} {startOfTimeline : Bool} (c : Int) (rounds : ℕ)
    {delta : Int} {w w' : TimelineWindow}
    (h : w.unpaginateLoop s fuel startOfTimeline rounds delta = some (w', .ok ())) :
    (w.counting (w.eventCount + c)).unpaginateLoop s fuel startOfTimeline rounds delta =
      some (w'.counting (w'.eventCount + c), .ok ()) := by
  induction rounds generalizing delta w with
  | zero =>
    rw [unpaginateLoop.eq_def] at h ⊢
    split at h
    next hdelta =>
      rw [if_pos hdelta]
      obtain ⟨rfl, -⟩ := Prod.mk.inj (Option.some.inj h)
      rfl
    next hdelta =>
      exfalso
      dsimp only at h
      split at h
      · cases (Prod.mk.inj (Option.some.inj h)).2
      · split at h
        · cases h
        · split at h
          · cases (Prod.mk.inj (Option.some.inj h)).2
          · cases h
  | succ rounds ih =>
    rw [unpaginateLoop.eq_def] at h ⊢
    split at h
    next hdelta =>
      rw [if_pos hdelta]
      obtain ⟨rfl, -⟩ := Prod.mk.inj (Option.some.inj h)
      rfl
    next hdelta =>
      rw [if_neg hdelta]
      dsimp only at h ⊢
      have hsame : (w.counting (w.eventCount + c)).getTimelineIndex
          (if startOfTimeline then .backwards else .forwards) =
            w.getTimelineIndex (if startOfTimeline then .backwards else .forwards) := rfl
      rw [hsame]
      split at h
      · cases (Prod.mk.inj (Option.some.inj h)).2
      next tl _ =>
        split at h
        · cases h
        next tl' count hmove =>
          split at h
          · cases (Prod.mk.inj (Option.some.inj h)).2
          next hcount =>
            rw [if_neg hcount]
            have hloop := ih h
            rw [← hloop]
            congr 1
            simp only [counting, setTimelineIndex]
            congr 1
            omega

/-! The limit of a window stays as it is, and is not 0. -/

theorem unpaginateLoop_windowLimit {fuel : ℕ} {startOfTimeline : Bool} (rounds : ℕ) {delta : Int}
    {w w' : TimelineWindow} {thrown : Except String Unit}
    (h : w.unpaginateLoop s fuel startOfTimeline rounds delta = some (w', thrown)) :
    w'.windowLimit = w.windowLimit := by
  rw [unpaginateLoop.eq_def] at h
  split at h
  · rw [← (Prod.mk.inj (Option.some.inj h)).1]
  · dsimp only at h
    split at h
    · rw [← (Prod.mk.inj (Option.some.inj h)).1]
    · split at h
      · cases h
      · split at h
        · rw [← (Prod.mk.inj (Option.some.inj h)).1]
          rfl
        · cases rounds with
          | zero => cases h
          | succ rounds => exact (unpaginateLoop_windowLimit rounds h).trans rfl

theorem unpaginate_windowLimit {fuel : ℕ} {delta : Int} {startOfTimeline : Bool}
    {w w' : TimelineWindow} {thrown : Except String Unit}
    (h : w.unpaginate s fuel delta startOfTimeline = some (w', thrown)) :
    w'.windowLimit = w.windowLimit := by
  unfold unpaginate at h
  split at h
  · rw [← (Prod.mk.inj (Option.some.inj h)).1]
  · exact unpaginateLoop_windowLimit _ h

theorem extend_windowLimit {fuel size : ℕ} {direction : Direction} {w' : TimelineWindow}
    {extended : Except String Bool} (h : w.extend s fuel direction size = some (w', extended)) :
    w'.windowLimit = w.windowLimit := by
  unfold extend at h
  split at h
  · rw [← (Prod.mk.inj (Option.some.inj h)).1]
  · obtain ⟨⟨tl, count⟩, -, h⟩ := Option.bind_eq_some_iff.1 h
    dsimp only at h
    split at h
    · rw [← (Prod.mk.inj (Option.some.inj h)).1]
      rfl
    · split at h
      · obtain ⟨⟨w₁, thrown⟩, hunpaginate, heq⟩ := Option.map_eq_some_iff.1 h
        rw [← (Prod.mk.inj heq).1]
        exact (unpaginate_windowLimit hunpaginate).trans rfl
      · rw [← (Prod.mk.inj (Option.some.inj h)).1]
        rfl

theorem paginate_windowLimit {direction : Direction} {size requestLimit : ℕ} {makeRequest : Bool}
    (h : st.paginate direction size makeRequest requestLimit = some st') :
    st'.window.windowLimit = st.window.windowLimit := by
  unfold WindowState.paginate at h
  split at h
  · rw [← Option.some.inj h]
  · split at h
    · rw [← Option.some.inj h]
    · obtain ⟨⟨w, extended⟩, hextend, rfl⟩ := Option.map_eq_some_iff.1 h
      have hlimit := extend_windowLimit hextend
      cases extended with
      | error _ => exact hlimit
      | ok extended =>
        cases extended with
        | true => exact hlimit
        | false =>
          dsimp only
          split
          · exact hlimit
          · split
            · exact hlimit
            · split
              · exact hlimit
              · exact hlimit

end

section

omit [DecidableEq Event]

theorem initFields_windowLimit (timeline : ℕ) (initialEventId : Option EventId)
    (initialWindowSize : ℕ) :
    (st.initFields getId timeline initialEventId initialWindowSize).window.windowLimit =
      st.window.windowLimit := by
  unfold WindowState.initFields
  split
  · rfl
  next w' hok =>
    unfold initFields at hok
    dsimp only at hok
    split at hok
    · exact nomatch hok
    · obtain rfl := Except.ok.inj hok
      rfl

theorem step_windowLimit {e : WindowStep Event EventId}
    (he : (windowSystem getId set windowLimit).step st e = some st') :
    st'.window.windowLimit = st.window.windowLimit := by
  cases e with
  | load initialEventId initialWindowSize =>
    obtain rfl := Option.some.inj he
    unfold WindowState.load
    split
    · exact initFields_windowLimit ..
    · split
      · exact initFields_windowLimit ..
      · rfl
  | loaded i timeline =>
    simp only [windowSystem] at he
    split at he
    · obtain ⟨request, -, rfl⟩ := Option.map_eq_some_iff.1 he
      exact initFields_windowLimit ..
    · cases he
  | extend direction size =>
    obtain ⟨⟨w, extended⟩, hextend, rfl⟩ := Option.map_eq_some_iff.1 he
    exact extend_windowLimit hextend
  | unpaginate delta startOfTimeline =>
    obtain ⟨⟨w, thrown⟩, hunpaginate, rfl⟩ := Option.map_eq_some_iff.1 he
    exact unpaginate_windowLimit hunpaginate
  | paginate direction size makeRequest requestLimit => exact paginate_windowLimit he
  | paginated i more =>
    obtain ⟨request, -, hpaginated⟩ := Option.bind_eq_some_iff.1 he
    unfold WindowState.paginated at hpaginated
    dsimp only at hpaginated
    split at hpaginated
    · obtain rfl := Option.some.inj hpaginated
      split
      · split <;> rfl
      · rfl
    · rw [paginate_windowLimit hpaginated]
      split
      · split <;> rfl
      · rfl
  | addTimeline =>
    simp only [windowSystem] at he
    split at he
    · cases he
    · rw [← Option.some.inj he]
  | addEvent event t atStart =>
    simp only [windowSystem] at he
    split at he
    · rw [← Option.some.inj he]
    · cases he
  | join t existing direction =>
    simp only [windowSystem] at he
    split at he
    · split at he
      · cases he
      · rw [← Option.some.inj he]
    · cases he

theorem windowLimit_pos (h : (windowSystem getId set windowLimit).Reachable st) :
    0 < st.window.windowLimit := by
  refine h.invariant (P := fun st => 0 < st.window.windowLimit) ?_ fun s e s' hpos he => ?_
  · change 0 < if windowLimit = 0 then 1000 else windowLimit
    split <;> omega
  · rw [step_windowLimit he]
    exact hpos

end

omit [DecidableEq EventId] [DecidableEq Event] in
/-- A window that counts one event too many still does when it has been cut to its limit. -/
theorem trim_counting (hc : TimelineChain s chain) {fuel : ℕ} (hfuel : chain.length ≤ fuel)
    (startOfTimeline : Bool) (h : Loaded s chain w ends i p j q) (hlimit : 0 < w.windowLimit) :
    ∃ w', (let w := w.counting (w.eventCount + 1)
        if w.eventCount - (w.windowLimit : Int) > 0 then
          (w.unpaginate s fuel (w.eventCount - (w.windowLimit : Int)) startOfTimeline).map
            fun (w, thrown) => (w, thrown.map fun _ => true)
        else some (w, .ok true)) = some (w'.counting (w'.eventCount + 1), .ok true) ∧
      ∃ ends' i' p' j' q', Loaded s chain w' ends' i' p' j' q' := by
  have hcount := h.count
  have hle := h.le
  dsimp only [counting]
  split
  next hexcess =>
    obtain ⟨n, hn⟩ : ∃ n : ℕ, w.eventCount + 1 - (w.windowLimit : Int) = n :=
      ⟨(w.eventCount + 1 - (w.windowLimit : Int)).toNat, by omega⟩
    obtain ⟨w', hloop, ends', i', p', j', q', hloaded⟩ : ∃ w',
        w.unpaginateLoop s fuel startOfTimeline n n = some (w', .ok ()) ∧
          ∃ ends' i' p' j' q', Loaded s chain w' ends' i' p' j' q' := by
      cases startOfTimeline with
      | true =>
        obtain ⟨w', hloop, -, ends', i', h'⟩ :=
          unpaginateLoop_start hc hfuel n le_rfl h (by omega)
        exact ⟨w', hloop, ends', i', _, j, q, h'⟩
      | false =>
        obtain ⟨w', hloop, -, ends', j', h'⟩ :=
          unpaginateLoop_stop hc hfuel n le_rfl h (by omega)
        exact ⟨w', hloop, ends', i, p, j', _, h'⟩
    refine ⟨w', ?_, ends', i', p', j', q', hloaded⟩
    have hcounting := unpaginateLoop_counting 1 n hloop
    unfold counting at hcounting
    rw [unpaginate, if_neg (by dsimp only; omega), hn, Int.toNat_natCast, hcounting]
    rfl
  next => exact ⟨w, rfl, ends, i, p, j, q, h⟩

/-- An end gets back into its timeline, and the window has counted an event that is not there. -/
theorem not_showsWithout_of_extend (hlimit : 0 < st'.window.windowLimit)
    (hc : TimelineChain st'.set chain) (hall : ∀ t ∈ chain, t < st'.set.created)
    (direction : Direction) (startOfTimeline : Bool) {w : TimelineWindow}
    (h : Loaded st'.set chain w ends i p j q) (hsame : w.windowLimit = st'.window.windowLimit)
    (hextend : st'.window.extend st'.set st'.set.created direction 1 =
      (let w := w.counting (w.eventCount + 1)
        if w.eventCount - (w.windowLimit : Int) > 0 then
          (w.unpaginate st'.set st'.set.created (w.eventCount - (w.windowLimit : Int))
            startOfTimeline).map fun (w, thrown) => (w, thrown.map fun _ => true)
        else some (w, .ok true))) :
    ¬ ShowsWithout getId event st st' := by
  intro hshows
  obtain ⟨w', htrim, ends', i', p', j', q', hloaded⟩ :=
    trim_counting hc (hc.length_le hall) startOfTimeline h (hsame ▸ hlimit)
  obtain ⟨st'', hrun, hshows''⟩ := hshows.resizes [.extend direction 1] (by
    intro e he
    obtain rfl := List.mem_singleton.1 he
    trivial)
  rw [System.runFrom] at hrun
  simp only [windowSystem, hextend.trans htrim, Option.map_some, Option.bind_some] at hrun
  obtain rfl := Option.some.inj hrun
  have hcount : w'.eventCount + 1 ≠ w'.eventCount := by omega
  have hnot : ¬ WindowShows { st' with window := w'.counting (w'.eventCount + 1) } :=
    Loaded.not_windowShows hc hloaded rfl hcount
  exact hnot hshows''

/-- **Between two timelines, at the start.** The event is before the start of the window, in its
timeline, and the base index has not moved. -/
theorem harm_start (hR : Removed st.set st'.set t r) (hw : st'.window = st.window)
    (hc : TimelineChain st.set chain) (hall : ∀ t ∈ chain, t < st'.set.created)
    (hlimit : 0 < st'.window.windowLimit) (hm : chain[i]? = some t)
    (h : Loaded st.set chain st.window ends i p j q) (hij : i < j)
    (hp : before st.set chain i + r < p) (hr : (st.set.timeline t).baseIndex ≤ r) :
    ¬ ShowsWithout getId event st st' := by
  have hl := hc.nodup
  have hc' : TimelineChain st'.set chain := hc.sameLinks hR.links
  have hlow := h.start.low
  have hhigh := h.start.high
  have hqlow := h.stop.low
  have hle := before_mono st.set chain (show i + 1 ≤ j by omega)
  have hcount := h.count
  have hti : t = ends.start.timeline := Option.some.inj (hm.symm.trans h.start.timeline)
  have hmove : movedBack i r (st.set.timeline t).baseIndex i = 0 := if_neg (by omega)
  have hmove' : movedBack i r (st.set.timeline t).baseIndex j = 1 := if_pos (.inl hij)
  have hstop : At st'.set chain ends.stop j (q - 1) :=
    h.stop.removed hR hl hm (by omega) (fun heq => by omega) fun heq => by omega
  by_cases hroom : p < before st.set chain (i + 1)
  · -- the window has lost an event
    have hstart : At st'.set chain ends.start i p :=
      h.start.removed hR hl hm (by omega) (fun _ => hlow) fun _ => hroom
    have hloaded : Loaded st'.set chain (st.window.counting ((q - 1 : ℕ) - (p : Int))) ends
        i p j (q - 1) := ⟨h.loaded, hstart, hstop, h.order, by omega, rfl⟩
    intro hshows
    refine Loaded.not_windowShows hc' hloaded (by rw [hw]; rfl) ?_ (hshows.same hw hc h).1
    rw [hw]
    change st.window.eventCount ≠ (q - 1 : ℕ) - (p : Int)
    omega
  · -- its start has got out of the timeline
    have hbefore := hR.takenOut.before hl hm i
    have hbefore' := hR.takenOut.before hl hm (i + 1)
    rw [if_neg (lt_irrefl i)] at hbefore
    rw [if_pos (Nat.lt_succ_self i)] at hbefore'
    have hbase := hR.baseIndex ends.start.timeline
    rw [if_neg fun h => by omega] at hbase
    have hindex := h.start.index
    have hstart : At st'.set chain { ends.start with index := ends.start.index - 1 } i (p - 1) :=
      ⟨h.start.timeline, by dsimp only; omega, by omega, by omega⟩
    have hloaded : Loaded st'.set chain (st.window.startBack ends)
        { ends with start := { ends.start with index := ends.start.index - 1 } }
        i (p - 1) j (q - 1) :=
      ⟨rfl, hstart, hstop, h.order, by omega, by
        change st.window.eventCount = _
        omega⟩
    refine not_showsWithout_of_extend hlimit hc' hall .backwards false hloaded
      (by rw [hw]; rfl) ?_
    have hminIndex : ends.start.minIndex st'.set < ends.start.index := by
      unfold TimelineIndex.minIndex
      omega
    rw [hw]
    exact extend_backwards_one h.loaded hminIndex _

/-- **Between two timelines, at the end.** The event is in the timeline of the end of the window, and
the base index has moved. -/
theorem harm_stop (hR : Removed st.set st'.set t r) (hw : st'.window = st.window)
    (hc : TimelineChain st.set chain) (hall : ∀ t ∈ chain, t < st'.set.created)
    (hlimit : 0 < st'.window.windowLimit) (hm : chain[j]? = some t)
    (h : Loaded st.set chain st.window ends i p j q) (hij : i < j)
    (hr : r < (st.set.timeline t).baseIndex) :
    ¬ ShowsWithout getId event st st' := by
  have hl := hc.nodup
  have hc' : TimelineChain st'.set chain := hc.sameLinks hR.links
  have hlow := h.start.low
  have hhigh := h.start.high
  have hqlow := h.stop.low
  have hqhigh := h.stop.high
  have hle := before_mono st.set chain (show i + 1 ≤ j by omega)
  have hroom := hR.place hm
  have hcount := h.count
  have htj : t = ends.stop.timeline := Option.some.inj (hm.symm.trans h.stop.timeline)
  have hmove : movedBack j r (st.set.timeline t).baseIndex i = 0 := if_neg (by omega)
  have hmove' : movedBack j r (st.set.timeline t).baseIndex j = 1 := if_pos (.inr ⟨rfl, hr⟩)
  have hstart : At st'.set chain ends.start i p :=
    h.start.removed hR hl hm (by omega) (fun heq => by omega) fun heq => by omega
  by_cases hinside : before st.set chain j < q
  · -- the window has lost an event
    have hstop : At st'.set chain ends.stop j (q - 1) :=
      h.stop.removed hR hl hm (by omega) (fun _ => by omega) fun _ => by omega
    have hloaded : Loaded st'.set chain (st.window.counting ((q - 1 : ℕ) - (p : Int))) ends
        i p j (q - 1) := ⟨h.loaded, hstart, hstop, h.order, by omega, rfl⟩
    intro hshows
    refine Loaded.not_windowShows hc' hloaded (by rw [hw]; rfl) ?_ (hshows.same hw hc h).1
    rw [hw]
    change st.window.eventCount ≠ (q - 1 : ℕ) - (p : Int)
    omega
  · -- its end has got out of the timeline
    have hbefore := hR.takenOut.before hl hm j
    have hbefore' := hR.takenOut.before hl hm (j + 1)
    rw [if_neg (lt_irrefl j)] at hbefore
    rw [if_pos (Nat.lt_succ_self j)] at hbefore'
    have hbase := hR.baseIndex ends.stop.timeline
    rw [if_pos ⟨htj.symm, hr⟩] at hbase
    have hindex := h.stop.index
    have hlen : before st'.set chain (j + 1) = before st'.set chain j +
        (st'.set.timeline t).events.length := before_succ hm
    have hstop : At st'.set chain { ends.stop with index := ends.stop.index + 1 } j q :=
      ⟨h.stop.timeline, by dsimp only; omega, by omega, by omega⟩
    have hloaded : Loaded st'.set chain (st.window.stopForth ends)
        { ends with stop := { ends.stop with index := ends.stop.index + 1 } } i p j q :=
      ⟨rfl, hstart, hstop, h.order, h.le, hcount⟩
    refine not_showsWithout_of_extend hlimit hc' hall .forwards true hloaded
      (by rw [hw]; rfl) ?_
    have hmaxIndex : ends.stop.index < ends.stop.maxIndex st'.set := by
      unfold TimelineIndex.maxIndex
      rw [← htj] at hbase hindex ⊢
      omega
    rw [hw]
    exact extend_forwards_one h.loaded hmaxIndex _

/-- The first event of a window in one timeline. -/
theorem ShowsWithout.head_eq (h : ShowsWithout getId event st st') (hw : st'.window = st.window)
    (hc : TimelineChain st.set chain) (hl : Loaded st.set chain st.window ends m p m q)
    (hpq : p < q) :
    eventAt (timelineEvents st'.set ends.start.timeline)
        (ends.start.index + (st'.set.timeline ends.start.timeline).baseIndex) =
      (timelineEvents st.set ends.start.timeline)[p - before st.set chain m]? := by
  have hlow := hl.start.low
  have hqhigh := hl.stop.high
  have hlen : before st.set chain (m + 1) = before st.set chain m +
      (timelineEvents st.set ends.start.timeline).length := before_succ hl.start.timeline
  have hone : ends.start.timeline = ends.stop.timeline :=
    Option.some.inj (hl.start.timeline.symm.trans hl.stop.timeline)
  have hstart := hl.start.index
  have hstop := hl.stop.index
  rw [← hone] at hstop
  obtain ⟨-, -, n, hsame⟩ := h.same hw hc hl
  have hends : st'.window.ends = some ends := hw ▸ hl.loaded
  have heq := congrArg List.head? (Except.ok.inj (Option.some.inj
    ((getEvents_oneTimeline hends hone n).symm.trans (hsame n le_rfl))))
  have hcount : (ends.stop.index - ends.start.index).toNat = (q - p - 1) + 1 := by omega
  rw [hcount, List.range_succ_eq_map, List.map_cons, List.head?_cons, List.head?_map,
    List.head?_eq_getElem?, getElem?_slice, Nat.add_zero, if_pos hpq,
    show p = before st.set chain m + (p - before st.set chain m) by omega] at heq
  have hplace : (chainEvents st.set chain)[before st.set chain m + (p - before st.set chain m)]? =
      (timelineEvents st.set ends.start.timeline)[p - before st.set chain m]? :=
    getElem?_segment hl.start.timeline (by omega)
  rw [hplace, List.getElem?_eq_getElem (by omega), Option.map_some] at heq
  rw [List.getElem?_eq_getElem (by omega)]
  exact (congrArg _ (Int.add_zero _).symm).trans (Option.some.inj heq)

/-- **In one timeline, with events in the window.** The event is outside of the window, and the base
index moves if it should not, and does not if it should. -/
theorem harm_oneTimeline (hR : Removed st.set st'.set t r) (hw : st'.window = st.window)
    (hc : TimelineChain st.set chain) (honce : EventsOnce st.set) (hm : chain[m]? = some t)
    (h : Loaded st.set chain st.window ends m p m q) (hpq : p < q)
    (hwrong : before st.set chain m + r < p ∧ (st.set.timeline t).baseIndex ≤ r ∨
      q ≤ before st.set chain m + r ∧ r < (st.set.timeline t).baseIndex) :
    ¬ ShowsWithout getId event st st' := by
  intro hshows
  have hhead := hshows.head_eq hw hc h hpq
  have hlow := h.start.low
  have hqhigh := h.stop.high
  have hlen : before st.set chain (m + 1) = before st.set chain m +
      (timelineEvents st.set ends.start.timeline).length := before_succ h.start.timeline
  have ht : t = ends.start.timeline := Option.some.inj (hm.symm.trans h.start.timeline)
  have hindex := h.start.index
  have hbase := hR.baseIndex ends.start.timeline
  have hevents := hR.takenOut.events
  rw [ht] at hevents
  -- the window would show another event of the timeline as its first one
  have hno : ∀ k, k ≠ p - before st.set chain m →
      (timelineEvents st.set ends.start.timeline)[k]? ≠
        (timelineEvents st.set ends.start.timeline)[p - before st.set chain m]? := by
    intro k hk heq
    obtain ⟨hlt, -⟩ := List.getElem?_eq_some_iff.1
      (heq.trans (List.getElem?_eq_getElem (by omega)))
    rw [List.getElem?_eq_getElem hlt, List.getElem?_eq_getElem (by omega)] at heq
    exact hk ((List.Nodup.getElem_inj_iff (honce.nodup _)).1 (Option.some.inj heq))
  rcases hwrong with ⟨hp, hr⟩ | ⟨hq, hr⟩
  · rw [if_neg fun h => by omega] at hbase
    rw [eventAt, if_neg (by omega), hevents,
      List.getElem?_eraseIdx_of_ge (by omega)] at hhead
    exact hno _ (by omega) hhead
  · rw [if_pos ⟨ht.symm, hr⟩] at hbase
    rw [eventAt] at hhead
    split at hhead
    · rw [List.getElem?_eq_getElem (by omega)] at hhead
      cases hhead
    · rw [hevents, List.getElem?_eraseIdx_of_lt (by omega)] at hhead
      exact hno _ (by omega) hhead

/-- A window that shows an event which is not there. -/
theorem not_showsWithout_of_undefined (direction : Direction) {w : TimelineWindow}
    (hextend : st'.window.extend st'.set st'.set.created direction 1 = some (w, .ok true))
    (hundefined : ∀ fuel, w.getEvents st'.set fuel = some (.ok [none])) :
    ¬ ShowsWithout getId event st st' := by
  intro hshows
  obtain ⟨st'', hrun, hshows''⟩ := hshows.resizes [.extend direction 1] (by
    intro e he
    obtain rfl := List.mem_singleton.1 he
    trivial)
  rw [System.runFrom] at hrun
  simp only [windowSystem, hextend, Option.map_some, Option.bind_some] at hrun
  obtain rfl := Option.some.inj hrun
  obtain ⟨_, _, shown, _, n, -, -, hevents, -⟩ := hshows''
  have heq := Except.ok.inj (Option.some.inj ((hundefined n).symm.trans (hevents n le_rfl)))
  have hmem : none ∈ shown.map some := heq ▸ List.mem_singleton_self _
  obtain ⟨_, -, hnone⟩ := List.mem_map.1 hmem
  cases hnone

omit [DecidableEq EventId] [DecidableEq Event] in
/-- A window with one event in one timeline, which is not an event of the timeline. -/
theorem getEvents_undefined (hends : w.ends = some ends)
    (hone : ends.start.timeline = ends.stop.timeline)
    (hcount : ends.stop.index - ends.start.index = 1)
    (hout : ends.start.index + (s.timeline ends.start.timeline).baseIndex < 0 ∨
      (timelineEvents s ends.start.timeline).length ≤
        ends.start.index + (s.timeline ends.start.timeline).baseIndex) (fuel : ℕ) :
    w.getEvents s fuel = some (.ok [none]) := by
  have hnone : eventAt (timelineEvents s ends.start.timeline)
      (ends.start.index + (s.timeline ends.start.timeline).baseIndex + (0 : ℕ)) = none := by
    rw [eventAt]
    split
    · rfl
    · exact List.getElem?_eq_none (by omega)
  rw [getEvents_oneTimeline hends hone, hcount]
  exact congrArg (fun ev => some (Except.ok [ev])) hnone

/-- **In one timeline, without events in the window.** It gets out of the timeline. -/
theorem harm_empty (hR : Removed st.set st'.set t r) (hw : st'.window = st.window)
    (hlimit : 0 < st'.window.windowLimit) (hm : chain[m]? = some t)
    (h : Loaded st.set chain st.window ends m p m p)
    (hwrong : before st.set chain m + r < p ∧ (st.set.timeline t).baseIndex ≤ r ∧
        before st.set chain (m + 1) ≤ p ∨
      r < (st.set.timeline t).baseIndex ∧ p ≤ before st.set chain m) :
    ¬ ShowsWithout getId event st st' := by
  have hlow := h.start.low
  have hhigh := h.start.high
  have hlen : before st.set chain (m + 1) = before st.set chain m +
      (timelineEvents st.set t).length := before_succ hm
  have hlen' : (timelineEvents st'.set t).length + 1 = (timelineEvents st.set t).length := by
    have := hR.takenOut.lt
    rw [hR.takenOut.events, List.length_eraseIdx_of_lt this]
    omega
  have hstart := h.start.index
  have hstop := h.stop.index
  have ht : t = ends.start.timeline := Option.some.inj (hm.symm.trans h.start.timeline)
  have ht' : t = ends.stop.timeline := Option.some.inj (hm.symm.trans h.stop.timeline)
  have hone : ends.start.timeline = ends.stop.timeline := ht.symm.trans ht'
  have hcount := h.count
  have hbase := hR.baseIndex t
  rw [hw] at hlimit
  rw [← ht] at hstart
  rw [← ht'] at hstop
  have htrim : ∀ (w : TimelineWindow) (startOfTimeline : Bool),
      w.windowLimit = st.window.windowLimit →
      (let w := w.counting (st.window.eventCount + 1)
        if w.eventCount - (w.windowLimit : Int) > 0 then
          (w.unpaginate st'.set st'.set.created (w.eventCount - (w.windowLimit : Int))
            startOfTimeline).map fun (w, thrown) => (w, thrown.map fun _ => true)
        else some (w, .ok true)) =
          some (w.counting (st.window.eventCount + 1), (.ok true : Except String Bool)) := by
    intro w startOfTimeline hsame
    refine if_neg ?_
    change ¬ st.window.eventCount + 1 - (w.windowLimit : Int) > 0
    rw [hsame]
    omega
  rcases hwrong with ⟨hp, hr, hhigh'⟩ | ⟨hr, hlow'⟩
  · rw [if_neg fun h => by omega] at hbase
    have hminIndex : ends.start.minIndex st'.set < ends.start.index := by
      unfold TimelineIndex.minIndex
      rw [← ht]
      omega
    refine not_showsWithout_of_undefined .backwards
      (hw ▸ (extend_backwards_one h.loaded hminIndex _).trans (htrim _ _ rfl)) fun fuel => ?_
    have hends : ((st'.window.startBack ends).counting (st'.window.eventCount + 1)).ends =
        some { ends with start := { ends.start with index := ends.start.index - 1 } } := rfl
    refine getEvents_undefined hends hone (by dsimp only; omega) (.inr ?_) fuel
    dsimp only
    rw [← ht]
    omega
  · rw [if_pos ⟨rfl, hr⟩] at hbase
    have hmaxIndex : ends.stop.index < ends.stop.maxIndex st'.set := by
      unfold TimelineIndex.maxIndex
      rw [← ht']
      omega
    refine not_showsWithout_of_undefined .forwards
      (hw ▸ (extend_forwards_one h.loaded hmaxIndex _).trans (htrim _ _ rfl)) fun fuel => ?_
    have hends : ((st'.window.stopForth ends).counting (st'.window.eventCount + 1)).ends =
        some { ends with stop := { ends.stop with index := ends.stop.index + 1 } } := rfl
    refine getEvents_undefined hends hone (by dsimp only; omega) (.inl ?_) fuel
    dsimp only
    rw [← ht]
    omega

/-- **A removal that does harm** to a window in a chain. -/
theorem not_showsWithout_of_inside (hR : Removed st.set st'.set t r)
    (hw : st'.window = st.window) (hevent : (timelineEvents st.set t)[r]? = some event)
    (hc : TimelineChain st.set chain) (hall : ∀ t ∈ chain, t < st'.set.created)
    (hlimit : 0 < st'.window.windowLimit) (honce : EventsOnce st.set)
    (h : Loaded st.set chain st.window ends i p j q) (hin : ¬ RemovesOutside st.set ends t r) :
    ¬ ShowsWithout getId event st st' := by
  intro hshows
  obtain ⟨hreach, hreach'⟩ : ReflTransGen (Linked (st.set.link .forwards)) ends.start.timeline t ∧
      ReflTransGen (Linked (st.set.link .forwards)) t ends.stop.timeline := by
    by_contra hnot
    exact hin (.inl hnot)
  obtain ⟨n, hm⟩ := (hc.reflTransGen_iff h.start.timeline).1 hreach
  rw [removesOutside_iff hc hm h] at hin
  have hlow := h.start.low
  have hhigh := h.start.high
  have hqlow := h.stop.low
  have hqhigh := h.stop.high
  have hpq := h.le
  have hmj : i + n ≤ j := (hc.reflTransGen_iff_le hm h.stop.timeline).1 hreach'
  have hroom := hR.place hm
  have hplace : (chainEvents st.set chain)[before st.set chain (i + n) + r]? = some event :=
    (getElem?_segment hm hR.takenOut.lt).trans hevent
  -- the event has not been in the window
  have hout : before st.set chain (i + n) + r < p ∨ q ≤ before st.set chain (i + n) + r := by
    by_contra hnot
    exact (hshows.same hw hc h).2.1
      ((mem_slice_iff (honce.nodup_chain hc.nodup) hplace).2 (by omega))
  rcases hout with hp | hq
  · obtain rfl : n = 0 := by
      by_contra hn
      have := before_mono st.set chain (show i + 1 ≤ i + n by omega)
      omega
    rw [Nat.add_zero] at *
    have hr : (st.set.timeline t).baseIndex ≤ r := by
      by_contra hr
      exact hin (.inr (.inr (.inl ⟨rfl, hp, by omega⟩)))
    rcases Nat.lt_or_eq_of_le hmj with hij | rfl
    · exact harm_start hR hw hc hall hlimit hm h hij hp hr hshows
    · rcases Nat.lt_or_eq_of_le hpq with hlt | rfl
      · exact harm_oneTimeline hR hw hc honce hm h hlt (.inl ⟨hp, hr⟩) hshows
      · refine harm_empty hR hw hlimit hm h (.inl ⟨hp, hr, ?_⟩) hshows
        by_contra hinside
        exact hin (.inr (.inr (.inr (.inr ⟨rfl, rfl, rfl, .inl ⟨hr, hp, by omega⟩⟩))))
  · obtain hmj' : i + n = j := by
      by_contra hn
      have := before_mono st.set chain (show i + n + 1 ≤ j by omega)
      omega
    have hr : r < (st.set.timeline t).baseIndex := by
      by_contra hr
      exact hin (.inr (.inr (.inr (.inl ⟨hmj', hq, by omega⟩))))
    subst hmj'
    rcases Nat.eq_zero_or_pos n with rfl | hn
    · rcases Nat.lt_or_eq_of_le hpq with hlt | rfl
      · exact harm_oneTimeline hR hw hc honce hm h hlt (.inr ⟨hq, hr⟩) hshows
      · refine harm_empty hR hw hlimit hm h (.inr ⟨hr, ?_⟩) hshows
        by_contra hinside
        exact hin (.inr (.inr (.inr (.inr ⟨rfl, rfl, rfl, .inr ⟨hq, hr, by omega⟩⟩))))
    · exact harm_stop hR hw hc hall hlimit hm h (by omega) hr hshows

/-- **Removals, exactly.** Let a window be in a state as in [`windowShows_iff`], and let an event be
taken out of a timeline. The window shows what it has shown, without the event, and keeps its count
however it is resized, if and only if the removal is outside of it. -/
theorem removeEvent_showsWithout_iff (hs : Chained set) (hb : Bounded set)
    (hst : (windowSystem getId set windowLimit).ReachableUnder GrowsOutside st)
    (honce : EventsOnce st.set) (eventId : EventId)
    (hremove : st.removeEvent getId t eventId = some (event, st')) :
    ShowsWithout getId event st st' ↔ ∀ ends, st.window.ends = some ends →
      ∀ r, EventTimeline.lastIndexOf getId (timelineEvents st.set t) eventId = some r →
        RemovesOutside st.set ends t r := by
  have hI : WindowInv st := hst.invariant (windowInv_new hs hb windowLimit)
    fun s e s' hI hout he => windowInv_step hI hout he
  have hlimit : 0 < st.window.windowLimit := by
    obtain ⟨tr, htr, -⟩ := hst
    exact windowLimit_pos ⟨tr, htr⟩
  obtain ⟨hw, hcreated, hb', r, hr, hevent, hR⟩ := removeEvent_spec hremove
  rcases hI.placed with ⟨hends, -⟩ | ⟨chain, hc, hall, ends, i, p, j, q, hloaded⟩
  · refine iff_of_true (showsWithout_of_unloaded hI hR (hb' hI.bounded) hw hends) ?_
    intro ends hsome
    exact nomatch hends.symm.trans hsome
  · have hall' : ∀ t ∈ chain, t < st'.set.created := hcreated.symm ▸ hall
    constructor
    · intro hshows ends' hends' r' hr'
      obtain rfl := Option.some.inj (hends'.symm.trans hloaded.loaded)
      obtain rfl := Option.some.inj (hr'.symm.trans hr)
      by_contra hin
      exact not_showsWithout_of_inside hR hw hevent hc hall' (hw.symm ▸ hlimit) honce hloaded
        hin hshows
    · exact fun hout => showsWithout_of_outside hI hR (hb' hI.bounded) hw hevent hc hall' honce
        hloaded (hout ends hloaded.loaded r hr)

end Steps

/-! Windows on the second of two timelines, the live one, whose last event is taken out. -/

section Examples

theorem eventsOnce_linkedPair : EventsOnce linkedPair := by
  refine ⟨fun t => ?_, fun t u event ht hu => ?_⟩
  · match t with
    | 0 => exact (by decide : [1, 2].Nodup)
    | 1 => exact (by decide : [3, 4].Nodup)
    | t + 2 => exact List.nodup_nil
  · have hmem : ∀ {t}, event ∈ timelineEvents linkedPair t →
        t = 0 ∧ (event = 1 ∨ event = 2) ∨ t = 1 ∧ (event = 3 ∨ event = 4) := by
      intro t ht
      match t with
      | 0 => exact .inl ⟨rfl, by simpa [timelineEvents, linkedPair] using ht⟩
      | 1 => exact .inr ⟨rfl, by simpa [timelineEvents, linkedPair] using ht⟩
      | t + 2 => exact absurd ht List.not_mem_nil
    have := hmem ht
    have := hmem hu
    omega

/-- The window ends before the last event. -/
def loadOne : List (WindowStep ℕ ℕ) := [.load (some 3) 1]

theorem loadOne_runs : (exampleWindows.run loadOne).isSome := by decide +kernel

/-- The window ends behind it. -/
def loadAll : List (WindowStep ℕ ℕ) := [.load none 20]

theorem loadAll_runs : (exampleWindows.run loadAll).isSome := by decide +kernel

/-- The state without the last event. -/
def removeLast (st : WindowState ℕ ℕ ℕ) : WindowState ℕ ℕ ℕ :=
  { st with set := st.set.setTimeline 1 ⟨[3], 0, some 0, none, none, none⟩ }

theorem removeEvent_showsWithout_loadOne :
    ShowsWithout id 4 ((exampleWindows.run loadOne).get loadOne_runs)
      (removeLast ((exampleWindows.run loadOne).get loadOne_runs)) := by
  refine (removeEvent_showsWithout_iff chained_linkedPair bounded_linkedPair
    ⟨_, System.trace_get loadOne_runs, ?_⟩ eventsOnce_linkedPair (t := 1) 4 rfl).2 ?_
  · exact fun q hq => by
      obtain rfl := List.mem_singleton.1 hq
      trivial
  · intro ends hends r hr
    obtain rfl := Option.some.inj hends
    obtain rfl := Option.some.inj hr
    exact .inr (.inr (.inl ⟨rfl, by decide, by decide⟩))

/-- Not for all windows: a window that ends behind the event shows `undefined` in its place. -/
theorem removeEvent_showsWithout_fails : Chained linkedPair ∧ Bounded linkedPair ∧
    ¬ ∀ st, exampleWindows.ReachableUnder GrowsOutside st → EventsOnce st.set →
      ∀ t eventId event st', st.removeEvent id t eventId = some (event, st') →
        ShowsWithout id event st st' := by
  refine ⟨chained_linkedPair, bounded_linkedPair, fun h => ?_⟩
  obtain ⟨shown, n, hshown⟩ := (h ((exampleWindows.run loadAll).get loadAll_runs)
    ⟨_, System.trace_get loadAll_runs, fun q hq => by
      obtain rfl := List.mem_singleton.1 hq
      trivial⟩ eventsOnce_linkedPair 1 4 4
    (removeLast ((exampleWindows.run loadAll).get loadAll_runs)) rfl).shows
  have hevents : some (Except.ok [some 3, none]) =
      some (Except.ok ((shown.filter (· ≠ 4)).map some)) :=
    (hshown (n + 1) (Nat.le_succ n)).2
  have hmem : none ∈ (shown.filter (· ≠ 4)).map some :=
    Except.ok.inj (Option.some.inj hevents) ▸ by decide
  obtain ⟨_, -, hnone⟩ := List.mem_map.1 hmem
  exact nomatch hnone

end Examples

end MatrixSdk.Models
