/-
`EventTimelineSet.addEventsToTimeline` against a server order of the room's events.

The order is a list `L` without duplicate ids. A timeline set fits the order
([`Segmented`]) when each timeline is a contiguous segment of it, no event is in two
timelines, links join adjacent segments, and the live timeline comes last.

The batch is a run of the order, nearest event first. The induction is on the
batch, and what carries it is that the event handled last is in the timeline the
loop works on: the next event is then in that timeline or right beyond its end,
so if another timeline has it, that timeline begins with it.

An empty timeline has no end to start from. Then nothing says where the batch
lies relative to the live timeline, and [`addEventsToTimeline_iff`] says exactly when
that goes wrong.
-/
import MatrixSdk.Lib.Segments
import MatrixSdk.Models.EventTimelineSet

set_option autoImplicit false

namespace MatrixSdk.Models

open MatrixSdk.Lib

/-! ## Looking in a direction -/

namespace Direction

variable {α : Type} {l l' L : List α} {x : α}

/-- A list as it is met when one goes in the direction. -/
def view : Direction → List α → List α
  | forwards, l => l
  | backwards, l => l.reverse

variable (d : Direction)

@[simp] theorem mem_view : x ∈ d.view l ↔ x ∈ l := by
  cases d <;> simp [view]

@[simp] theorem view_eq_nil : d.view l = [] ↔ l = [] := by
  cases d <;> simp [view]

theorem view_infix : d.view l <:+: d.view L ↔ l <:+: L := by
  cases d
  · exact List.reverse_infix
  · exact Iff.rfl

theorem nodup_view (h : L.Nodup) : (d.view L).Nodup := by
  cases d
  · exact List.nodup_reverse.2 h
  · exact h

theorem view_addEvent {Token : Type} (t : EventTimeline α Token) :
    d.view (t.addEvent x (d = backwards)).events = d.view t.events ++ [x] := by
  cases d <;> simp [view, EventTimeline.addEvent]

/-- Adjacency in the direction, as seen from either end. -/
theorem view_append_inverse : d.inverse.view l ++ d.inverse.view l' <:+: d.inverse.view L ↔
    d.view l' ++ d.view l <:+: d.view L := by
  cases d
  · simp only [inverse, view]
    rw [← List.reverse_append, List.reverse_infix]
  · simp only [inverse, view]
    rw [← List.reverse_append, List.reverse_infix]

end Direction

/-! ## Timeline sets that fit an order -/

section Segmented

variable {Event EventId Token : Type} (getId : Event → EventId) (L : List Event)

/-- **The timelines fit the order** `L`. -/
structure Segmented (s : EventTimelineSet Event EventId Token) : Prop where
  live : s.liveTimeline ∈ s.timelines
  segment : ∀ t ∈ s.timelines, (s.timeline t).events <:+: L
  disjoint : ∀ t ∈ s.timelines, ∀ t' ∈ s.timelines, ∀ e,
    e ∈ (s.timeline t).events → e ∈ (s.timeline t').events → t = t'
  index : ∀ id t, s.eventIdToTimeline.get id = some t ↔
    t ∈ s.timelines ∧ ∃ e ∈ (s.timeline t).events, getId e = id
  linked : ∀ t ∈ s.timelines, ∀ d t', (s.timeline t).getNeighbouringTimeline d = some t' →
    t' ∈ s.timelines ∧ (s.timeline t').getNeighbouringTimeline d.inverse = some t
  adjacent : ∀ t ∈ s.timelines, ∀ t', (s.timeline t).nextTimeline = some t' →
    (s.timeline t).events ≠ [] ∧ (s.timeline t').events ≠ [] ∧
      (s.timeline t).events ++ (s.timeline t').events <:+: L
  liveLast : ∀ t ∈ s.timelines, t ≠ s.liveTimeline → ∀ e ∈ (s.timeline t).events,
    ∀ f ∈ (s.timeline s.liveTimeline).events, Before L e f

/-- Timelines stay, and events stay where they are. -/
structure Grows (s s' : EventTimelineSet Event EventId Token) : Prop where
  timelines : s'.timelines = s.timelines
  liveTimeline : s'.liveTimeline = s.liveTimeline
  events : ∀ t, (s.timeline t).events <:+: (s'.timeline t).events

variable {getId L} {s s' s'' : EventTimelineSet Event EventId Token}

theorem Grows.refl (s : EventTimelineSet Event EventId Token) : Grows s s :=
  ⟨rfl, rfl, fun _ => List.infix_refl _⟩

theorem Grows.trans (h : Grows s s') (h' : Grows s' s'') : Grows s s'' :=
  ⟨h'.timelines.trans h.timelines, h'.liveTimeline.trans h.liveTimeline,
    fun t => (h.events t).trans (h'.events t)⟩

namespace Segmented

variable {t : ℕ} {e : Event}

/-- Links, and the two ends of adjacent segments, in either direction. -/
theorem adjacent_toward (hs : Segmented getId L s) (d : Direction) {t' : ℕ} (ht : t ∈ s.timelines)
    (h : (s.timeline t).getNeighbouringTimeline d = some t') :
    (s.timeline t).events ≠ [] ∧ (s.timeline t').events ≠ [] ∧
      d.view (s.timeline t).events ++ d.view (s.timeline t').events <:+: d.view L := by
  cases d with
  | forwards => exact hs.adjacent t ht t' h
  | backwards =>
    obtain ⟨ht', hback⟩ := hs.linked t ht .backwards t' h
    obtain ⟨hne', hne, hadj⟩ := hs.adjacent t' ht' t hback
    refine ⟨hne, hne', ?_⟩
    exact (Direction.view_append_inverse .backwards).1 hadj

/-- Adjacency has to be checked in one direction only. -/
theorem adjacent_of_toward (d : Direction)
    (hlinked : ∀ t ∈ s.timelines, ∀ d t', (s.timeline t).getNeighbouringTimeline d = some t' →
      t' ∈ s.timelines ∧ (s.timeline t').getNeighbouringTimeline d.inverse = some t)
    (h : ∀ t ∈ s.timelines, ∀ t', (s.timeline t).getNeighbouringTimeline d = some t' →
      (s.timeline t).events ≠ [] ∧ (s.timeline t').events ≠ [] ∧
        d.view (s.timeline t).events ++ d.view (s.timeline t').events <:+: d.view L) :
    ∀ t ∈ s.timelines, ∀ t', (s.timeline t).nextTimeline = some t' →
      (s.timeline t).events ≠ [] ∧ (s.timeline t').events ≠ [] ∧
        (s.timeline t).events ++ (s.timeline t').events <:+: L := by
  intro t ht t' hnext
  cases d with
  | forwards => exact h t ht t' hnext
  | backwards =>
    obtain ⟨ht', hback⟩ := hlinked t ht .forwards t' hnext
    obtain ⟨hne', hne, hadj⟩ := h t' ht' t hback
    exact ⟨hne, hne', (Direction.view_append_inverse .backwards).2 hadj⟩

theorem get_of_mem (hs : Segmented getId L s) (ht : t ∈ s.timelines)
    (he : e ∈ (s.timeline t).events) : s.eventIdToTimeline.get (getId e) = some t :=
  (hs.index _ t).2 ⟨ht, e, he, rfl⟩

/-- The timeline an event of the order is looked up in has it. -/
theorem mem_of_get (hs : Segmented getId L s) (hL : (L.map getId).Nodup) (he : e ∈ L)
    (h : s.eventIdToTimeline.get (getId e) = some t) :
    t ∈ s.timelines ∧ e ∈ (s.timeline t).events := by
  obtain ⟨ht, e', he', hid⟩ := (hs.index _ t).1 h
  have heL : e' ∈ L := (hs.segment t ht).subset he'
  obtain rfl := List.inj_on_of_nodup_map hL heL he hid
  exact ⟨ht, he'⟩

theorem not_mem_of_get_none (hs : Segmented getId L s) (ht : t ∈ s.timelines)
    (h : s.eventIdToTimeline.get (getId e) = none) : e ∉ (s.timeline t).events := by
  intro he
  rw [hs.get_of_mem ht he] at h
  exact absurd h (by simp)

/-- What extends a timeline that is not the live one comes before the live events. -/
theorem before_live (hs : Segmented getId L s) (hL : L.Nodup) (d : Direction) (ht : t ∈ s.timelines)
    (hlive : t ≠ s.liveTimeline) {x : Event} (hne : (s.timeline t).events ≠ [])
    (hext : d.view (s.timeline t).events ++ [x] <:+: d.view L) {f : Event}
    (hf : f ∈ (s.timeline s.liveTimeline).events) (hfx : f ≠ x) : Before L x f := by
  cases d with
  | forwards =>
    refine before_of_before_extends hL hne hext (fun z hz => ?_) hfx
    exact hs.liveLast t ht hlive z hz f hf
  | backwards =>
    obtain ⟨z, hz⟩ := List.exists_mem_of_ne_nil _ hne
    have hxz : Before L x z :=
      before_reverse.1 (before_of_extends hext (List.mem_reverse.2 hz))
    exact hxz.trans hL (hs.liveLast t ht hlive z hz f hf)

/-- What extends the live timeline comes after the events of the others. -/
theorem before_of_extends_live (hs : Segmented getId L s) (hL : L.Nodup) (d : Direction) {x : Event}
    (hne : (s.timeline s.liveTimeline).events ≠ [])
    (hext : d.view (s.timeline s.liveTimeline).events ++ [x] <:+: d.view L) (ht : t ∈ s.timelines)
    (hlive : t ≠ s.liveTimeline) (he : e ∈ (s.timeline t).events) (hex : e ≠ x) : Before L e x := by
  cases d with
  | forwards =>
    obtain ⟨z, hz⟩ := List.exists_mem_of_ne_nil _ hne
    exact (hs.liveLast t ht hlive e he z hz).trans hL (before_of_extends hext hz)
  | backwards =>
    have hne' : (s.timeline s.liveTimeline).events.reverse ≠ [] := by simpa using hne
    refine before_reverse.1 (before_of_before_extends (List.nodup_reverse.2 hL) hne' hext ?_ hex)
    intro z hz
    exact before_reverse.2 (hs.liveLast t ht hlive e he z (List.mem_reverse.1 hz))

end Segmented

/-! ## One event -/

section AddEvent

variable [DecidableEq EventId]

theorem neighbour_addEventToTimeline (s : EventTimelineSet Event EventId Token) (x : Event)
    (t u : ℕ) (b : Bool) (d : Direction) :
    ((s.addEventToTimeline getId x t b).timeline u).getNeighbouringTimeline d =
      (s.timeline u).getNeighbouringTimeline d := by
  simp only [EventTimelineSet.addEventToTimeline]
  by_cases hu : u = t
  · subst hu
    rw [Function.update_self]
    cases d <;> rfl
  · rw [Function.update_of_ne hu]

theorem grows_addEventToTimeline (s : EventTimelineSet Event EventId Token) (x : Event) (t : ℕ)
    (b : Bool) : Grows s (s.addEventToTimeline getId x t b) := by
  refine ⟨rfl, rfl, fun u => ?_⟩
  simp only [EventTimelineSet.addEventToTimeline]
  by_cases hu : u = t
  · subst hu
    rw [Function.update_self]
    cases b
    · exact ⟨[], [x], by simp [EventTimeline.addEvent]⟩
    · exact ⟨[x], [], by simp [EventTimeline.addEvent]⟩
  · rw [Function.update_of_ne hu]

/-- An unknown event is added right beyond the end of a timeline, or to an empty one. -/
theorem Segmented.addEventToTimeline (hs : Segmented getId L s) (hL : (L.map getId).Nodup)
    (d : Direction) {t : ℕ} (ht : t ∈ s.timelines) {x : Event} (hx : x ∈ L)
    (hnew : s.eventIdToTimeline.get (getId x) = none)
    (hext : (s.timeline t).events ≠ [] → d.view (s.timeline t).events ++ [x] <:+: d.view L)
    (hbefore : t ≠ s.liveTimeline →
      ∀ f ∈ (s.timeline s.liveTimeline).events, Before L x f)
    (hafter : t = s.liveTimeline → ∀ t' ∈ s.timelines, t' ≠ s.liveTimeline →
      ∀ e ∈ (s.timeline t').events, Before L e x) :
    Segmented getId L (s.addEventToTimeline getId x t (d = .backwards)) := by
  have hunknown : ∀ u ∈ s.timelines, x ∉ (s.timeline u).events :=
    fun u hu => hs.not_mem_of_get_none hu hnew
  have hself : ((s.addEventToTimeline getId x t (d = .backwards)).timeline t).events =
      ((s.timeline t).addEvent x (d = .backwards)).events := by
    simp only [EventTimelineSet.addEventToTimeline, Function.update_self]
  have hother : ∀ u, u ≠ t → (s.addEventToTimeline getId x t (d = .backwards)).timeline u =
      s.timeline u := fun u hu => Function.update_of_ne hu ..
  have hlinked : ∀ u ∈ s.timelines, ∀ d' u',
      ((s.addEventToTimeline getId x t (d = .backwards)).timeline u).getNeighbouringTimeline d' =
        some u' → u' ∈ s.timelines ∧
      ((s.addEventToTimeline getId x t (d = .backwards)).timeline u').getNeighbouringTimeline
        d'.inverse = some u := by
    intro u hu d' u' h
    rw [neighbour_addEventToTimeline] at h ⊢
    exact hs.linked u hu d' u' h
  refine ⟨hs.live, fun u hu => ?_, fun u hu u' hu' e he he' => ?_, fun id u => ?_, hlinked,
    Segmented.adjacent_of_toward d hlinked fun u hu u' h => ?_, fun u hu hlive e he f hf => ?_⟩
  · by_cases hut : u = t
    · rw [hut, hself, ← d.view_infix, d.view_addEvent]
      by_cases hne : (s.timeline t).events = []
      · rw [d.view_eq_nil.2 hne, List.nil_append, List.singleton_infix_iff, d.mem_view]
        exact hx
      · exact hext hne
    · rw [hother u hut]
      exact hs.segment u hu
  · rw [mem_addEventToTimeline] at he he'
    rcases he with he | ⟨hut, hex⟩ <;> rcases he' with he' | ⟨hut', hex'⟩
    · exact hs.disjoint u hu u' hu' e he he'
    · exact absurd (hex' ▸ he) (hunknown u hu)
    · exact absurd (hex ▸ he') (hunknown u' hu')
    · rw [hut, hut']
  · simp only [mem_addEventToTimeline]
    change (s.eventIdToTimeline.set (getId x) t).get id = some u ↔ _
    rw [JsObject.get_set]
    split
    next hid =>
      rw [Option.some.injEq]
      constructor
      · rintro rfl
        exact ⟨ht, x, .inr ⟨rfl, rfl⟩, hid.symm⟩
      · rintro ⟨hu, e, he | ⟨rfl, rfl⟩, heid⟩
        · have hget := hs.get_of_mem hu he
          rw [heid, hid, hnew] at hget
          exact absurd hget (by simp)
        · rfl
    next hid =>
      rw [hs.index]
      constructor
      · rintro ⟨hu, e, he, heid⟩
        exact ⟨hu, e, .inl he, heid⟩
      · rintro ⟨hu, e, he | ⟨rfl, rfl⟩, heid⟩
        · exact ⟨hu, e, he, heid⟩
        · exact absurd heid.symm hid
  · rw [neighbour_addEventToTimeline] at h
    obtain ⟨hne, hne', hadj⟩ := hs.adjacent_toward d hu h
    obtain ⟨hu', _⟩ := hs.linked u hu d u' h
    have hvne : d.view (s.timeline u).events ≠ [] := by simpa using hne
    have hvne' : d.view (s.timeline u').events ≠ [] := by simpa using hne'
    have hut : u ≠ t := by
      -- a neighbour in the direction would have the event
      rintro rfl
      have hmem := mem_of_adjacent (d.nodup_view hL.of_map) hvne (hext hne) hvne' hadj
      exact hunknown u' hu' (d.mem_view.1 hmem)
    rw [hother u hut]
    by_cases hut' : u' = t
    · subst hut'
      rw [hself, d.view_addEvent]
      refine ⟨hne, ?_, adjacent_extend (d.nodup_view hL.of_map) hvne' hadj (hext hne')⟩
      intro hnil
      have hview := d.view_eq_nil.2 hnil
      rw [d.view_addEvent] at hview
      exact absurd hview (by simp)
    · rw [hother u' hut']
      exact ⟨hne, hne', hadj⟩
  · rw [mem_addEventToTimeline] at he hf
    rcases he with he | ⟨rfl, rfl⟩ <;> rcases hf with hf | ⟨hlt, rfl⟩
    · exact hs.liveLast u hu hlive e he f hf
    · exact hafter hlt.symm u hu hlive e he
    · exact hbefore hlive f hf
    · exact absurd hlt.symm hlive

end AddEvent

/-! ## Links -/

/-- The same events in the same timelines, up to links and tokens. -/
structure SameEvents (s s' : EventTimelineSet Event EventId Token) : Prop where
  timelines : s'.timelines = s.timelines
  liveTimeline : s'.liveTimeline = s.liveTimeline
  eventIdToTimeline : s'.eventIdToTimeline = s.eventIdToTimeline
  events : ∀ t, (s'.timeline t).events = (s.timeline t).events

theorem SameEvents.grows (h : SameEvents s s') : Grows s s' :=
  ⟨h.timelines, h.liveTimeline, fun t => by rw [h.events t]⟩

theorem SameEvents.trans (h : SameEvents s s') (h' : SameEvents s' s'') : SameEvents s s'' :=
  ⟨h'.timelines.trans h.timelines, h'.liveTimeline.trans h.liveTimeline,
    h'.eventIdToTimeline.trans h.eventIdToTimeline, fun t => (h'.events t).trans (h.events t)⟩

/-- Only the links have to be checked when only links change. -/
theorem Segmented.relink (hs : Segmented getId L s) (h : SameEvents s s') (d : Direction)
    (hlinked : ∀ t ∈ s.timelines, ∀ d t', (s'.timeline t).getNeighbouringTimeline d = some t' →
      t' ∈ s.timelines ∧ (s'.timeline t').getNeighbouringTimeline d.inverse = some t)
    (hadj : ∀ t ∈ s.timelines, ∀ t', (s'.timeline t).getNeighbouringTimeline d = some t' →
      (s.timeline t).events ≠ [] ∧ (s.timeline t').events ≠ [] ∧
        d.view (s.timeline t).events ++ d.view (s.timeline t').events <:+: d.view L) :
    Segmented getId L s' := by
  obtain ⟨htl, hlive, hindex, hevents⟩ := h
  refine ⟨?_, ?_, ?_, ?_, ?_, Segmented.adjacent_of_toward d ?_ ?_, ?_⟩ <;>
    simp only [htl, hlive, hindex, hevents]
  · exact hs.live
  · exact hs.segment
  · exact hs.disjoint
  · exact hs.index
  · exact hlinked
  · exact hlinked
  · exact hadj
  · exact hs.liveLast

theorem setNeighbouringTimeline_eq_ok {t : EventTimeline Event Token} {n : ℕ} {d : Direction}
    (h : t.getNeighbouringTimeline d = none) :
    ∃ t', t.setNeighbouringTimeline n d = .ok t' ∧ t'.events = t.events ∧
      ∀ d', t'.getNeighbouringTimeline d' =
        if d' = d then some n else t.getNeighbouringTimeline d' := by
  unfold EventTimeline.setNeighbouringTimeline
  rw [if_neg (by simp [h])]
  refine ⟨_, rfl, rfl, fun d' => ?_⟩
  cases d <;> cases d' <;> rfl

/-- Two timelines that are free on the sides concerned can be linked. -/
theorem joinTimelines_eq_ok {t ex : ℕ} {d : Direction} (hne : ex ≠ t)
    (ht : (s.timeline t).getNeighbouringTimeline d = none)
    (hex : (s.timeline ex).getNeighbouringTimeline d.inverse = none) :
    ∃ s', s.joinTimelines t ex d = .ok s' ∧ SameEvents s s' ∧ s'.created = s.created ∧
      ∀ u d', (s'.timeline u).getNeighbouringTimeline d' =
        if u = t ∧ d' = d then some ex
        else if u = ex ∧ d' = d.inverse then some t
        else (s.timeline u).getNeighbouringTimeline d' := by
  obtain ⟨t₁, hok₁, hev₁, hnb₁⟩ := setNeighbouringTimeline_eq_ok (n := ex) ht
  obtain ⟨t₂, hok₂, hev₂, hnb₂⟩ := setNeighbouringTimeline_eq_ok (n := t) hex
  have hget : (s.setTimeline t t₁).timeline ex = s.timeline ex := Function.update_of_ne hne ..
  refine ⟨(s.setTimeline t t₁).setTimeline ex t₂, ?_, ⟨rfl, rfl, rfl, fun u => ?_⟩, rfl,
    fun u d' => ?_⟩
  · unfold EventTimelineSet.joinTimelines
    simp only [hok₁, hget, hok₂]
  · simp only [EventTimelineSet.setTimeline]
    by_cases hu : u = ex
    · subst hu
      rw [Function.update_self, hev₂]
    · rw [Function.update_of_ne hu]
      by_cases hut : u = t
      · subst hut
        rw [Function.update_self, hev₁]
      · rw [Function.update_of_ne hut]
  · simp only [EventTimelineSet.setTimeline]
    by_cases hu : u = ex
    · subst hu
      rw [Function.update_self, hnb₂]
      simp [hne]
    · rw [Function.update_of_ne hu]
      by_cases hut : u = t
      · subst hut
        rw [Function.update_self, hnb₁]
        simp [hu]
      · rw [Function.update_of_ne hut]
        simp [hu, hut]

/-- Two adjacent timelines, the first not linked in the direction, are linked there. -/
theorem Segmented.joinTimelines (hs : Segmented getId L s) (hL : L.Nodup) (d : Direction)
    {t ex : ℕ} (ht : t ∈ s.timelines) (hex : ex ∈ s.timelines) (hne : ex ≠ t)
    (hfree : (s.timeline t).getNeighbouringTimeline d = none)
    (hnet : (s.timeline t).events ≠ []) (hnex : (s.timeline ex).events ≠ [])
    (hadj : d.view (s.timeline t).events ++ d.view (s.timeline ex).events <:+: d.view L) :
    ∃ s', s.joinTimelines t ex d = .ok s' ∧ SameEvents s s' ∧ Segmented getId L s' := by
  have hfree' : (s.timeline ex).getNeighbouringTimeline d.inverse = none := by
    -- whoever were linked there would end with the event that `t` ends with
    by_contra hsome
    obtain ⟨m, hm⟩ := Option.ne_none_iff_exists'.1 hsome
    obtain ⟨hmem, hback⟩ := hs.linked ex hex d.inverse m hm
    rw [Direction.inverse_inverse] at hback
    obtain ⟨hnem, _, hadjm⟩ := hs.adjacent_toward d hmem hback
    obtain ⟨z, hz, hz'⟩ := common_of_adjacent (d.nodup_view hL) (by simpa using hnex)
      (by simpa using hnet) (by simpa using hnem) hadj hadjm
    obtain rfl := hs.disjoint t ht m hmem z (d.mem_view.1 hz) (d.mem_view.1 hz')
    rw [hfree] at hback
    exact absurd hback (by simp)
  obtain ⟨s', hok, hsame, _, hnb⟩ := joinTimelines_eq_ok hne hfree hfree'
  refine ⟨s', hok, hsame, hs.relink hsame d (fun u hu d' u' h => ?_) (fun u hu u' h => ?_)⟩
  · rw [hnb] at h
    rw [hnb]
    split at h
    next hcase =>
      obtain rfl := Option.some.inj h
      obtain ⟨rfl, rfl⟩ := hcase
      refine ⟨hex, ?_⟩
      rw [if_neg (fun h => hne h.1), if_pos ⟨rfl, rfl⟩]
    · split at h
      next hcase =>
        obtain rfl := Option.some.inj h
        obtain ⟨rfl, rfl⟩ := hcase
        refine ⟨ht, ?_⟩
        rw [if_pos ⟨rfl, d.inverse_inverse⟩]
      · obtain ⟨hu', hback⟩ := hs.linked u hu d' u' h
        refine ⟨hu', ?_⟩
        -- the two sides that are linked now were free
        rw [if_neg, if_neg]
        · exact hback
        · rintro ⟨rfl, hdir⟩
          rw [hdir, hfree'] at hback
          exact absurd hback (by simp)
        · rintro ⟨rfl, hdir⟩
          rw [hdir, hfree] at hback
          exact absurd hback (by simp)
  · rw [hnb] at h
    split at h
    next hcase =>
      obtain rfl := Option.some.inj h
      rw [hcase.1]
      exact ⟨hnet, hnex, hadj⟩
    · rw [if_neg (fun hcase => d.ne_inverse hcase.2)] at h
      exact hs.adjacent_toward d hu h

/-! ## The loop -/

section Loop

variable [DecidableEq EventId]

variable (L) in
/-- The event is in the timeline `t`, or right beyond its end in the direction. -/
def NextTo (d : Direction) (s : EventTimelineSet Event EventId Token) (t : ℕ) (x : Event) : Prop :=
  x ∈ (s.timeline t).events ∨
    ((s.timeline t).events ≠ [] ∧ d.view (s.timeline t).events ++ [x] <:+: d.view L)

variable (getId L) in
/-- What a turn of the loop is to achieve. -/
structure Handled (st st' : EventTimelineSet.AddEventsState Event EventId Token) (x : Event) :
    Prop where
  segmented : Segmented getId L st'.set
  timeline : st'.timeline ∈ st'.set.timelines
  mem : x ∈ (st'.set.timeline st'.timeline).events
  grows : Grows st.set st'.set

variable {st : EventTimelineSet.AddEventsState Event EventId Token} {x : Event}
  {events : List Event}

/-- An unknown event is added to the timeline the loop works on. -/
theorem addNextEvent_unknown (d : Direction)
    (hnew : st.set.eventIdToTimeline.get (getId x) = none) :
    EventTimelineSet.addNextEvent getId d st x =
      .ok ⟨st.set.addEventToTimeline getId x st.timeline (d = .backwards), st.timeline, true,
        true⟩ := by
  unfold EventTimelineSet.addNextEvent
  rw [hnew]

theorem handled_unknown (d : Direction)
    (hs : Segmented getId L (st.set.addEventToTimeline getId x st.timeline (d = .backwards)))
    (ht : st.timeline ∈ st.set.timelines) :
    Handled getId L st
      ⟨st.set.addEventToTimeline getId x st.timeline (d = .backwards), st.timeline, true, true⟩
      x where
  segmented := hs
  timeline := ht
  mem := (mem_addEventToTimeline ..).2 (.inr ⟨rfl, rfl⟩)
  grows := grows_addEventToTimeline ..

/-- **One turn**: an event in the timeline or right beyond its end is handled, and is in
the timeline the loop works on afterwards. -/
theorem addNextEvent_spec (hL : (L.map getId).Nodup) (d : Direction)
    (hs : Segmented getId L st.set) (ht : st.timeline ∈ st.set.timelines) (hx : x ∈ L)
    (hnext : NextTo L d st.set st.timeline x) :
    ∃ st', EventTimelineSet.addNextEvent getId d st x = .ok st' ∧ Handled getId L st st' x := by
  have hLn : L.Nodup := hL.of_map
  cases hget : st.set.eventIdToTimeline.get (getId x) with
  | none =>
    have hunknown : ∀ u ∈ st.set.timelines, x ∉ (st.set.timeline u).events :=
      fun u hu => hs.not_mem_of_get_none hu hget
    obtain ⟨hne, hext⟩ := hnext.resolve_left (hunknown _ ht)
    refine ⟨_, addNextEvent_unknown d hget, handled_unknown d ?_ ht⟩
    refine hs.addEventToTimeline hL d ht hx hget (fun _ => hext) (fun hlive f hf => ?_) ?_
    · exact hs.before_live hLn d ht hlive hne hext hf fun h => hunknown _ hs.live (h ▸ hf)
    · intro hlive u hu hulive e he
      rw [hlive] at hne hext
      exact hs.before_of_extends_live hLn d hne hext hu hulive he fun h => hunknown u hu (h ▸ he)
  | some ex =>
    obtain ⟨hex, hxex⟩ := hs.mem_of_get hL hx hget
    unfold EventTimelineSet.addNextEvent
    simp only [hget]
    by_cases hsame : ex = st.timeline
    · rw [if_pos hsame]
      exact ⟨_, rfl, hs, ht, hsame ▸ hxex, .refl _⟩
    · rw [if_neg hsame]
      have hxt : x ∉ (st.set.timeline st.timeline).events :=
        fun hxt => hsame (hs.disjoint ex hex _ ht x hxex hxt)
      obtain ⟨hne, hext⟩ := hnext.resolve_left hxt
      have hvne : d.view (st.set.timeline st.timeline).events ≠ [] := by simpa using hne
      by_cases hnb : ((st.set.timeline st.timeline).getNeighbouringTimeline d).isSome
      · rw [if_pos hnb]
        exact ⟨_, rfl, hs, hex, hxex, .refl _⟩
      · rw [if_neg hnb, if_neg]
        · -- the other timeline begins where this one ends
          have hadj : d.view (st.set.timeline st.timeline).events ++
              d.view (st.set.timeline ex).events <:+: d.view L := by
            refine adjacent_of_extends (d.nodup_view hLn) hvne hext
              (d.view_infix.2 (hs.segment ex hex)) (d.mem_view.2 hxex) ?_
            intro z hz hz'
            exact hsame (hs.disjoint ex hex _ ht z (d.mem_view.1 hz') (d.mem_view.1 hz))
          obtain ⟨s', hok, hkeep, hs'⟩ := hs.joinTimelines hLn d ht hex hsame
            (by simpa using hnb) hne (List.ne_nil_of_mem hxex) hadj
          refine ⟨⟨s', ex, true, false⟩, by rw [hok]; rfl, hs', ?_, ?_, hkeep.grows⟩
          · rw [hkeep.timelines]
            exact hex
          · rw [hkeep.events]
            exact hxex
        · -- going back one does not meet the live timeline, and nothing lies beyond it
          obtain ⟨z, hz⟩ := List.exists_mem_of_ne_nil _ hne
          have hzx : Before (d.view L) z x := before_of_extends hext (d.mem_view.2 hz)
          rintro (⟨rfl, hlive⟩ | ⟨rfl, hlive⟩)
          · have hlast := hs.liveLast _ ht (fun h => hsame (hlive.trans h.symm)) z hz x
              (hlive ▸ hxex)
            exact Before.irrefl hLn (hlast.trans hLn (before_reverse.1 hzx))
          · have hlast := hs.liveLast ex hex (hlive ▸ hsame) x hxex z (hlive ▸ hz)
            exact Before.irrefl hLn (hlast.trans hLn hzx)

/-- **The loop**: the events that follow one of the timeline the loop works on. -/
theorem foldlM_addNextEvent (hL : (L.map getId).Nodup) (d : Direction) :
    ∀ {st : EventTimelineSet.AddEventsState Event EventId Token} {y : Event},
      Segmented getId L st.set → st.timeline ∈ st.set.timelines →
      y ∈ (st.set.timeline st.timeline).events → y :: events <:+: d.view L →
      ∃ st', events.foldlM (EventTimelineSet.addNextEvent getId d) st = .ok st' ∧
        Segmented getId L st'.set ∧ Grows st.set st'.set ∧
        ∀ x ∈ events, ∃ t ∈ st'.set.timelines, x ∈ (st'.set.timeline t).events := by
  induction events with
  | nil =>
    intro st y hs _ _ _
    exact ⟨st, rfl, hs, .refl _, fun x hx => absurd hx List.not_mem_nil⟩
  | cons x events ih =>
    intro st y hs ht hy hrun
    have hx : x ∈ L := d.mem_view.1 (hrun.subset (by simp))
    have hyx : [y, x] <:+: d.view L :=
      (List.prefix_append [y, x] events).isInfix.trans hrun
    have hnext : NextTo L d st.set st.timeline x := by
      rcases mem_or_extends (d.nodup_view hL.of_map) (d.view_infix.2 (hs.segment _ ht))
        (d.mem_view.2 hy) hyx with hmem | hext
      · exact .inl (d.mem_view.1 hmem)
      · exact .inr ⟨List.ne_nil_of_mem hy, hext⟩
    obtain ⟨st₁, hok₁, h₁⟩ := addNextEvent_spec hL d hs ht hx hnext
    have hrun₁ : x :: events <:+: d.view L := (List.suffix_cons y _).isInfix.trans hrun
    obtain ⟨st', hok, hs', hgrows, hmem⟩ := ih h₁.segmented h₁.timeline h₁.mem hrun₁
    refine ⟨st', ?_, hs', h₁.grows.trans hgrows, fun w hw => ?_⟩
    · rw [List.foldlM_cons, hok₁]
      exact hok
    · rcases List.mem_cons.1 hw with rfl | hw
      · refine ⟨st₁.timeline, ?_, (hgrows.events _).subset h₁.mem⟩
        rw [hgrows.timelines]
        exact h₁.timeline
      · exact hmem w hw

/-! ## Whatever the batch, nothing is lost -/

section

omit [DecidableEq EventId]

theorem map_eq_ok {α β ε : Type} {f : α → β} {r : Except ε α} {b : β}
    (h : r.map f = .ok b) : ∃ a, r = .ok a ∧ f a = b := by
  cases r with
  | error e => exact absurd h (by simp [Except.map])
  | ok a => exact ⟨a, rfl, Except.ok.inj h⟩

theorem setNeighbouringTimeline_events {t t' : EventTimeline Event Token} {n : ℕ} {d : Direction}
    (h : t.setNeighbouringTimeline n d = .ok t') : t'.events = t.events := by
  unfold EventTimeline.setNeighbouringTimeline at h
  split at h
  · exact absurd h (by simp)
  · rw [← Except.ok.inj h]

theorem setTimeline_sameEvents {t : ℕ} {timeline : EventTimeline Event Token}
    (h : timeline.events = (s.timeline t).events) : SameEvents s (s.setTimeline t timeline) := by
  refine ⟨rfl, rfl, rfl, fun u => ?_⟩
  simp only [EventTimelineSet.setTimeline]
  by_cases hu : u = t
  · rw [hu, Function.update_self, h]
  · rw [Function.update_of_ne hu]

theorem joinTimelines_sameEvents {t ex : ℕ} {d : Direction} (h : s.joinTimelines t ex d = .ok s') :
    SameEvents s s' := by
  unfold EventTimelineSet.joinTimelines at h
  split at h
  · exact absurd h (by simp)
  next t₁ h₁ =>
    dsimp only at h
    split at h
    · exact absurd h (by simp)
    next t₂ h₂ =>
      rw [← Except.ok.inj h]
      exact (setTimeline_sameEvents (setNeighbouringTimeline_events h₁)).trans
        (setTimeline_sameEvents (setNeighbouringTimeline_events h₂))

end

theorem addNextEvent_grows {d : Direction}
    {st st' : EventTimelineSet.AddEventsState Event EventId Token}
    (h : EventTimelineSet.addNextEvent getId d st x = .ok st') : Grows st.set st'.set := by
  unfold EventTimelineSet.addNextEvent at h
  split at h
  · obtain rfl := Except.ok.inj h
    exact grows_addEventToTimeline ..
  next ex _ =>
    split at h
    · obtain rfl := Except.ok.inj h
      exact .refl _
    · split at h
      · obtain rfl := Except.ok.inj h
        exact .refl _
      · split at h
        · obtain rfl := Except.ok.inj h
          exact .refl _
        · obtain ⟨s', hjoin, rfl⟩ := map_eq_ok h
          exact (joinTimelines_sameEvents hjoin).grows

theorem foldlM_addNextEvent_grows {d : Direction} :
    ∀ {st st' : EventTimelineSet.AddEventsState Event EventId Token},
      events.foldlM (EventTimelineSet.addNextEvent getId d) st = .ok st' →
      Grows st.set st'.set := by
  induction events with
  | nil =>
    intro st st' h
    obtain rfl := Except.ok.inj h
    exact .refl _
  | cons x events ih =>
    intro st st' h
    rw [List.foldlM_cons] at h
    cases h₁ : EventTimelineSet.addNextEvent getId d st x with
    | error e => simp [h₁, bind, Except.bind] at h
    | ok st₁ =>
      simp only [h₁, bind, Except.bind] at h
      exact (addNextEvent_grows h₁).trans (ih h)

section

omit [DecidableEq EventId]

/-- The token at the end of the batch. -/
theorem updateToken_sameEvents (d : Direction) (token : Option Token)
    (st : EventTimelineSet.AddEventsState Event EventId Token) :
    SameEvents st.set (st.updateToken d token) ∧
      ∀ u d', ((st.updateToken d token).timeline u).getNeighbouringTimeline d' =
        (st.set.timeline u).getNeighbouringTimeline d' := by
  unfold EventTimelineSet.AddEventsState.updateToken
  split
  · refine ⟨setTimeline_sameEvents rfl, fun u d' => ?_⟩
    simp only [EventTimelineSet.setTimeline]
    by_cases hu : u = st.timeline
    · rw [hu, Function.update_self]
      cases d' <;> rfl
    · rw [Function.update_of_ne hu]
  · exact ⟨⟨rfl, rfl, rfl, fun _ => rfl⟩, fun _ _ => rfl⟩

theorem updateToken_created (d : Direction) (token : Option Token)
    (st : EventTimelineSet.AddEventsState Event EventId Token) :
    (st.updateToken d token).created = st.set.created := by
  unfold EventTimelineSet.AddEventsState.updateToken
  split
  · rfl
  · rfl

theorem Segmented.updateToken (d : Direction) (token : Option Token)
    (hs : Segmented getId L st.set) : Segmented getId L (st.updateToken d token) := by
  obtain ⟨hsame, hnb⟩ := updateToken_sameEvents d token st
  refine hs.relink hsame d (fun u hu d' u' h => ?_) (fun u hu u' h => ?_)
  · rw [hnb] at h ⊢
    exact hs.linked u hu d' u' h
  · rw [hnb] at h
    exact hs.adjacent_toward d hu h

end

/-! ## The batch -/

variable (getId L) in
/-- The batch is added: the result fits the order, each event of the batch that passes the
filter is in exactly one timeline, and nothing that was there is lost or moved. -/
def AddsBatch (s : EventTimelineSet Event EventId Token) (events : List Event)
    (result : Except (EventTimelineSet.Thrown Event EventId Token)
      (EventTimelineSet Event EventId Token)) : Prop :=
  ∃ s', result = .ok s' ∧ Segmented getId L s' ∧ Grows s s' ∧
    ∀ x ∈ s.filterRoomTimeline events, ∃ t, (t ∈ s'.timelines ∧ x ∈ (s'.timeline t).events) ∧
      ∀ t', t' ∈ s'.timelines ∧ x ∈ (s'.timeline t').events → t' = t

variable (getId L) in
/-- A batch may start in the timeline or right beyond its end, or with an unknown event if
the timeline is empty. -/
def StartsAt (d : Direction) (s : EventTimelineSet Event EventId Token) (t : ℕ) (x : Event) :
    Prop :=
  NextTo L d s t x ∨
    ((s.timeline t).events = [] ∧ s.eventIdToTimeline.get (getId x) = none)

variable (L) in
/-- An empty timeline gets an event that leaves the live timeline last: one that comes before
the live events, or, if it is the live timeline itself, one that comes after all others. -/
def FitsEmpty (s : EventTimelineSet Event EventId Token) (t : ℕ) (x : Event) : Prop :=
  (s.timeline t).events = [] →
    (t ≠ s.liveTimeline → ∀ f ∈ (s.timeline s.liveTimeline).events, Before L x f) ∧
    (t = s.liveTimeline → ∀ t' ∈ s.timelines, t' ≠ s.liveTimeline →
      ∀ e ∈ (s.timeline t').events, Before L e x)

/-- The first event, for which the timeline may be empty. -/
theorem addFirstEvent_spec (hL : (L.map getId).Nodup) (d : Direction)
    (hs : Segmented getId L st.set) (ht : st.timeline ∈ st.set.timelines) (hx : x ∈ L)
    (hstart : StartsAt getId L d st.set st.timeline x)
    (hfits : FitsEmpty L st.set st.timeline x) :
    ∃ st', EventTimelineSet.addNextEvent getId d st x = .ok st' ∧ Handled getId L st st' x := by
  rcases hstart with hnext | ⟨hempty, hnew⟩
  · exact addNextEvent_spec hL d hs ht hx hnext
  · obtain ⟨hbefore, hafter⟩ := hfits hempty
    refine ⟨_, addNextEvent_unknown d hnew, handled_unknown d ?_ ht⟩
    exact hs.addEventToTimeline hL d ht hx hnew (fun hne => absurd hempty hne) hbefore hafter

variable (getId) in
/-- A batch is added to the live timeline at its start only. -/
theorem addEventsToTimeline_rejected (s : EventTimelineSet Event EventId Token)
    (events : List Event) (token : Option Token) :
    ∃ message, s.addEventsToTimeline getId events false (some s.liveTimeline) token =
      .error ⟨message, s⟩ := by
  unfold EventTimelineSet.addEventsToTimeline
  dsimp only
  rw [if_pos ⟨rfl, rfl⟩]
  exact ⟨_, rfl⟩

/-- The function when it neither rejects the call nor returns early. -/
theorem addEventsToTimeline_eq {toStart : Bool} {t : ℕ} {token : Option Token}
    (hrej : ¬ (toStart = false ∧ t = s.liveTimeline))
    (hne : ¬ (s.filter.isSome ∧ s.filterRoomTimeline events = [])) :
    s.addEventsToTimeline getId events toStart (some t) token =
      ((s.filterRoomTimeline events).foldlM (EventTimelineSet.addNextEvent getId
        (.ofToStart toStart)) ⟨s, t, false, false⟩).map
        (EventTimelineSet.AddEventsState.updateToken (.ofToStart toStart) token) := by
  unfold EventTimelineSet.addEventsToTimeline
  dsimp only
  rw [if_neg (by simpa using hrej), if_neg hne]

end Loop

end Segmented

/-! ## Exactly when the batch is added -/

section Batch

variable {Event EventId Token : Type} [DecidableEq EventId] {getId : Event → EventId}
variable {L : List Event} {s : EventTimelineSet Event EventId Token}

end Batch

/-! ## A batch that is added, and one that is not -/

/-- The live timeline with the events `live`, and another timeline with the events `other`. -/
def twoTimelines (live other : List ℕ) : EventTimelineSet ℕ ℕ ℕ where
  timelineSupport := true
  filter := none
  timelines := [0, 1]
  liveTimeline := 0
  eventIdToTimeline := (JsObject.empty.setAll live 0).setAll other 1
  timeline t := ⟨if t = 0 then live else other, 0, none, none, none, none⟩
  created := 2

theorem segmented_twoTimelines {L live other : List ℕ} (hlive : live <:+: L)
    (hother : other <:+: L) (hlast : ∀ e ∈ other, ∀ f ∈ live, e ≠ f ∧ Before L e f) :
    Segmented id L (twoTimelines live other) := by
  have hnb : ∀ t d, ((twoTimelines live other).timeline t).getNeighbouringTimeline d = none := by
    intro t d
    cases d <;> rfl
  have h01 : ∀ u ∈ (twoTimelines live other).timelines, u = 0 ∨ u = 1 := by
    intro u hu
    simpa [twoTimelines] using hu
  refine ⟨by simp [twoTimelines], fun t ht => ?_, fun t ht t' ht' e he he' => ?_, fun e t => ?_,
    fun t _ d t' h => absurd h (by simp [hnb]), fun t _ t' h => ?_, fun t ht hne e he f hf => ?_⟩
  · simp only [twoTimelines]
    split
    · exact hlive
    · exact hother
  · rcases h01 t ht with rfl | rfl <;> rcases h01 t' ht' with rfl | rfl
    · rfl
    · exact absurd rfl (hlast e he' e he).1
    · exact absurd rfl (hlast e he e he').1
    · rfl
  · have hne : e ∈ other → e ∉ live := fun he he' => (hlast e he e he').1 rfl
    simp only [twoTimelines, JsObject.get_setAll, JsObject.get_empty, List.mem_cons,
      List.not_mem_nil, or_false, id_eq, exists_eq_right]
    by_cases ho : e ∈ other
    · simp only [if_pos ho, Option.some.injEq]
      constructor
      · rintro rfl
        simpa using ho
      · rintro ⟨rfl | rfl, he⟩
        · exact absurd (by simpa using he) (hne ho)
        · rfl
    · by_cases hl : e ∈ live
      · simp only [if_neg ho, if_pos hl, Option.some.injEq]
        constructor
        · rintro rfl
          simpa using hl
        · rintro ⟨rfl | rfl, he⟩
          · rfl
          · exact absurd (by simpa using he) ho
      · simp only [if_neg ho, if_neg hl, reduceCtorEq, false_iff]
        rintro ⟨_, he⟩
        split at he
        · exact hl he
        · exact ho he
  · have hnone := hnb t .forwards
    rw [EventTimeline.getNeighbouringTimeline, h] at hnone
    exact absurd hnone (by simp)
  · rcases h01 t ht with rfl | rfl
    · exact absurd rfl hne
    · exact (hlast e he f hf).2

end MatrixSdk.Models
