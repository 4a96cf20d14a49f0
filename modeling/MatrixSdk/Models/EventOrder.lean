/-
The order of events: `compareEventOrdering` of `src/models/event-timeline-set.js`, where the
timelines of a set are chained and the index is exact.

The events of a chain, one timeline after the other, are a list, and two events compare as their
places in it do ([`compareEventOrdering_agrees`]). An event that is not known compares as the same
with itself, which is not what the other answers about it say.
-/
import MatrixSdk.Models.Receipts

set_option autoImplicit false

namespace MatrixSdk.Models

open MatrixSdk.Lib Relation

section EventOrder

variable {Event EventId Token : Type} [DecidableEq EventId] (getId : Event → EventId)

/-! ## Chains and their events -/

/-- The neighbours of timelines are in the set, and the index has an event for the one timeline that
it is in, once. -/
structure ExactIndex (s : EventTimelineSet Event EventId Token) : Prop where
  links : ∀ d t t', s.link d t = some t' → t ∈ s.timelines ∧ t' ∈ s.timelines
  index : ∀ id t, s.eventIdToTimeline.get id = some t ↔
    t ∈ s.timelines ∧ id ∈ timelineIds getId s t
  nodup : ∀ t ∈ s.timelines, (timelineIds getId s t).Nodup

/-- Timelines of the set, each linked to the next one. -/
structure LinkedChain (s : EventTimelineSet Event EventId Token) (chain : List ℕ) : Prop where
  linked : chain.IsChain (Linked (s.link .forwards))
  timelines : ∀ t ∈ chain, t ∈ s.timelines

/-- The ids of the events of a chain. -/
def chainIds (s : EventTimelineSet Event EventId Token) (chain : List ℕ) : List EventId :=
  chain.flatMap (timelineIds getId s)

/-- There is a chain with both events. -/
def Together (s : EventTimelineSet Event EventId Token) (id1 id2 : EventId) : Prop :=
  ∃ chain, LinkedChain s chain ∧ id1 ∈ chainIds getId s chain ∧ id2 ∈ chainIds getId s chain

/-- One event is before the other in a chain. -/
def Before (s : EventTimelineSet Event EventId Token) (id1 id2 : EventId) : Prop :=
  ∃ chain, LinkedChain s chain ∧ id1 ∈ chainIds getId s chain ∧ id2 ∈ chainIds getId s chain ∧
    (chainIds getId s chain).idxOf id1 < (chainIds getId s chain).idxOf id2

/-- A negative number. -/
def EventOrdering.IsNegative (ordering : EventOrdering) : Prop :=
  ∃ n, ordering = .number n ∧ n < 0

/-- A positive number. -/
def EventOrdering.IsPositive (ordering : EventOrdering) : Prop :=
  ∃ n, ordering = .number n ∧ 0 < n

/-- The answer says where the events are; `null` is for different ones that are not in a chain. -/
structure OrderingAgrees (s : EventTimelineSet Event EventId Token) (id1 id2 : EventId)
    (ordering : EventOrdering) : Prop where
  negative : ordering.IsNegative ↔ Before getId s id1 id2
  zero : ordering = .number 0 ↔ id1 = id2
  positive : ordering.IsPositive ↔ Before getId s id2 id1
  unknown : ordering = .unknown ↔ id1 ≠ id2 ∧ (s.eventIdToTimeline.get id1 = none ∨
    s.eventIdToTimeline.get id2 = none ∨ ¬ Together getId s id1 id2)

variable {getId} {s : EventTimelineSet Event EventId Token} {id1 id2 id3 : EventId}

/-! ## Timelines for chains -/

omit [DecidableEq EventId] in
theorem mem_chainIds (h : ExactIndex getId s) {chain : List ℕ} (hchain : LinkedChain s chain)
    {id : EventId} :
    id ∈ chainIds getId s chain ↔ ∃ t ∈ chain, s.eventIdToTimeline.get id = some t := by
  rw [chainIds, List.mem_flatMap]
  constructor
  · rintro ⟨t, ht, hid⟩
    exact ⟨t, ht, (h.index id t).2 ⟨hchain.timelines t ht, hid⟩⟩
  · rintro ⟨t, ht, hget⟩
    exact ⟨t, ht, ((h.index id t).1 hget).2⟩

/-- The place in the list is the place by the index. -/
theorem idxOf_chainIds (h : ExactIndex getId s) {chain : List ℕ}
    (htimelines : ∀ t ∈ chain, t ∈ s.timelines) (id : EventId) :
    (chainIds getId s chain).idxOf id = position getId s id chain := by
  induction chain with
  | nil => rfl
  | cons t chain ih =>
    rw [List.forall_mem_cons] at htimelines
    show (timelineIds getId s t ++ chainIds getId s chain).idxOf id = _
    rw [List.idxOf_append, position, ih htimelines.2]
    by_cases hid : id ∈ timelineIds getId s t
    · rw [if_pos hid, if_pos ((h.index id t).2 ⟨htimelines.1, hid⟩)]
    · rw [if_neg hid, if_neg fun hget => hid ((h.index id t).1 hget).2]
      omega

section

omit [DecidableEq EventId]

/-- The links from a timeline to another one make a chain. -/
theorem exists_linkedChain (h : ExactIndex getId s) {t t' : ℕ} (ht : t ∈ s.timelines)
    (hreach : ReflTransGen (Linked (s.link .forwards)) t t') :
    ∃ chain, LinkedChain s chain ∧ t ∈ chain ∧ t' ∈ chain := by
  obtain ⟨l, hlinked, hlast⟩ := List.exists_isChain_cons_of_relationReflTransGen hreach
  refine ⟨t :: l, ⟨hlinked, ?_⟩, List.mem_cons_self, hlast ▸ List.getLast_mem _⟩
  clear hlast hreach
  induction l generalizing t with
  | nil => simpa using ht
  | cons next l ih =>
    rw [List.isChain_cons_cons] at hlinked
    rw [List.forall_mem_cons]
    exact ⟨ht, ih (h.links .forwards t next hlinked.1).2 hlinked.2⟩

/-- Two timelines of a chain are linked, from the one or from the other. -/
theorem LinkedChain.reach {chain : List ℕ} (hchain : LinkedChain s chain) {t1 t2 : ℕ}
    (h1 : t1 ∈ chain) (h2 : t2 ∈ chain) :
    ReflTransGen (Linked (s.link .forwards)) t1 t2 ∨
      ReflTransGen (Linked (s.link .forwards)) t2 t1 := by
  let R : ℕ → ℕ → Prop := fun a b => ReflTransGen (Linked (s.link .forwards)) a b ∨
    ReflTransGen (Linked (s.link .forwards)) b a
  have hsymm : Std.Symm R := ⟨fun _ _ hab => hab.symm⟩
  have hR : chain.Pairwise R :=
    ((hchain.linked.imp fun _ _ => TransGen.single).pairwise).imp fun hab =>
      Or.inl hab.to_reflTransGen
  by_cases heq : t1 = t2
  · exact .inl (heq ▸ .refl)
  · exact hR.forall h1 h2 heq

/-- The events are in a chain if there are links between their timelines. -/
theorem together_iff (h : ExactIndex getId s) {t1 t2 : ℕ}
    (hget1 : s.eventIdToTimeline.get id1 = some t1)
    (hget2 : s.eventIdToTimeline.get id2 = some t2) :
    Together getId s id1 id2 ↔ ReflTransGen (Linked (s.link .forwards)) t1 t2 ∨
      ReflTransGen (Linked (s.link .forwards)) t2 t1 := by
  constructor
  · rintro ⟨chain, hchain, hid1, hid2⟩
    obtain ⟨t, ht, hget⟩ := (mem_chainIds h hchain).1 hid1
    obtain ⟨t', ht', hget'⟩ := (mem_chainIds h hchain).1 hid2
    obtain rfl := Option.some.inj (hget1.symm.trans hget)
    obtain rfl := Option.some.inj (hget2.symm.trans hget')
    exact hchain.reach ht ht'
  · have hsome : ∀ {ta tb : ℕ}, ta ∈ s.timelines →
        ReflTransGen (Linked (s.link .forwards)) ta tb →
        ∃ chain, LinkedChain s chain ∧ ta ∈ chain ∧ tb ∈ chain :=
      fun hta hreach => exists_linkedChain h hta hreach
    rintro (hreach | hreach)
    · obtain ⟨chain, hchain, ht1, ht2⟩ := hsome ((h.index id1 t1).1 hget1).1 hreach
      exact ⟨chain, hchain, (mem_chainIds h hchain).2 ⟨t1, ht1, hget1⟩,
        (mem_chainIds h hchain).2 ⟨t2, ht2, hget2⟩⟩
    · obtain ⟨chain, hchain, ht2, ht1⟩ := hsome ((h.index id2 t2).1 hget2).1 hreach
      exact ⟨chain, hchain, (mem_chainIds h hchain).2 ⟨t1, ht1, hget1⟩,
        (mem_chainIds h hchain).2 ⟨t2, ht2, hget2⟩⟩

end

/-- **One event is before another** if its timeline is, or within their timeline. -/
theorem before_iff (h : ExactIndex getId s) (hs : Chained s) {t1 t2 : ℕ}
    (hget1 : s.eventIdToTimeline.get id1 = some t1)
    (hget2 : s.eventIdToTimeline.get id2 = some t2) :
    Before getId s id1 id2 ↔
      if t1 = t2 then (timelineIds getId s t1).idxOf id1 < (timelineIds getId s t1).idxOf id2
      else TransGen (Linked (s.link .forwards)) t1 t2 := by
  have hid1 := ((h.index id1 t1).1 hget1).2
  have hid2 := ((h.index id2 t2).1 hget2).2
  -- the places in a chain, by the timelines
  have hplaces : ∀ {chain : List ℕ}, LinkedChain s chain → t1 ∈ chain → t2 ∈ chain →
      ((chainIds getId s chain).idxOf id1 < (chainIds getId s chain).idxOf id2 ↔
        if t1 = t2 then (timelineIds getId s t1).idxOf id1 < (timelineIds getId s t1).idxOf id2
        else TransGen (Linked (s.link .forwards)) t1 t2) := by
    intro chain hchain ht1 ht2
    have hpairwise := (hchain.linked.imp fun _ _ => TransGen.single).pairwise
    rw [idxOf_chainIds h hchain.timelines, idxOf_chainIds h hchain.timelines, ← not_le,
      position_le_iff (hs.acyclic .forwards) hpairwise ht1 ht2 hget1 hget2 hid1 hid2]
    by_cases heq : t1 = t2
    · rw [if_pos heq, if_pos heq, not_le]
    · rw [if_neg heq, if_neg heq]
      constructor
      · intro hback
        rcases hchain.reach ht1 ht2 with hreach | hreach
        · exact (reflTransGen_iff_eq_or_transGen.1 hreach).resolve_left fun hcontra =>
            heq hcontra.symm
        · exact absurd ((reflTransGen_iff_eq_or_transGen.1 hreach).resolve_left heq) hback
      · exact fun hahead hback => hs.acyclic .forwards t1 (hahead.trans hback)
  constructor
  · rintro ⟨chain, hchain, hmem1, hmem2, hlt⟩
    obtain ⟨t, ht, hget⟩ := (mem_chainIds h hchain).1 hmem1
    obtain ⟨t', ht', hget'⟩ := (mem_chainIds h hchain).1 hmem2
    obtain rfl := Option.some.inj (hget1.symm.trans hget)
    obtain rfl := Option.some.inj (hget2.symm.trans hget')
    exact (hplaces hchain ht ht').1 hlt
  · intro hbefore
    have hreach : ReflTransGen (Linked (s.link .forwards)) t1 t2 := by
      by_cases heq : t1 = t2
      · exact heq ▸ .refl
      · rw [if_neg heq] at hbefore
        exact hbefore.to_reflTransGen
    obtain ⟨chain, hchain, ht1, ht2⟩ :=
      exists_linkedChain h ((h.index id1 t1).1 hget1).1 hreach
    exact ⟨chain, hchain, (mem_chainIds h hchain).2 ⟨t1, ht1, hget1⟩,
      (mem_chainIds h hchain).2 ⟨t2, ht2, hget2⟩, (hplaces hchain ht1 ht2).2 hbefore⟩

/-- Only events that are known are before others. -/
theorem Before.known (h : ExactIndex getId s) (hbefore : Before getId s id1 id2) :
    (∃ t1, s.eventIdToTimeline.get id1 = some t1) ∧
      ∃ t2, s.eventIdToTimeline.get id2 = some t2 := by
  obtain ⟨chain, hchain, hid1, hid2, -⟩ := hbefore
  obtain ⟨t1, -, hget1⟩ := (mem_chainIds h hchain).1 hid1
  obtain ⟨t2, -, hget2⟩ := (mem_chainIds h hchain).1 hid2
  exact ⟨⟨t1, hget1⟩, t2, hget2⟩

theorem not_before_self : ¬ Before getId s id1 id1 := by
  rintro ⟨chain, -, -, -, hlt⟩
  exact absurd hlt (lt_irrefl _)

theorem Before.trans (h : ExactIndex getId s) (hs : Chained s) (h12 : Before getId s id1 id2)
    (h23 : Before getId s id2 id3) : Before getId s id1 id3 := by
  obtain ⟨⟨t1, hget1⟩, t2, hget2⟩ := h12.known h
  obtain ⟨t3, hget3⟩ := (h23.known h).2
  rw [before_iff h hs hget1 hget2] at h12
  rw [before_iff h hs hget2 hget3] at h23
  rw [before_iff h hs hget1 hget3]
  by_cases heq12 : t1 = t2
  · rw [if_pos heq12] at h12
    by_cases heq23 : t2 = t3
    · rw [if_pos heq23] at h23
      rw [if_pos (heq12.trans heq23)]
      rw [heq12] at h12 ⊢
      exact h12.trans h23
    · rw [if_neg heq23] at h23
      rw [heq12, if_neg heq23]
      exact h23
  · rw [if_neg heq12] at h12
    by_cases heq23 : t2 = t3
    · rw [← heq23, if_neg heq12]
      exact h12
    · rw [if_neg heq23] at h23
      rw [if_neg]
      · exact h12.trans h23
      · rintro rfl
        exact hs.acyclic .forwards t1 (h12.trans h23)

/-! ## The answers -/

theorem isNegative_number {n : ℤ} : (EventOrdering.number n).IsNegative ↔ n < 0 :=
  ⟨fun ⟨_, heq, hn⟩ => EventOrdering.number.inj heq ▸ hn, fun hn => ⟨n, rfl, hn⟩⟩

theorem isPositive_number {n : ℤ} : (EventOrdering.number n).IsPositive ↔ 0 < n :=
  ⟨fun ⟨_, heq, hn⟩ => EventOrdering.number.inj heq ▸ hn, fun hn => ⟨n, rfl, hn⟩⟩

/-- The answer is a number that has the sign of the order. -/
theorem OrderingAgrees.of_number {n : ℤ} (hne : id1 ≠ id2) (hzero : n ≠ 0)
    (htogether : Together getId s id1 id2)
    (hknown1 : s.eventIdToTimeline.get id1 ≠ none) (hknown2 : s.eventIdToTimeline.get id2 ≠ none)
    (hnegative : n < 0 ↔ Before getId s id1 id2) (hpositive : 0 < n ↔ Before getId s id2 id1) :
    OrderingAgrees getId s id1 id2 (.number n) where
  negative := isNegative_number.trans hnegative
  zero := iff_of_false (fun heq => hzero (EventOrdering.number.inj heq)) hne
  positive := isPositive_number.trans hpositive
  unknown := by
    refine iff_of_false (fun heq => nomatch heq) ?_
    rintro ⟨-, h | h | h⟩
    · exact hknown1 h
    · exact hknown2 h
    · exact h htogether

/-- The answer is `null`: there is nothing to say. -/
theorem OrderingAgrees.of_unknown (hne : id1 ≠ id2)
    (hnone : s.eventIdToTimeline.get id1 = none ∨ s.eventIdToTimeline.get id2 = none ∨
      ¬ Together getId s id1 id2)
    (hbefore : ¬ Before getId s id1 id2) (hafter : ¬ Before getId s id2 id1) :
    OrderingAgrees getId s id1 id2 .unknown where
  negative := iff_of_false (fun ⟨_, heq, _⟩ => nomatch heq) hbefore
  zero := iff_of_false (fun heq => nomatch heq) hne
  positive := iff_of_false (fun ⟨_, heq, _⟩ => nomatch heq) hafter
  unknown := iff_of_true rfl ⟨hne, hnone⟩

/-- Two events of one timeline. -/
theorem OrderingAgrees.of_timeline (h : ExactIndex getId s) (hs : Chained s) (hne : id1 ≠ id2)
    {t : ℕ} (hget1 : s.eventIdToTimeline.get id1 = some t)
    (hget2 : s.eventIdToTimeline.get id2 = some t) :
    OrderingAgrees getId s id1 id2 (.ofIndices
      (EventTimelineSet.eventIndices getId id1 id2 (s.timeline t).events 0 (none, none))) := by
  have hid1 := ((h.index id1 t).1 hget1).2
  have hid2 := ((h.index id2 t).1 hget2).2
  obtain ⟨a, b, hfound, hiff⟩ := eventIndices_order hne hid1 hid2 0
  obtain ⟨b', a', hfound', hiff'⟩ := eventIndices_order hne.symm hid2 hid1 0
  -- looking for them in the other order finds the same
  rw [eventIndices_swap, hfound] at hfound'
  obtain ⟨rfl, rfl⟩ : b = b' ∧ a = a' := by simpa using hfound'
  rw [hfound]
  show OrderingAgrees getId s id1 id2 (.number (a - b))
  have hplaces : (timelineIds getId s t).idxOf id1 ≠ (timelineIds getId s t).idxOf id2 :=
    fun heq => hne ((List.idxOf_inj hid1).1 heq)
  have h12 := before_iff h hs hget1 hget2
  have h21 := before_iff h hs hget2 hget1
  rw [if_pos rfl] at h12 h21
  unfold timelineIds at hplaces h12 h21
  apply OrderingAgrees.of_number hne
  · omega
  · exact (together_iff h hget1 hget2).2 (.inl .refl)
  · exact fun hcontra => nomatch hget1.symm.trans hcontra
  · exact fun hcontra => nomatch hget2.symm.trans hcontra
  · rw [h12]
    omega
  · rw [h21]
    omega

/-- Two events of different timelines: the walks find the second one. -/
theorem OrderingAgrees.of_walks (h : ExactIndex getId s) (hs : Chained s) (hne : id1 ≠ id2)
    {t1 t2 : ℕ} (hget1 : s.eventIdToTimeline.get id1 = some t1)
    (hget2 : s.eventIdToTimeline.get id2 = some t2) (hneq : t1 ≠ t2) {ordering : EventOrdering}
    (hordering : TransGen (Linked (s.link .forwards)) t1 t2 ∧ ordering = .number (-1) ∨
      TransGen (Linked (s.link .forwards)) t2 t1 ∧ ordering = .number 1 ∨
      (¬ ReflTransGen (Linked (s.link .forwards)) t1 t2 ∧
        ¬ ReflTransGen (Linked (s.link .forwards)) t2 t1) ∧ ordering = .unknown) :
    OrderingAgrees getId s id1 id2 ordering := by
  have h12 := before_iff h hs hget1 hget2
  have h21 := before_iff h hs hget2 hget1
  rw [if_neg hneq] at h12
  rw [if_neg hneq.symm] at h21
  have htogether := together_iff h hget1 hget2
  have hknown1 : s.eventIdToTimeline.get id1 ≠ none := fun hcontra =>
    nomatch hget1.symm.trans hcontra
  have hknown2 : s.eventIdToTimeline.get id2 ≠ none := fun hcontra =>
    nomatch hget2.symm.trans hcontra
  rcases hordering with ⟨hahead, rfl⟩ | ⟨hbehind, rfl⟩ | ⟨hapart, rfl⟩
  · apply OrderingAgrees.of_number hne (by omega) (htogether.2 (.inl hahead.to_reflTransGen))
      hknown1 hknown2
    · exact iff_of_true (by omega) (h12.2 hahead)
    · exact iff_of_false (by omega) fun hback =>
        hs.acyclic .forwards t1 (hahead.trans (h21.1 hback))
  · apply OrderingAgrees.of_number hne (by omega) (htogether.2 (.inr hbehind.to_reflTransGen))
      hknown1 hknown2
    · exact iff_of_false (by omega) fun hback =>
        hs.acyclic .forwards t1 ((h12.1 hback).trans hbehind)
    · exact iff_of_true (by omega) (h21.2 hbehind)
  · apply OrderingAgrees.of_unknown hne
    · right
      right
      rw [htogether, not_or]
      exact hapart
    · exact fun hcontra => hapart.1 (h12.1 hcontra).to_reflTransGen
    · exact fun hcontra => hapart.2 (h21.1 hcontra).to_reflTransGen

/-- **The answers agree with the places in the chain.** -/
theorem compareEventOrdering_agrees (h : ExactIndex getId s) (hs : Chained s) {fuel : ℕ}
    {ordering : EventOrdering}
    (hcompare : s.compareEventOrdering getId fuel id1 id2 = some ordering) :
    OrderingAgrees getId s id1 id2 ordering := by
  unfold EventTimelineSet.compareEventOrdering at hcompare
  by_cases hne : id1 = id2
  · rw [if_pos hne] at hcompare
    obtain rfl := Option.some.inj hcompare
    subst hne
    exact ⟨iff_of_false (fun hneg => lt_irrefl _ (isNegative_number.1 hneg)) not_before_self,
      iff_of_true rfl rfl,
      iff_of_false (fun hpos => lt_irrefl _ (isPositive_number.1 hpos)) not_before_self,
      iff_of_false (fun heq => nomatch heq) fun hcontra => hcontra.1 rfl⟩
  · rw [if_neg hne] at hcompare
    split at hcompare
    · next t1 t2 hget1 hget2 =>
        by_cases heq : t1 = t2
        · rw [if_pos heq] at hcompare
          obtain rfl := Option.some.inj hcompare
          exact .of_timeline h hs hne hget1 (heq ▸ hget2)
        · rw [if_neg heq] at hcompare
          apply OrderingAgrees.of_walks h hs hne hget1 hget2 heq
          cases hforth : walk (s.link .forwards) t2 fuel (some t1) with
          | none =>
            rw [hforth] at hcompare
            exact nomatch hcompare
          | some found =>
            have hreach := walk_eq_some_iff hforth
            rw [hforth] at hcompare
            cases found with
            | true =>
              left
              exact ⟨(reflTransGen_iff_eq_or_transGen.1 (hreach.1 rfl)).resolve_left
                fun hcontra => heq hcontra.symm, (Option.some.inj hcompare).symm⟩
            | false =>
              right
              have hnot : ¬ ReflTransGen (Linked (s.link .forwards)) t1 t2 :=
                fun hcontra => Bool.false_ne_true (hreach.2 hcontra)
              have hswap : Function.swap (Linked (s.link .forwards)) =
                  Linked (s.link .backwards) :=
                funext₂ fun t t' => propext (hs.symmetric .forwards t' t)
              cases hback : walk (s.link .backwards) t2 fuel (some t1) with
              | none =>
                rw [hback] at hcompare
                exact nomatch hcompare
              | some found' =>
                have hreach' := walk_eq_some_iff hback
                rw [← hswap, reflTransGen_swap] at hreach'
                rw [hback] at hcompare
                cases found' with
                | true =>
                  left
                  exact ⟨(reflTransGen_iff_eq_or_transGen.1
                    (hreach'.1 rfl)).resolve_left heq, (Option.some.inj hcompare).symm⟩
                | false =>
                  right
                  exact ⟨⟨hnot, fun hcontra => Bool.false_ne_true (hreach'.2 hcontra)⟩,
                    (Option.some.inj hcompare).symm⟩
    · next hunknown =>
        obtain rfl := Option.some.inj hcompare
        have hnone : s.eventIdToTimeline.get id1 = none ∨
            s.eventIdToTimeline.get id2 = none := by
          by_contra hcontra
          rw [not_or, ← Ne, ← Ne, Option.ne_none_iff_exists', Option.ne_none_iff_exists']
            at hcontra
          obtain ⟨⟨t1, hget1⟩, t2, hget2⟩ := hcontra
          exact hunknown t1 t2 hget1 hget2
        apply OrderingAgrees.of_unknown hne (hnone.imp_right .inl)
        · intro hbefore
          obtain ⟨⟨t1, hget1⟩, t2, hget2⟩ := hbefore.known h
          simp [hget1, hget2] at hnone
        · intro hbefore
          obtain ⟨⟨t2, hget2⟩, t1, hget1⟩ := hbefore.known h
          simp [hget1, hget2] at hnone

/-- The answer for two events is that for the other order, turned round. -/
theorem OrderingAgrees.swap {ordering ordering' : EventOrdering}
    (h12 : OrderingAgrees getId s id1 id2 ordering)
    (h21 : OrderingAgrees getId s id2 id1 ordering') :
    ordering.IsNegative ↔ ordering'.IsPositive :=
  h12.negative.trans h21.positive.symm

/-- The timelines 0 and 1, with the events 7 and 8. -/
def twoLinked : EventTimelineSet ℕ ℕ Unit where
  timelineSupport := true
  filter := none
  timelines := [0, 1]
  liveTimeline := 1
  eventIdToTimeline := (JsObject.empty.set 7 0).set 8 1
  timeline t :=
    if t = 0 then ⟨[7], 0, none, some 1, none, none⟩
    else if t = 1 then ⟨[8], 0, some 0, none, none, none⟩
    else .new
  created := 2

theorem twoLinked_link (d : Direction) (t t' : ℕ) : twoLinked.link d t = some t' ↔
    d = .forwards ∧ t = 0 ∧ t' = 1 ∨ d = .backwards ∧ t = 1 ∧ t' = 0 := by
  unfold EventTimelineSet.link twoLinked
  by_cases h0 : t = 0
  · cases d <;> simp [h0, EventTimeline.getNeighbouringTimeline, eq_comm]
  · by_cases h1 : t = 1
    · cases d <;> simp [h1, EventTimeline.getNeighbouringTimeline, eq_comm]
    · cases d <;> simp [h0, h1, EventTimeline.getNeighbouringTimeline, EventTimeline.new]

theorem chained_twoLinked : Chained twoLinked := by
  refine Chained.of_direction .forwards (fun d t t' => ?_) fun t hcycle => ?_
  · rw [twoLinked_link, twoLinked_link]
    cases d <;> simp [Direction.inverse, and_comm]
  · have hlt : ∀ t t', TransGen (Linked (twoLinked.link .forwards)) t t' → t < t' := by
      intro t t' hreach
      induction hreach with
      | single hstep =>
        have hlink := (twoLinked_link .forwards _ _).1 hstep
        simp at hlink
        omega
      | tail _ hstep ih =>
        have hlink := (twoLinked_link .forwards _ _).1 hstep
        simp at hlink
        omega
    exact lt_irrefl t (hlt t t hcycle)

theorem exactIndex_twoLinked : ExactIndex id twoLinked where
  links d t t' hlink := by
    rw [twoLinked_link] at hlink
    rcases hlink with ⟨-, rfl, rfl⟩ | ⟨-, rfl, rfl⟩ <;> decide
  index eventId t := by
    have hmem : t ∈ twoLinked.timelines ∧ eventId ∈ timelineIds id twoLinked t ↔
        t = 0 ∧ eventId = 7 ∨ t = 1 ∧ eventId = 8 := by
      unfold timelineIds twoLinked
      by_cases h0 : t = 0
      · simp [h0]
      · by_cases h1 : t = 1
        · simp [h1]
        · simp [h0, h1]
    rw [hmem]
    show ((JsObject.empty.set 7 0).set 8 1).get eventId = some t ↔ _
    rw [JsObject.get_set, JsObject.get_set]
    by_cases h8 : eventId = 8
    · simp [h8, eq_comm]
    · by_cases h7 : eventId = 7
      · simp [h7, eq_comm]
      · simp [h8, h7]
  nodup t ht := by
    revert t
    decide

end EventOrder

end MatrixSdk.Models
