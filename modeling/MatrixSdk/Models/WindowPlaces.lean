/-
Where the ends of a `TimelineWindow` are, and what its operations do to them.

A chain of timelines is a list in which each is linked to its neighbours and to nothing else
([`TimelineChain`]); its events are those of its timelines, one behind another. An end of a window is
then a number, the events there are before it ([`At`]), and moving it by some events moves the number
by as many. That the ends are in the right order is more than an inequality of the numbers: where
timelines are empty the timeline of the end must not come before that of the start, since
`getEvents` follows the links from one to the other.
-/
import MatrixSdk.Lib.Concat
import MatrixSdk.Models.TimelineWindow

set_option autoImplicit false

namespace MatrixSdk.Models

open MatrixSdk.Lib Relation TimelineWindow

variable {Event EventId Token : Type} {s s' : EventTimelineSet Event EventId Token}
  {chain : List ℕ} {t t' i j n : ℕ}

/-! ## Chains as lists -/

/-- The timelines of a chain, from the first one to the last. -/
structure TimelineChain (s : EventTimelineSet Event EventId Token) (chain : List ℕ) : Prop where
  nodup : chain.Nodup
  next : ∀ i t, chain[i]? = some t → s.link .forwards t = chain[i + 1]?
  prev : ∀ i t, chain[i + 1]? = some t → s.link .backwards t = chain[i]?
  first : ∀ t, chain[0]? = some t → s.link .backwards t = none

/-- The events of a timeline. -/
def timelineEvents (s : EventTimelineSet Event EventId Token) (t : ℕ) : List Event :=
  (s.timeline t).events

/-- The concatenated chain. -/
def chainEvents (s : EventTimelineSet Event EventId Token) (chain : List ℕ) : List Event :=
  chain.flatMap (timelineEvents s)

/-- How many events there are before the `i`-th timeline. -/
def before (s : EventTimelineSet Event EventId Token) (chain : List ℕ) (i : ℕ) : ℕ :=
  offset (timelineEvents s) chain i

/-- From a timeline of the chain one gets to those behind it. -/
theorem TimelineChain.reflTransGen_iff (hc : TimelineChain s chain) (hi : chain[i]? = some t) :
    ReflTransGen (Linked (s.link .forwards)) t t' ↔ ∃ n, chain[i + n]? = some t' := by
  constructor
  · intro hreach
    induction hreach with
    | refl => exact ⟨0, hi⟩
    | tail _ hlink ih =>
      obtain ⟨n, hn⟩ := ih
      exact ⟨n + 1, (hc.next _ _ hn).symm.trans hlink⟩
  · rintro ⟨n, hn⟩
    induction n generalizing t' with
    | zero =>
      obtain rfl := Option.some.inj (hi.symm.trans hn)
      exact .refl
    | succ n ih =>
      obtain ⟨hlt, -⟩ := List.getElem?_eq_some_iff.1 hn
      obtain ⟨u, hu⟩ : ∃ u, chain[i + n]? = some u :=
        ⟨chain[i + n], List.getElem?_eq_getElem (by omega)⟩
      exact (ih hu).tail ((hc.next _ _ hu).trans hn)

theorem TimelineChain.transGen_iff (hc : TimelineChain s chain) (hi : chain[i]? = some t) :
    TransGen (Linked (s.link .forwards)) t t' ↔ ∃ n, chain[i + n + 1]? = some t' := by
  rw [TransGen.tail'_iff]
  constructor
  · rintro ⟨u, hreach, hlink⟩
    obtain ⟨n, hn⟩ := (hc.reflTransGen_iff hi).1 hreach
    exact ⟨n, (hc.next _ _ hn).symm.trans hlink⟩
  · rintro ⟨n, hn⟩
    obtain ⟨hlt, -⟩ := List.getElem?_eq_some_iff.1 hn
    obtain ⟨u, hu⟩ : ∃ u, chain[i + n]? = some u :=
      ⟨chain[i + n], List.getElem?_eq_getElem (by omega)⟩
    exact ⟨u, (hc.reflTransGen_iff hi).2 ⟨n, hu⟩, (hc.next _ _ hu).trans hn⟩

/-- Links that end are a list. -/
theorem exists_links_of_walk {link : ℕ → Option ℕ} {target fuel : ℕ} :
    ∀ {t : ℕ}, walk link target fuel (some t) = some false →
      ∃ rest, List.IsChain (Linked link) (t :: rest) ∧
        ∀ u, (t :: rest).getLast? = some u → link u = none := by
  induction fuel with
  | zero => exact fun h => by cases h
  | succ fuel ih =>
    intro t hwalk
    rw [walk] at hwalk
    split at hwalk
    next => cases hwalk
    next =>
      cases hlink : link t with
      | none =>
        refine ⟨[], List.isChain_singleton t, fun u hu => ?_⟩
        obtain rfl := Option.some.inj hu
        exact hlink
      | some next =>
        rw [hlink] at hwalk
        obtain ⟨rest, hrest, hend⟩ := ih hwalk
        refine ⟨next :: rest, List.isChain_cons_cons.2 ⟨hlink, hrest⟩, fun u hu => ?_⟩
        rw [List.getLast?_cons_cons] at hu
        exact hend u hu

/-- From every timeline on the links are a list. -/
theorem exists_links (hs : Chained s) (hb : Bounded s) (d : Direction) (t : ℕ) :
    ∃ rest, List.IsChain (Linked (s.link d)) (t :: rest) ∧
      ∀ u, (t :: rest).getLast? = some u → s.link d u = none := by
  -- a walk that looks for what is not there goes to the end
  have hbound : ∀ a b, s.link d a = some b →
      a < s.created + t + 1 ∧ b < s.created + t + 1 := by
    intro a b hlink
    obtain ⟨ha, hb⟩ := hb.link d a b hlink
    exact ⟨by omega, by omega⟩
  obtain ⟨fuel, hsome⟩ := walk_terminates (hs.acyclic d) hbound (s.created + t + 1) (some t)
  obtain ⟨found, hfound⟩ := Option.isSome_iff_exists.1 hsome
  obtain rfl : found = false := by
    rw [← Bool.not_eq_true, walk_eq_some_iff hfound]
    intro hreach
    rcases hreach.cases_tail with heq | ⟨u, -, hlink⟩
    · omega
    · exact absurd (hbound u _ hlink).2 (lt_irrefl _)
  exact exists_links_of_walk hfound

/-- A list of links with no more links at its ends is a chain. -/
theorem timelineChain_of_links (hs : Chained s) (hlinks : List.IsChain (Linked (s.link .forwards)) chain)
    (hfirst : ∀ t, chain.head? = some t → s.link .backwards t = none)
    (hlast : ∀ t, chain.getLast? = some t → s.link .forwards t = none) : TimelineChain s chain := by
  have hpairwise : chain.Pairwise (TransGen (Linked (s.link .forwards))) :=
    (hlinks.imp fun _ _ => TransGen.single).pairwise
  have hnext : ∀ i t, chain[i]? = some t → s.link .forwards t = chain[i + 1]? := by
    intro i t ht
    obtain ⟨hi, rfl⟩ := List.getElem?_eq_some_iff.1 ht
    by_cases hlt : i + 1 < chain.length
    · rw [List.getElem?_eq_getElem hlt]
      exact List.isChain_iff_getElem.1 hlinks i hlt
    · rw [List.getElem?_eq_none (by omega)]
      refine hlast _ ?_
      rw [List.getLast?_eq_getElem?, ← ht]
      congr 1
      omega
  refine ⟨?_, hnext, fun i t ht => ?_, fun t ht => ?_⟩
  · refine hpairwise.imp fun {a b} hab heq => ?_
    rw [heq] at hab
    exact hs.acyclic .forwards b hab
  · obtain ⟨hi, -⟩ := List.getElem?_eq_some_iff.1 ht
    rw [List.getElem?_eq_getElem (Nat.lt_of_succ_lt hi)]
    refine (hs.symmetric .forwards _ _).1 ?_
    rw [hnext i _ (List.getElem?_eq_getElem (Nat.lt_of_succ_lt hi)), ht]
  · refine hfirst t ?_
    rw [List.head?_eq_getElem?, ht]

theorem isChain_extend {R : ℕ → ℕ → Prop} {path back : List ℕ} (hne : path ≠ [])
    (hpath : List.IsChain R path) (hback : List.IsChain R (path.getLast hne :: back)) :
    List.IsChain R (path ++ back) ∧
      (path ++ back).getLast? = (path.getLast hne :: back).getLast? := by
  obtain ⟨hhead, hrest⟩ := List.isChain_cons.1 hback
  refine ⟨List.isChain_append.2 ⟨hpath, hrest, fun t ht u hu => ?_⟩, ?_⟩
  · rw [List.getLast?_eq_some_getLast hne] at ht
    rw [← Option.some.inj ht]
    exact hhead u hu
  · rw [List.getLast?_append, List.getLast?_cons, List.getLast?_eq_some_getLast hne]
    cases back.getLast? with
    | none => rfl
    | some u => rfl

/-- **Links lie in a chain**, if the timelines are chained. -/
theorem exists_timelineChain (hs : Chained s) (hb : Bounded s) {path : List ℕ} (hne : path ≠ [])
    (hpath : List.IsChain (Linked (s.link .forwards)) path) :
    ∃ front back, TimelineChain s (front ++ (path ++ back)) := by
  obtain ⟨back, hback, hlast⟩ := exists_links hs hb .forwards (path.getLast hne)
  obtain ⟨hlinks, hsameLast⟩ := isChain_extend hne hpath hback
  -- the links that go back from the first one are found in the reversed list
  have hne' : (path ++ back).reverse ≠ [] := by simp [hne]
  have hreverse : List.IsChain (Linked (s.link .backwards)) (path ++ back).reverse := by
    rw [List.isChain_reverse]
    exact hlinks.imp fun t u hlink => (hs.symmetric .forwards t u).1 hlink
  obtain ⟨front, hfront, hfirst⟩ :=
    exists_links hs hb .backwards ((path ++ back).reverse.getLast hne')
  obtain ⟨hall, hsameFirst⟩ := isChain_extend hne' hreverse hfront
  have hwhole : List.IsChain (Linked (s.link .forwards)) (front.reverse ++ (path ++ back)) := by
    have hflip := List.isChain_reverse.2
      (hall.imp fun t u hlink => (hs.symmetric .backwards t u).1 hlink)
    rw [List.reverse_append, List.reverse_reverse] at hflip
    exact hflip
  refine ⟨front.reverse, back, timelineChain_of_links hs hwhole (fun t ht => ?_) fun t ht => ?_⟩
  · refine hfirst t ?_
    rw [← hsameFirst, ← List.head?_reverse, List.reverse_append, List.reverse_reverse]
    exact ht
  · refine hlast t ?_
    have hne'' : path ++ back ≠ [] := by simp [hne]
    rw [← hsameLast, ← List.getLast?_append_of_ne_nil front.reverse hne'']
    exact ht

/-- The timelines of a chain have been made if one of them has. -/
theorem TimelineChain.lt_created (hc : TimelineChain s chain) (hb : Bounded s)
    (ht : t ∈ chain) (htc : t < s.created) : ∀ u ∈ chain, u < s.created := by
  intro u hu
  obtain ⟨i, hi, rfl⟩ := List.getElem_of_mem hu
  by_cases hone : chain.length ≤ 1
  · obtain ⟨j, hj, rfl⟩ := List.getElem_of_mem ht
    obtain rfl : i = j := by omega
    exact htc
  · -- every timeline of the chain is linked to another one
    cases i with
    | zero =>
      have hnext := hc.next 0 _ (List.getElem?_eq_getElem hi)
      rw [List.getElem?_eq_getElem (show 0 + 1 < chain.length by omega)] at hnext
      exact (hb.link .forwards _ _ hnext).1
    | succ i =>
      have hprev := hc.prev i _ (List.getElem?_eq_getElem hi)
      rw [List.getElem?_eq_getElem (show i < chain.length by omega)] at hprev
      exact (hb.link .backwards _ _ hprev).1

/-- There are no more timelines in a chain than have been made. -/
theorem TimelineChain.length_le (hc : TimelineChain s chain) (hall : ∀ t ∈ chain, t < s.created) :
    chain.length ≤ s.created := by
  rw [← List.toFinset_card_of_nodup hc.nodup, ← Finset.card_range s.created]
  refine Finset.card_le_card fun t ht => ?_
  exact Finset.mem_range.2 (hall t (List.mem_toFinset.1 ht))

/-! ## Places in a chain -/

theorem before_succ (h : chain[i]? = some t) :
    before s chain (i + 1) = before s chain i + (s.timeline t).events.length :=
  offset_succ h

variable (s chain) in
theorem before_mono (h : i ≤ j) : before s chain i ≤ before s chain j := offset_mono h

theorem before_le : before s chain i ≤ (chainEvents s chain).length := offset_le i

/-- A timeline index is in the `i`-th timeline of the chain, and `p` events of the chain are before
it. -/
structure At (s : EventTimelineSet Event EventId Token) (chain : List ℕ) (tl : TimelineIndex)
    (i p : ℕ) : Prop where
  timeline : chain[i]? = some tl.timeline
  index : (before s chain i : Int) + (tl.index + (s.timeline tl.timeline).baseIndex) = p
  low : before s chain i ≤ p
  high : p ≤ before s chain (i + 1)

variable {tl : TimelineIndex} {p q : ℕ}

theorem At.le_length (h : At s chain tl i p) : p ≤ (chainEvents s chain).length :=
  h.high.trans before_le

theorem At.lt (h : At s chain tl i p) : i < chain.length :=
  (List.getElem?_eq_some_iff.1 h.timeline).1

theorem advance_forwards {fuel : ℕ} {delta : Int} (hd : 0 < delta) :
    tl.advance s fuel delta =
      if 0 < min delta (tl.maxIndex s - tl.index) then
        some ({ tl with index := tl.index + min delta (tl.maxIndex s - tl.index) },
          min delta (tl.maxIndex s - tl.index))
      else
        match s.link .forwards tl.timeline with
        | none => some (tl, 0)
        | some t =>
          match fuel with
          | 0 => none
          | fuel + 1 => TimelineIndex.advance s fuel
              { tl with timeline := t, index := ((s.timeline t).baseIndex : Int) * -1 } delta := by
  have hne : ¬ delta = 0 := by omega
  have hnot : ¬ delta < 0 := by omega
  rw [TimelineIndex.advance.eq_def, if_neg hne]
  simp only [if_neg hnot]
  split
  · rfl
  · cases s.link .forwards tl.timeline with
    | none => rfl
    | some t => cases fuel <;> rfl

theorem retreat_backwards {fuel : ℕ} {delta : Int} (hd : 0 < delta) :
    tl.retreat s fuel delta =
      if max (delta * -1) (tl.minIndex s - tl.index) < 0 then
        some ({ tl with index := tl.index + max (delta * -1) (tl.minIndex s - tl.index) },
          max (delta * -1) (tl.minIndex s - tl.index) * -1)
      else
        match s.link .backwards tl.timeline with
        | none => some (tl, 0)
        | some t =>
          match fuel with
          | 0 => none
          | fuel + 1 => TimelineIndex.retreat s fuel { tl with
              timeline := t
              index := (s.timeline t).events.length - (s.timeline t).baseIndex } delta := by
  have hne : ¬ delta * -1 = 0 := by omega
  have hneg : delta * -1 < 0 := by omega
  unfold TimelineIndex.retreat
  rw [TimelineIndex.advance.eq_def, if_neg hne]
  simp only [if_pos hneg]
  split
  · rfl
  · cases s.link .backwards tl.timeline with
    | none => rfl
    | some t => cases fuel <;> rfl

/-- **Advancing** by some events, unless the chain ends before. -/
theorem advance_spec (hc : TimelineChain s chain) {size : ℕ} (hsize : 0 < size) (fuel : ℕ)
    {tl : TimelineIndex} {i p : ℕ} (hfuel : chain.length ≤ fuel + i + 1) (h : At s chain tl i p) :
    ∃ tl' j, ∃ c : ℕ, tl.advance s fuel size = some (tl', (c : Int)) ∧
      At s chain tl' j (p + c) ∧ i ≤ j ∧ c ≤ size ∧ (0 < c → before s chain j < p + c) ∧
      (c = 0 → p = (chainEvents s chain).length) := by
  have hlen := before_succ (s := s) h.timeline
  have hlow := h.low
  have hhigh := h.high
  have hindex := h.index
  have hmax : tl.maxIndex s - tl.index = (before s chain (i + 1) : Int) - p := by
    unfold TimelineIndex.maxIndex
    omega
  rw [advance_forwards (by omega), hmax]
  by_cases hroom : p < before s chain (i + 1)
  · obtain ⟨c, hmin⟩ : ∃ c : ℕ, min (size : Int) ((before s chain (i + 1) : Int) - p) = c :=
      ⟨min size (before s chain (i + 1) - p), by omega⟩
    rw [if_pos (by omega), hmin]
    refine ⟨_, i, c, rfl, ⟨h.timeline, ?_, by omega, by omega⟩, le_rfl, by omega, by omega, by omega⟩
    push_cast
    omega
  · rw [if_neg (by omega), hc.next i _ h.timeline]
    cases hnext : chain[i + 1]? with
    | none =>
      have hall : before s chain (i + 1) = (chainEvents s chain).length :=
        offset_of_length_le (List.getElem?_eq_none_iff.1 hnext)
      exact ⟨tl, i, 0, rfl, h, le_rfl, by omega, by omega, by omega⟩
    | some t =>
      obtain ⟨hlt, -⟩ := List.getElem?_eq_some_iff.1 hnext
      obtain ⟨fuel, rfl⟩ : ∃ n, fuel = n + 1 := ⟨fuel - 1, by omega⟩
      have hentered : At s chain
          { tl with timeline := t, index := ((s.timeline t).baseIndex : Int) * -1 } (i + 1) p := by
        refine ⟨hnext, ?_, by omega, hhigh.trans (before_mono _ _ (Nat.le_succ _))⟩
        dsimp only
        omega
      obtain ⟨tl', j, c, hadvance, hat, hij, hcs, hinside, hend⟩ :=
        advance_spec hc hsize fuel (by omega) hentered
      exact ⟨tl', j, c, hadvance, hat, by omega, hcs, hinside, hend⟩
termination_by fuel

/-- **Retreating** by some events, unless the chain begins before. -/
theorem retreat_spec (hc : TimelineChain s chain) {size : ℕ} (hsize : 0 < size) (fuel : ℕ)
    {tl : TimelineIndex} {i p : ℕ} (hfuel : i ≤ fuel) (h : At s chain tl i p) :
    ∃ tl' j, ∃ c : ℕ, tl.retreat s fuel size = some (tl', (c : Int)) ∧ c ≤ p ∧
      At s chain tl' j (p - c) ∧ j ≤ i ∧ c ≤ size ∧ (0 < c → p - c < before s chain (j + 1)) ∧
      (c = 0 → p = 0) := by
  have hlen := before_succ (s := s) h.timeline
  have hlow := h.low
  have hhigh := h.high
  have hindex := h.index
  have hmin : tl.minIndex s - tl.index = (before s chain i : Int) - p := by
    unfold TimelineIndex.minIndex
    omega
  rw [retreat_backwards (by omega), hmin]
  by_cases hroom : before s chain i < p
  · obtain ⟨c, hmax⟩ : ∃ c : ℕ, max ((size : Int) * -1) ((before s chain i : Int) - p) = -c :=
      ⟨min size (p - before s chain i), by omega⟩
    have hback : -(c : Int) * -1 = c := by omega
    rw [if_pos (by omega), hmax, hback]
    refine ⟨_, i, c, rfl, by omega, ⟨h.timeline, ?_, by omega, by omega⟩, le_rfl, by omega, by omega,
      by omega⟩
    push_cast
    omega
  · rw [if_neg (by omega)]
    cases i with
    | zero =>
      rw [hc.first _ h.timeline]
      have hzero : before s chain 0 = 0 := rfl
      exact ⟨tl, 0, 0, rfl, by omega, h, le_rfl, by omega, by omega, by omega⟩
    | succ i =>
      rw [hc.prev i _ h.timeline]
      obtain ⟨fuel, rfl⟩ : ∃ n, fuel = n + 1 := ⟨fuel - 1, by omega⟩
      have hlt := h.lt
      have hprev : chain[i]? = some chain[i] := List.getElem?_eq_getElem (by omega)
      have hprevLen := before_succ (s := s) hprev
      rw [hprev]
      have hentered : At s chain
          { tl with
            timeline := chain[i]
            index := (s.timeline chain[i]).events.length - (s.timeline chain[i]).baseIndex }
          i p := by
        refine ⟨hprev, ?_, (before_mono _ _ (Nat.le_succ i)).trans hlow, by omega⟩
        dsimp only
        omega
      obtain ⟨tl', j, c, hretreat, hcp, hat, hji, hcs, hinside, hend⟩ :=
        retreat_spec hc hsize fuel (by omega) hentered
      exact ⟨tl', j, c, hretreat, hcp, hat, by omega, hcs, hinside, hend⟩
termination_by fuel

/-! ## Windows in a chain -/

/-- A window that lies in a chain, from the place `p` in the `i`-th timeline to the place `q` in the
`j`-th one, and whose events are counted right. -/
structure Loaded (s : EventTimelineSet Event EventId Token) (chain : List ℕ) (w : TimelineWindow)
    (ends : WindowEnds) (i p j q : ℕ) : Prop where
  loaded : w.ends = some ends
  start : At s chain ends.start i p
  stop : At s chain ends.stop j q
  order : i ≤ j
  le : p ≤ q
  count : w.eventCount = (q : Int) - p

/-- A window lies somewhere in a chain, or it is not loaded yet. -/
def Placed (s : EventTimelineSet Event EventId Token) (w : TimelineWindow) : Prop :=
  (w.ends = none ∧ w.eventCount = 0) ∨
    ∃ chain, TimelineChain s chain ∧ (∀ t ∈ chain, t < s.created) ∧
      ∃ ends i p j q, Loaded s chain w ends i p j q

variable {w : TimelineWindow} {ends : WindowEnds}

/-- The loop of `unpaginate` takes events off at the start. -/
theorem unpaginateLoop_start (hc : TimelineChain s chain) {fuel : ℕ} (hfuel : chain.length ≤ fuel)
    (rounds : ℕ) {n : ℕ} {w : TimelineWindow} {ends : WindowEnds} {i p : ℕ} (hrounds : n ≤ rounds)
    (h : Loaded s chain w ends i p j q) (hn : p + n ≤ q) :
    ∃ w', w.unpaginateLoop s fuel true rounds n = some (w', .ok ()) ∧
      w'.windowLimit = w.windowLimit ∧ ∃ ends' i', Loaded s chain w' ends' i' (p + n) j q := by
  unfold unpaginateLoop
  by_cases hzero : n = 0
  · rw [if_pos (by omega), hzero]
    exact ⟨w, rfl, rfl, ends, i, h⟩
  · have hle := h.stop.le_length
    have hqhigh := h.stop.high
    have hpos : 0 < n := by omega
    obtain ⟨tl', i', c, hadvance, hat, -, hcn, hinside, hend⟩ :=
      advance_spec hc hpos fuel (by omega) h.start
    obtain ⟨rounds, rfl⟩ : ∃ k, rounds = k + 1 := ⟨rounds - 1, by omega⟩
    have hcpos : 0 < c := by
      rcases Nat.eq_zero_or_pos c with hc0 | hpos
      · exact absurd (hend hc0) (by omega)
      · exact hpos
    -- there are events up to the end, so the start has not got past its timeline
    have hij : i' ≤ j := by
      by_contra hnot
      have hbehind := before_mono s chain (show j + 1 ≤ i' by omega)
      have := hinside hcpos
      omega
    have hnext : Loaded s chain
        { w with ends := some { ends with start := tl' }, eventCount := w.eventCount - c }
        { ends with start := tl' } i' (p + c) j q := by
      refine ⟨rfl, hat, h.stop, hij, by omega, ?_⟩
      have := h.count
      dsimp only
      omega
    obtain ⟨w', hloop, hlimit, ends', i'', hloaded⟩ :=
      unpaginateLoop_start hc hfuel rounds (n := n - c) (by omega) hnext (by omega)
    refine ⟨w', ?_, hlimit, ends', i'', ?_⟩
    · have hstart : w.getTimelineIndex .backwards = some ends.start := by
        rw [getTimelineIndex, h.loaded]
        rfl
      have hset : w.setTimelineIndex .backwards tl' =
          { w with ends := some { ends with start := tl' } } := by
        rw [setTimelineIndex, h.loaded]
        rfl
      have hsub : ((n - c : ℕ) : Int) = n - c := by omega
      rw [if_neg (by omega)]
      simp only [if_pos]
      rw [hstart]
      dsimp only
      rw [hadvance]
      dsimp only
      rw [if_neg (by omega), hset, ← hsub]
      exact hloop
    · rw [show p + n = p + c + (n - c) by omega]
      exact hloaded
termination_by rounds

/-- The loop of `unpaginate` takes events off at the end. -/
theorem unpaginateLoop_stop (hc : TimelineChain s chain) {fuel : ℕ} (hfuel : chain.length ≤ fuel)
    (rounds : ℕ) {n : ℕ} {w : TimelineWindow} {ends : WindowEnds} {j q : ℕ} (hrounds : n ≤ rounds)
    (h : Loaded s chain w ends i p j q) (hn : p + n ≤ q) :
    ∃ w', w.unpaginateLoop s fuel false rounds n = some (w', .ok ()) ∧
      w'.windowLimit = w.windowLimit ∧ ∃ ends' j', Loaded s chain w' ends' i p j' (q - n) := by
  unfold unpaginateLoop
  by_cases hzero : n = 0
  · rw [if_pos (by omega), hzero]
    exact ⟨w, rfl, rfl, ends, j, h⟩
  · have hpos : 0 < n := by omega
    have hplow := h.start.low
    have hlt := h.stop.lt
    obtain ⟨tl', j', c, hretreat, hcq, hat, -, hcn, hinside, hend⟩ :=
      retreat_spec hc hpos fuel (by omega) h.stop
    obtain ⟨rounds, rfl⟩ : ∃ k, rounds = k + 1 := ⟨rounds - 1, by omega⟩
    have hcpos : 0 < c := by
      rcases Nat.eq_zero_or_pos c with hc0 | hpos
      · exact absurd (hend hc0) (by omega)
      · exact hpos
    -- there are events from the start on, so the end has not got before its timeline
    have hij : i ≤ j' := by
      by_contra hnot
      have hbefore := before_mono s chain (show j' + 1 ≤ i by omega)
      have := hinside hcpos
      omega
    have hnext : Loaded s chain
        { w with ends := some { ends with stop := tl' }, eventCount := w.eventCount - c }
        { ends with stop := tl' } i p j' (q - c) := by
      refine ⟨rfl, h.start, hat, hij, by omega, ?_⟩
      have := h.count
      dsimp only
      omega
    obtain ⟨w', hloop, hlimit, ends', j'', hloaded⟩ :=
      unpaginateLoop_stop hc hfuel rounds (n := n - c) (by omega) hnext (by omega)
    refine ⟨w', ?_, hlimit, ends', j'', ?_⟩
    · have hstop : w.getTimelineIndex .forwards = some ends.stop := by
        rw [getTimelineIndex, h.loaded]
        rfl
      have hset : w.setTimelineIndex .forwards tl' =
          { w with ends := some { ends with stop := tl' } } := by
        rw [setTimelineIndex, h.loaded]
        rfl
      have hsub : ((n - c : ℕ) : Int) = n - c := by omega
      rw [if_neg (by omega)]
      simp only [Bool.false_eq_true, if_false]
      rw [hstop]
      dsimp only
      rw [hretreat]
      dsimp only
      rw [if_neg (by omega), hset, ← hsub]
      exact hloop
    · rw [show q - n = q - c - (n - c) by omega]
      exact hloaded
termination_by rounds

/-- **Taking events off** a window that has so many. -/
theorem unpaginate_spec (hc : TimelineChain s chain) {fuel : ℕ} (hfuel : chain.length ≤ fuel)
    {n : ℕ} (startOfTimeline : Bool) (h : Loaded s chain w ends i p j q) (hn : p + n ≤ q) :
    ∃ w', w.unpaginate s fuel n startOfTimeline = some (w', .ok ()) ∧
      w'.windowLimit = w.windowLimit ∧ w'.eventCount = w.eventCount - n ∧
      ∃ ends' i' p' j' q', Loaded s chain w' ends' i' p' j' q' := by
  have hcount := h.count
  unfold unpaginate
  rw [if_neg (by omega), Int.toNat_natCast]
  cases startOfTimeline with
  | true =>
    obtain ⟨w', hloop, hlimit, ends', i', h'⟩ := unpaginateLoop_start hc hfuel n le_rfl h hn
    have hcount' := h'.count
    exact ⟨w', hloop, hlimit, by omega, ends', i', _, j, q, h'⟩
  | false =>
    obtain ⟨w', hloop, hlimit, ends', j', h'⟩ := unpaginateLoop_stop hc hfuel n le_rfl h hn
    have hcount' := h'.count
    exact ⟨w', hloop, hlimit, by omega, ends', i, p, j', _, h'⟩

/-- An end of the window moves outwards. -/
theorem moveEnd_spec (hc : TimelineChain s chain) {fuel : ℕ} (hfuel : chain.length ≤ fuel)
    (direction : Direction) (size : ℕ) (h : Loaded s chain w ends i p j q) {tl : TimelineIndex}
    (htl : w.getTimelineIndex direction = some tl) :
    ∃ tl', ∃ c : ℕ,
      (if direction = .backwards then tl.retreat s fuel size else tl.advance s fuel size) =
        some (tl', (c : Int)) ∧ ∃ ends' i' p' j' q', Loaded s chain
          { w.setTimelineIndex direction tl' with eventCount := w.eventCount + c }
          ends' i' p' j' q' := by
  have hcount := h.count
  have hle := h.le
  rw [getTimelineIndex, h.loaded] at htl
  simp only [setTimelineIndex, h.loaded, Option.map_some]
  rcases Nat.eq_zero_or_pos size with rfl | hpos
  · -- nothing moves
    refine ⟨tl, 0, ?_, ends, i, p, j, q, ?_⟩
    · unfold TimelineIndex.retreat TimelineIndex.advance
      cases direction <;> rfl
    · obtain rfl := Option.some.inj htl
      cases direction with
      | backwards => exact ⟨rfl, h.start, h.stop, h.order, h.le, by dsimp only; omega⟩
      | forwards => exact ⟨rfl, h.start, h.stop, h.order, h.le, by dsimp only; omega⟩
  · cases direction with
    | backwards =>
      obtain rfl := Option.some.inj htl
      have hlt := h.start.lt
      obtain ⟨tl', i', c, hretreat, hcp, hat, hij, -⟩ :=
        retreat_spec hc hpos fuel (by omega) h.start
      refine ⟨tl', c, hretreat, _, i', p - c, j, q, rfl, hat, h.stop, hij.trans h.order,
        by omega, ?_⟩
      dsimp only
      omega
    | forwards =>
      obtain rfl := Option.some.inj htl
      obtain ⟨tl', j', c, hadvance, hat, hij, -⟩ :=
        advance_spec hc hpos fuel (by omega) h.stop
      refine ⟨tl', c, hadvance, _, i, p, j', q + c, rfl, h.start, hat, h.order.trans hij,
        by omega, ?_⟩
      push_cast
      omega

/-- Events that are too many are taken off at the other end. -/
theorem trim_spec (hc : TimelineChain s chain) {fuel : ℕ} (hfuel : chain.length ≤ fuel)
    (direction : Direction) (h : Loaded s chain w ends i p j q) :
    ∃ w', (if w.eventCount - (w.windowLimit : Int) > 0 then
        (w.unpaginate s fuel (w.eventCount - (w.windowLimit : Int)) (direction ≠ .backwards)).map
          fun (w, thrown) => (w, thrown.map fun _ => true)
        else some (w, .ok true)) = some (w', .ok true) ∧ w'.windowLimit = w.windowLimit ∧
      w'.eventCount ≤ w'.windowLimit ∧
      ∃ ends' i' p' j' q', Loaded s chain w' ends' i' p' j' q' := by
  have hcount := h.count
  have hle := h.le
  split
  next hexcess =>
    obtain ⟨n, hn⟩ : ∃ n : ℕ, w.eventCount - (w.windowLimit : Int) = n :=
      ⟨(w.eventCount - (w.windowLimit : Int)).toNat, by omega⟩
    obtain ⟨w', hunpaginate, hlimit, hcount', hloaded⟩ :=
      unpaginate_spec hc hfuel (n := n) (direction ≠ .backwards) h (by omega)
    rw [hn, hunpaginate]
    exact ⟨w', rfl, hlimit, by omega, hloaded⟩
  next hexcess => exact ⟨w, rfl, rfl, by omega, ends, i, p, j, q, h⟩

/-- **Extending** a window in a chain. -/
theorem extend_spec (hc : TimelineChain s chain) {fuel : ℕ} (hfuel : chain.length ≤ fuel)
    (direction : Direction) (size : ℕ) (h : Loaded s chain w ends i p j q) :
    ∃ w' extended, w.extend s fuel direction size = some (w', .ok extended) ∧
      w'.windowLimit = w.windowLimit ∧
      (extended = true → w'.eventCount ≤ w'.windowLimit) ∧
      ∃ ends' i' p' j' q', Loaded s chain w' ends' i' p' j' q' := by
  obtain ⟨tl, htl⟩ : ∃ tl, w.getTimelineIndex direction = some tl := by
    rw [getTimelineIndex, h.loaded]
    exact ⟨_, rfl⟩
  obtain ⟨tl', c, hmove, ends', i', p', j', q', hmoved⟩ :=
    moveEnd_spec hc hfuel direction size h htl
  unfold extend
  rw [htl]
  dsimp only
  rw [hmove, Option.bind_some]
  by_cases hc0 : (c : Int) = 0
  · rw [if_pos hc0]
    refine ⟨_, false, rfl, rfl, Bool.false_ne_true.elim, ends', i', p', j', q', ?_⟩
    rw [hc0, Int.add_zero] at hmoved
    exact hmoved
  · rw [if_neg hc0]
    obtain ⟨w', htrim, hlimit, hcount, hloaded⟩ := trim_spec hc hfuel direction hmoved
    exact ⟨w', true, htrim, hlimit, fun _ => hcount, hloaded⟩

/-! ## The events of a window -/

theorem eventAt_slice {events : List Event} {a b : ℕ} (hb : b ≤ events.length) :
    ((List.range ((b : Int) - a).toNat).map fun i : ℕ => eventAt events (a + i)) =
      (slice events a b).map some := by
  have hlen : ((b : Int) - a).toNat = b - a := by omega
  apply List.ext_getElem?
  intro n
  rw [hlen, List.getElem?_map, List.getElem?_map, getElem?_slice]
  by_cases hn : a + n < b
  · have hcast : ((a : Int) + n).toNat = a + n := by omega
    rw [if_pos hn, List.getElem?_range (by omega), Option.map_some, eventAt,
      if_neg (by omega), hcast, List.getElem?_eq_getElem (by omega)]
    rfl
  · rw [if_neg hn, List.getElem?_eq_none (by rw [List.length_range]; omega)]
    rfl

/-- The loop of `getEvents` from the `n`-th timeline of the chain on. -/
theorem getEventsLoop_spec (hc : TimelineChain s chain) (h : Loaded s chain w ends i p j q)
    (fuel : ℕ) {n t : ℕ} (result : List (Option Event)) (hfuel : chain.length ≤ fuel + n + 1)
    (hin : i ≤ n) (hnj : n ≤ j) (hn : chain[n]? = some t) :
    getEventsLoop s ends fuel t result = some (.ok (result ++
      (slice (chainEvents s chain) (if n = i then p else before s chain n) q).map some)) := by
  obtain ⟨hi, hj⟩ := And.intro h.start.index h.stop.index
  have hlen := before_succ (s := s) hn
  have hqhigh := h.stop.high
  have hqlow := h.stop.low
  -- the first place in this timeline
  have hfirst : ∃ k : ℕ, k ≤ (s.timeline t).events.length ∧
      (if t = ends.start.timeline then ends.start.index + (s.timeline t).baseIndex else 0) = k ∧
      (if n = i then p else before s chain n) = before s chain n + k := by
    by_cases hni : n = i
    · have hti : t = ends.start.timeline :=
        Option.some.inj (hn.symm.trans (hni ▸ h.start.timeline))
      have hphigh := h.start.high
      have hplow := h.start.low
      rw [← hni] at hi hphigh hplow
      refine ⟨p - before s chain n, by omega, ?_, ?_⟩
      · rw [if_pos hti, hti]
        omega
      · rw [if_pos hni]
        omega
    · have hti : t ≠ ends.start.timeline := fun heq => hni
        (getElem?_inj hc.nodup hn (heq ▸ h.start.timeline))
      exact ⟨0, Nat.zero_le _, if_neg hti, if_neg hni⟩
  obtain ⟨k, hk, hstart, hplace⟩ := hfirst
  unfold getEventsLoop
  dsimp only
  rw [hstart, hplace]
  by_cases hnj' : n = j
  · have htj : t = ends.stop.timeline := Option.some.inj (hn.symm.trans (hnj' ▸ h.stop.timeline))
    rw [← hnj'] at hj hqlow hqhigh
    have hstop : ends.stop.index + (s.timeline t).baseIndex = ((q - before s chain n : ℕ) : Int) := by
      rw [htj]
      omega
    rw [if_pos htj, if_pos htj, hstop, eventAt_slice (by omega)]
    have hslice : slice (chainEvents s chain) (before s chain n + k)
        (before s chain n + (q - before s chain n)) =
          slice (timelineEvents s t) k (q - before s chain n) :=
      slice_segment hn (by unfold timelineEvents; omega)
    rw [show before s chain n + (q - before s chain n) = q by omega] at hslice
    rw [hslice]
    rfl
  · have htj : t ≠ ends.stop.timeline := fun heq => hnj'
      (getElem?_inj hc.nodup hn (heq ▸ h.stop.timeline))
    have hlt := h.stop.lt
    have hnext : chain[n + 1]? = some chain[n + 1] := List.getElem?_eq_getElem (by omega)
    obtain ⟨fuel, rfl⟩ : ∃ m, fuel = m + 1 := ⟨fuel - 1, by omega⟩
    have hbehind : before s chain (n + 1) ≤ q :=
      (before_mono _ _ (by omega)).trans hqlow
    rw [if_neg htj, if_neg htj, eventAt_slice le_rfl, hc.next n t hn, hnext]
    dsimp only
    rw [getEventsLoop_spec hc h fuel _ (by omega) (by omega) (by omega) hnext, if_neg (by omega)]
    have hslice : slice (chainEvents s chain) (before s chain n + k) q =
        slice (timelineEvents s t) k (timelineEvents s t).length ++
          slice (chainEvents s chain) (before s chain (n + 1)) q :=
      slice_cons_segment hn hk hbehind
    rw [hslice, List.map_append, List.append_assoc]
    rfl
termination_by fuel

/-- **What a window shows**: the events between its ends. -/
theorem getEvents_spec (hc : TimelineChain s chain) (h : Loaded s chain w ends i p j q) {fuel : ℕ}
    (hfuel : chain.length ≤ fuel) :
    w.getEvents s fuel = some (.ok ((slice (chainEvents s chain) p q).map some)) := by
  have hloop := getEventsLoop_spec hc h fuel [] (by omega) le_rfl h.order
    h.start.timeline
  rw [if_pos rfl, List.nil_append] at hloop
  rw [getEvents, h.loaded]
  exact hloop

/-- **Loading** puts the window into one timeline. -/
theorem initFields_spec [DecidableEq EventId] {getId : Event → EventId}
    (hi : chain[i]? = some t) {initialEventId : Option EventId} {initialWindowSize : ℕ}
    {w' : TimelineWindow}
    (hok : w.initFields getId s t initialEventId initialWindowSize = .ok w') :
    w'.windowLimit = w.windowLimit ∧ ∃ ends' p' q', Loaded s chain w' ends' i p' i q' := by
  have hlen := before_succ (s := s) hi
  unfold initFields at hok
  dsimp only at hok
  split at hok
  · exact nomatch hok
  next eventIndex _ =>
    obtain rfl := Except.ok.inj hok
    generalize hstop : min (s.timeline t).events.length
      (eventIndex + ((if initialWindowSize = 0 then 20 else initialWindowSize) + 1) / 2) = stopIndex
    generalize hstart : stopIndex -
      (if initialWindowSize = 0 then 20 else initialWindowSize) = startIndex
    have hle : stopIndex ≤ (s.timeline t).events.length := hstop ▸ Nat.min_le_left ..
    have hle' : startIndex ≤ stopIndex := hstart ▸ Nat.sub_le ..
    refine ⟨rfl, _, before s chain i + startIndex, before s chain i + stopIndex, rfl,
      ⟨hi, ?_, by omega, by omega⟩, ⟨hi, ?_, by omega, by omega⟩, le_rfl, by omega, ?_⟩
    all_goals
      dsimp only
      omega

end MatrixSdk.Models
