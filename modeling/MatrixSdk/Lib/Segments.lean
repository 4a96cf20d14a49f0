/-
Contiguous segments of a list without duplicates.

The list is a total order of its elements and a segment is a contiguous sublist,
`seg <:+: L`. An element occurs at one place only, so a list is cut in one way
around it ([`cut_unique`]). From this follow the facts about what lies right
beyond the end of a segment: what comes after a member is a member or extends the
segment, and a second segment that has the next element begins with it.

Everything is stated for the end of a segment. The same facts about its beginning
are the same facts about the reversed lists.
-/
import Mathlib.Data.List.Nodup
import Mathlib.Data.List.Infix

set_option autoImplicit false

namespace MatrixSdk.Lib

universe u

variable {α : Type u} {L seg seg' p : List α} {x y z e : α}

/-- `e` comes before `f` in `L`. -/
def Before (L : List α) (e f : α) : Prop := [e, f].Sublist L

instance [DecidableEq α] (L : List α) (e f : α) : Decidable (Before L e f) :=
  inferInstanceAs (Decidable ([e, f].Sublist L))

/-! ## One place for each element -/

/-- **One cut.** A list without duplicates is cut in one way around an element. -/
theorem cut_unique {a b c d : List α} (hL : (a ++ x :: b).Nodup)
    (h : a ++ x :: b = c ++ x :: d) : a = c ∧ b = d := by
  rw [List.nodup_middle, List.nodup_cons] at hL
  rcases List.append_eq_append_iff.1 h with ⟨m, hc, hm⟩ | ⟨m, ha, hm⟩
  · cases m with
    | nil =>
      obtain rfl : b = d := by simpa using hm
      exact ⟨by simpa using hc.symm, rfl⟩
    | cons y m =>
      obtain ⟨rfl, rfl⟩ : x = y ∧ b = m ++ x :: d := by simpa using hm
      exact absurd (by simp) hL.1
  · cases m with
    | nil =>
      obtain rfl : d = b := by simpa using hm
      exact ⟨by simpa using ha, rfl⟩
    | cons y m =>
      obtain ⟨rfl, rfl⟩ : x = y ∧ d = m ++ x :: b := by simpa using hm
      exact absurd (by simp [ha]) hL.1

theorem before_iff : Before L e x ↔ ∃ a b, L = a ++ e :: b ∧ x ∈ b := by
  unfold Before
  constructor
  · intro h
    obtain ⟨r₁, r₂, rfl, he, hx⟩ := List.cons_sublist_iff.1 h
    obtain ⟨a, b, rfl⟩ := List.append_of_mem he
    refine ⟨a, b ++ r₂, by simp, List.mem_append_right b ?_⟩
    exact List.singleton_sublist.1 hx
  · rintro ⟨a, b, rfl, hx⟩
    exact ((List.singleton_sublist.2 hx).cons_cons e).trans (List.sublist_append_right a _)

theorem Before.mem_left (h : Before L e x) : e ∈ L := h.subset (by simp)

theorem Before.mem_right (h : Before L e x) : x ∈ L := h.subset (by simp)

theorem before_reverse : Before L.reverse e x ↔ Before L x e := by
  unfold Before
  rw [← List.reverse_sublist, List.reverse_reverse]
  rfl

/-- What comes after `e`, once `L` is cut there. -/
theorem before_cut {a b : List α} (hL : (a ++ e :: b).Nodup) :
    Before (a ++ e :: b) e x ↔ x ∈ b := by
  rw [before_iff]
  constructor
  · rintro ⟨c, d, h, hx⟩
    rw [(cut_unique hL h).2]
    exact hx
  · exact fun hx => ⟨a, b, rfl, hx⟩

theorem Before.trans (hL : L.Nodup) (h : Before L e z) (h' : Before L z x) : Before L e x := by
  obtain ⟨a, b, rfl, hz⟩ := before_iff.1 h
  obtain ⟨c, d, rfl⟩ := List.append_of_mem hz
  have hcut : a ++ e :: (c ++ z :: d) = (a ++ e :: c) ++ z :: d := by simp
  rw [hcut] at h' hL
  have hx := (before_cut hL).1 h'
  rw [← hcut] at hL
  exact (before_cut hL).2 (by simp [hx])

theorem Before.irrefl (hL : L.Nodup) : ¬ Before L e e := by
  intro h
  obtain ⟨a, b, rfl, he⟩ := before_iff.1 h
  rw [List.nodup_middle, List.nodup_cons] at hL
  exact hL.1 (List.mem_append_right a he)

/-- What comes later in a run comes later. -/
theorem before_of_run (hrun : x :: p <:+: L) (he : e ∈ p) : Before L x e :=
  ((List.singleton_sublist.2 he).cons_cons x).trans hrun.sublist

/-- What is before a place comes before what is beyond it. -/
theorem before_of_take_drop {n : ℕ} (hx : x ∈ L.take n) (he : e ∈ L.drop n) : Before L x e := by
  have hboth : ([x] ++ [e]).Sublist (L.take n ++ L.drop n) :=
    (List.singleton_sublist.2 hx).append (List.singleton_sublist.2 he)
  rw [List.take_append_drop] at hboth
  exact hboth

/-- A segment lies where its first element does. -/
theorem prefix_drop_of_head (hL : L.Nodup) (hseg : seg <:+: L) (hx : seg.head? = some x) {n : ℕ}
    (hn : L[n]? = some x) : seg <+: L.drop n := by
  obtain ⟨a, b, hab⟩ := hseg
  obtain ⟨t, ht⟩ := List.head?_eq_some_iff.1 hx
  have hcut : L = a ++ (seg ++ b) := by rw [← hab, List.append_assoc]
  have ha : L[a.length]? = some x := by
    rw [hcut, ht, List.getElem?_append_right (Nat.le_refl _)]
    simp
  have hlt : a.length < L.length := (List.getElem?_eq_some_iff.1 ha).1
  have heq : a.length = n := (List.getElem?_inj hlt hL).1 (ha.trans hn.symm)
  rw [← heq, hcut, List.drop_left]
  exact List.prefix_append seg b

/-- What is on both sides of a place. -/
theorem not_mem_take_drop (hL : L.Nodup) {n : ℕ} (htake : x ∈ L.take n) : x ∉ L.drop n := fun hdrop =>
  Before.irrefl hL (before_of_take_drop htake hdrop)

/-- A run that begins at a place, seen from its first element. -/
theorem getElem?_of_prefix_drop {n : ℕ} (h : seg <+: L.drop n) (hx : seg.head? = some x) :
    L[n]? = some x := by
  obtain ⟨t, ht⟩ := List.head?_eq_some_iff.1 hx
  obtain ⟨b, hb⟩ := h
  rw [← List.head?_drop, ← hb, ht]
  rfl

/-- A run that begins at a place lies before the place where it ends. -/
theorem take_of_prefix_drop {n : ℕ} (h : seg <+: L.drop n) :
    L.take (n + seg.length) = L.take n ++ seg := by
  rw [List.take_add, ← List.prefix_iff_eq_take.1 h]

/-! ## Right beyond the end -/

/-- What comes after a member of a segment is a member or extends it. -/
theorem mem_or_extends (hL : L.Nodup) (hseg : seg <:+: L) (hx : x ∈ seg) (hxy : [x, y] <:+: L) :
    y ∈ seg ∨ seg ++ [y] <:+: L := by
  obtain ⟨a, b, rfl⟩ := hseg
  obtain ⟨s, t, rfl⟩ := List.append_of_mem hx
  obtain ⟨c, d, h⟩ := hxy
  have hcut : a ++ (s ++ x :: t) ++ b = (a ++ s) ++ x :: (t ++ b) := by simp
  have h' : (a ++ s) ++ x :: (t ++ b) = c ++ x :: (y :: d) := by
    rw [← hcut, ← h]
    simp
  have hbd := (cut_unique (hcut ▸ hL) h').2
  cases t with
  | nil =>
    right
    rw [List.nil_append] at hbd
    exact ⟨a, d, by simp [hbd]⟩
  | cons z t =>
    left
    obtain ⟨rfl, _⟩ : z = y ∧ _ := by simpa using hbd
    simp

/-- Two disjoint segments, the second with what extends the first, are adjacent. -/
theorem adjacent_of_extends (hL : L.Nodup) (hne : seg ≠ []) (hext : seg ++ [x] <:+: L)
    (hseg' : seg' <:+: L) (hx : x ∈ seg') (hdisj : seg.Disjoint seg') : seg ++ seg' <:+: L := by
  obtain ⟨a, b, rfl⟩ := hext
  obtain ⟨s, t, rfl⟩ := List.append_of_mem hx
  obtain ⟨c, d, h⟩ := hseg'
  have hcut : a ++ (seg ++ [x]) ++ b = (a ++ seg) ++ x :: b := by simp
  have h' : (a ++ seg) ++ x :: b = (c ++ s) ++ x :: (t ++ d) := by
    rw [← hcut, ← h]
    simp
  obtain ⟨hleft, hright⟩ := cut_unique (hcut ▸ hL) h'
  -- anything before `x` in the second segment would be the end of the first
  have hs : s = [] := by
    by_contra hs
    have hlast := congrArg List.getLast? hleft
    rw [List.getLast?_append_of_ne_nil _ hne, List.getLast?_append_of_ne_nil _ hs,
      List.getLast?_eq_getLast_of_ne_nil hne, List.getLast?_eq_getLast_of_ne_nil hs,
      Option.some.injEq] at hlast
    refine hdisj (List.getLast_mem hne) ?_
    rw [hlast]
    exact List.mem_append_left _ (List.getLast_mem hs)
  subst hs
  refine ⟨a, d, ?_⟩
  simp [hright]

/-- An adjacent segment begins with what extends the first. -/
theorem mem_of_adjacent (hL : L.Nodup) (hne : seg ≠ []) (hext : seg ++ [x] <:+: L)
    (hne' : seg' ≠ []) (hadj : seg ++ seg' <:+: L) : x ∈ seg' := by
  obtain ⟨s, z, rfl⟩ : ∃ s z, seg = s ++ [z] := ⟨_, _, (List.dropLast_append_getLast hne).symm⟩
  obtain ⟨a, b, rfl⟩ := hext
  obtain ⟨c, d, h⟩ := hadj
  have hcut : a ++ (s ++ [z] ++ [x]) ++ b = (a ++ s) ++ z :: (x :: b) := by simp
  have h' : (a ++ s) ++ z :: (x :: b) = (c ++ s) ++ z :: (seg' ++ d) := by
    rw [← hcut, ← h]
    simp
  have hright := (cut_unique (hcut ▸ hL) h').2
  cases seg' with
  | nil => exact absurd rfl hne'
  | cons w t =>
    obtain ⟨rfl, _⟩ : x = w ∧ _ := by simpa using hright
    simp

/-- Two segments adjacent to the same one, on the same side, end with the same element. -/
theorem common_of_adjacent (hL : L.Nodup) (hne : seg ≠ []) (hp : p ≠ []) (hne' : seg' ≠ [])
    (hadj : p ++ seg <:+: L) (hadj' : seg' ++ seg <:+: L) : ∃ z ∈ p, z ∈ seg' := by
  obtain ⟨s, z, rfl⟩ : ∃ s z, p = s ++ [z] := ⟨_, _, (List.dropLast_append_getLast hp).symm⟩
  refine ⟨z, by simp, ?_⟩
  -- seen from the other side, both extend the common segment
  have hL' : L.reverse.Nodup := List.nodup_reverse.2 hL
  have hrev : seg.reverse ++ [z] <:+: L.reverse := by
    refine List.IsInfix.trans ⟨[], s.reverse, by simp⟩ (List.reverse_infix.2 hadj)
  have hrev' : seg.reverse ++ seg'.reverse <:+: L.reverse := by
    have h := List.reverse_infix.2 hadj'
    rwa [List.reverse_append] at h
  have hz := mem_of_adjacent hL' (by simpa using hne) hrev (by simpa using hne') hrev'
  exact List.mem_reverse.1 hz

/-- A segment that is adjacent on the other side stays adjacent to the extended one. -/
theorem adjacent_extend (hL : L.Nodup) (hne : seg ≠ []) (hadj : p ++ seg <:+: L)
    (hext : seg ++ [x] <:+: L) : p ++ (seg ++ [x]) <:+: L := by
  obtain ⟨s, z, rfl⟩ : ∃ s z, seg = s ++ [z] := ⟨_, _, (List.dropLast_append_getLast hne).symm⟩
  obtain ⟨a, b, rfl⟩ := hadj
  obtain ⟨c, d, h⟩ := hext
  have hcut : a ++ (p ++ (s ++ [z])) ++ b = (a ++ p ++ s) ++ z :: b := by simp
  have h' : (a ++ p ++ s) ++ z :: b = (c ++ s) ++ z :: (x :: d) := by
    rw [← hcut, ← h]
    simp
  have hright := (cut_unique (hcut ▸ hL) h').2
  exact ⟨a, d, by simp [hright]⟩

/-- What extends a segment comes after all of it. -/
theorem before_of_extends (hext : seg ++ [x] <:+: L) (he : e ∈ seg) : Before L e x :=
  (List.Sublist.append (List.singleton_sublist.2 he) (List.Sublist.refl [x])).trans hext.sublist

/-- What comes after a segment is what extends it, or comes after that. -/
theorem before_of_before_extends (hL : L.Nodup) (hne : seg ≠ []) (hext : seg ++ [x] <:+: L)
    (hafter : ∀ z ∈ seg, Before L z e) (hex : e ≠ x) : Before L x e := by
  obtain ⟨s, z, rfl⟩ : ∃ s z, seg = s ++ [z] := ⟨_, _, (List.dropLast_append_getLast hne).symm⟩
  have hze := hafter z (by simp)
  obtain ⟨a, b, rfl⟩ := hext
  have hcut : a ++ (s ++ [z] ++ [x]) ++ b = (a ++ s) ++ z :: (x :: b) := by simp
  have hcut' : a ++ (s ++ [z] ++ [x]) ++ b = (a ++ s ++ [z]) ++ x :: b := by simp
  rw [hcut] at hze
  have hmem := (before_cut (hcut ▸ hL)).1 hze
  rw [hcut']
  exact (before_cut (hcut' ▸ hL)).2 ((List.mem_cons.1 hmem).resolve_left hex)

/-- What comes before the element that extends a segment is the end of the segment. -/
theorem getLast_of_extends (hL : L.Nodup) (hne : seg ≠ []) (hext : seg ++ [y] <:+: L)
    (hxy : [x, y] <:+: L) : seg.getLast? = some x := by
  obtain ⟨s, z, rfl⟩ : ∃ s z, seg = s ++ [z] := ⟨_, _, (List.dropLast_append_getLast hne).symm⟩
  obtain ⟨a, b, rfl⟩ := hext
  obtain ⟨c, d, h⟩ := hxy
  have hcut : a ++ (s ++ [z] ++ [y]) ++ b = (a ++ s ++ [z]) ++ y :: b := by simp
  have h' : (a ++ s ++ [z]) ++ y :: b = (c ++ [x]) ++ y :: d := by
    rw [← hcut, ← h]
    simp
  have hleft := (cut_unique (hcut ▸ hL) h').1
  have hlast := congrArg List.getLast? hleft
  simpa using hlast

/-- What comes after the end of a segment comes after all of it. -/
theorem before_of_getLast (hL : L.Nodup) (hseg : seg <:+: L) (hlast : seg.getLast? = some x)
    (hxe : Before L x e) : ∀ z ∈ seg, Before L z e := by
  intro z hz
  obtain ⟨s, rfl⟩ := List.getLast?_eq_some_iff.1 hlast
  rcases List.mem_append.1 hz with hzs | hzx
  · exact (before_of_extends hseg hzs).trans hL hxe
  · rw [List.mem_singleton.1 hzx]
    exact hxe

/-- **A run that starts in a segment** stays in it before the end, or is cut there. -/
theorem run_cut (hL : L.Nodup) (hseg : seg <:+: L) {run : List α} (hrun : x :: run <:+: L)
    (hx : x ∈ seg) :
    (∀ e ∈ x :: run, e ∈ seg ∧ seg.getLast? ≠ some e) ∨
      ∃ a z b, x :: run = a ++ z :: b ∧ seg.getLast? = some z ∧ ∀ e ∈ a, e ∈ seg := by
  induction run generalizing x with
  | nil =>
    by_cases hlast : seg.getLast? = some x
    · exact .inr ⟨[], x, [], rfl, hlast, fun e he => absurd he List.not_mem_nil⟩
    · left
      intro e he
      rw [List.mem_singleton.1 he]
      exact ⟨hx, hlast⟩
  | cons y run ih =>
    by_cases hlast : seg.getLast? = some x
    · exact .inr ⟨[], x, y :: run, rfl, hlast, fun e he => absurd he List.not_mem_nil⟩
    · have hxy : [x, y] <:+: L := (List.prefix_append [x, y] run).isInfix.trans hrun
      have hy : y ∈ seg := by
        rcases mem_or_extends hL hseg hx hxy with hy | hext
        · exact hy
        · exact absurd (getLast_of_extends hL (List.ne_nil_of_mem hx) hext hxy) hlast
      rcases ih ((List.suffix_cons x _).isInfix.trans hrun) hy with hin | ⟨a, z, b, hab, hz, ha⟩
      · left
        intro e he
        rcases List.mem_cons.1 he with rfl | he
        · exact ⟨hx, hlast⟩
        · exact hin e he
      · refine .inr ⟨x :: a, z, b, by rw [hab]; rfl, hz, fun e he => ?_⟩
        rcases List.mem_cons.1 he with rfl | he
        · exact hx
        · exact ha e he

/-- A run that continues at the end of a segment continues the segment. -/
theorem append_of_run (hL : L.Nodup) (hseg : seg <:+: L) (hlast : seg.getLast? = some x)
    {run : List α} (hrun : x :: run <:+: L) : seg ++ run <:+: L := by
  obtain ⟨s, rfl⟩ := List.getLast?_eq_some_iff.1 hlast
  obtain ⟨a, b, rfl⟩ := hseg
  obtain ⟨c, d, h⟩ := hrun
  have hcut : a ++ (s ++ [x]) ++ b = (a ++ s) ++ x :: b := by simp
  have h' : (a ++ s) ++ x :: b = c ++ x :: (run ++ d) := by
    rw [← hcut, ← h]
    simp
  have hright := (cut_unique (hcut ▸ hL) h').2
  exact ⟨a, d, by simp [hright]⟩

end MatrixSdk.Lib
