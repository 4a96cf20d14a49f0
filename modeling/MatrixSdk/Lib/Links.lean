/-
Following links: a partial function from each thing to the next one.

A walk along the links looks for a target. It ends if the links of finitely many things form no
cycle ([`walk_terminates`]). Two functions that are each other's inverse are links there and back.
-/
import MatrixSdk.Lib.WaitsFor
import Mathlib.Data.Finset.Filter
import Mathlib.Data.Finset.Lattice.Fold
import Mathlib.Data.Finset.Prod
import Mathlib.Order.Interval.Finset.Nat

set_option autoImplicit false

namespace MatrixSdk.Lib

open Relation

universe u

/-- `b` is what `a` is linked to. -/
def Linked {α : Type u} (link : α → Option α) (a b : α) : Prop := link a = some b

instance {α : Type u} [DecidableEq α] (link : α → Option α) (a b : α) :
    Decidable (Linked link a b) :=
  inferInstanceAs (Decidable (link a = some b))

/-- Follow the links from a thing, if there is one, until the target is found or there are no
more; at most `fuel` links. -/
def walk {α : Type u} [DecidableEq α] (link : α → Option α) (target : α) :
    ℕ → Option α → Option Bool
  | _, none => some false
  | 0, some _ => none
  | fuel + 1, some a => if a = target then some true else walk link target fuel (link a)

variable {α : Type u}

/-- The same chains in the other direction. -/
theorem acyclic_swap {r r' : α → α → Prop} (hswap : ∀ a b, r a b ↔ r' b a) :
    Acyclic r ↔ Acyclic r' := by
  have hchain : ∀ {r r' : α → α → Prop}, (∀ a b, r a b ↔ r' b a) →
      ∀ a b, TransGen r a b → TransGen r' b a := by
    intro r r' hswap a b hab
    induction hab with
    | single hstep => exact .single ((hswap _ _).1 hstep)
    | tail _ hstep ih => exact .head ((hswap _ _).1 hstep) ih
  constructor
  · exact fun h a hcycle => h a (hchain (fun a b => (hswap b a).symm) a a hcycle)
  · exact fun h a hcycle => h a (hchain hswap a a hcycle)

/-- **A new link, exactly.** A link from `c`, which has none, to `o` closes a cycle if and only if
one gets from `o` to `c`. -/
theorem acyclic_link_iff {link link' : α → Option α} {c o : α} (h : Acyclic (Linked link))
    (hc : link c = none) (hnew : ∀ a, link' a = some o ∧ a = c ∨ link' a = link a ∧ a ≠ c) :
    Acyclic (Linked link') ↔ ¬ ReflTransGen (Linked link) o c := by
  constructor
  · intro h' hback
    have hlift : ReflTransGen (Linked link') o c := by
      refine hback.lift id fun a b hab => ?_
      rcases hnew a with ⟨_, rfl⟩ | ⟨hsame, _⟩
      · exact nomatch hc.symm.trans hab
      · exact hsame.trans hab
    have hlink : Linked link' c o := by
      rcases hnew c with ⟨hlink, _⟩ | ⟨_, hne⟩
      · exact hlink
      · exact absurd rfl hne
    exact h' c (.head' hlink hlift)
  · intro hback
    refine h.insert (fun a b hab => ?_) hback
    rcases hnew a with ⟨hlink, rfl⟩ | ⟨hsame, _⟩
    · exact .inr ⟨rfl, Option.some.inj (hab.symm.trans hlink)⟩
    · exact .inl (hsame.symm.trans hab)

/-- More fuel does no harm. -/
theorem walk_mono [DecidableEq α] {link : α → Option α} {target : α} {n m : ℕ} (hle : n ≤ m) :
    ∀ {start : Option α} {found : Bool}, walk link target n start = some found →
      walk link target m start = some found := by
  induction n generalizing m with
  | zero =>
    intro start found hwalk
    cases start with
    | none =>
      cases m with
      | zero => exact hwalk
      | succ m => exact hwalk
    | some a => exact nomatch hwalk
  | succ n ih =>
    intro start found hwalk
    obtain ⟨m, rfl⟩ : ∃ k, m = k + 1 := ⟨m - 1, by omega⟩
    cases start with
    | none => exact hwalk
    | some a =>
      rw [walk] at hwalk ⊢
      split
      next heq =>
        rw [if_pos heq] at hwalk
        exact hwalk
      next hne =>
        rw [if_neg hne] at hwalk
        exact ih (by omega) hwalk

/-- **What a walk finds**: the target, if the links lead there. -/
theorem walk_eq_some_iff [DecidableEq α] {link : α → Option α} {target : α} {fuel : ℕ} :
    ∀ {start : α} {found : Bool}, walk link target fuel (some start) = some found →
      (found = true ↔ ReflTransGen (Linked link) start target) := by
  induction fuel with
  | zero => exact fun h => nomatch h
  | succ fuel ih =>
    intro start found hwalk
    rw [walk] at hwalk
    split at hwalk
    next heq =>
      rw [← Option.some.inj hwalk, heq]
      exact iff_of_true rfl .refl
    next hne =>
      -- the next thing, if there is one, is the only one the links lead to
      cases hlink : link start with
      | none =>
        rw [hlink] at hwalk
        have hfound : found = false := by
          cases fuel with
          | zero => exact (Option.some.inj hwalk).symm
          | succ fuel => exact (Option.some.inj hwalk).symm
        rw [hfound]
        refine iff_of_false Bool.false_ne_true fun hreach => ?_
        rcases hreach.cases_head with heq | ⟨next, hnext, -⟩
        · exact hne heq
        · exact nomatch hlink.symm.trans hnext
      | some next =>
        rw [hlink] at hwalk
        rw [ih hwalk]
        constructor
        · exact fun hreach => .head hlink hreach
        · intro hreach
          rcases hreach.cases_head with heq | ⟨next', hnext, hreach⟩
          · exact absurd heq hne
          · obtain rfl := Option.some.inj (hlink.symm.trans hnext)
            exact hreach

/-- **Walks end** if the links form no cycle and lead to finitely many things. -/
theorem walk_terminates {link : ℕ → Option ℕ} {n : ℕ} (h : Acyclic (Linked link))
    (hbound : ∀ a b, link a = some b → a < n ∧ b < n) (target : ℕ) (start : Option ℕ) :
    ∃ fuel, (walk link target fuel start).isSome := by
  classical
  by_contra hnever
  -- the things from which a walk does not end: each is linked to another such
  let X : Finset ℕ := (Finset.range n).filter fun a =>
    ∀ fuel, walk link target fuel (some a) = none
  have hnext : ∀ a, (∀ fuel, walk link target fuel (some a) = none) →
      ∃ b, link a = some b ∧ ∀ fuel, walk link target fuel (some b) = none := by
    intro a ha
    have hstep : ∀ fuel, walk link target fuel (link a) = none := by
      intro fuel
      have hfuel := ha (fuel + 1)
      rw [walk] at hfuel
      split at hfuel
      · exact nomatch hfuel
      · exact hfuel
    cases hlink : link a with
    | none =>
      have hend := hstep 0
      rw [hlink] at hend
      exact nomatch hend
    | some b =>
      rw [hlink] at hstep
      exact ⟨b, rfl, hstep⟩
  have hX : ∀ a, (∀ fuel, walk link target fuel (some a) = none) → a ∈ X := by
    intro a ha
    obtain ⟨b, hlink, _⟩ := hnext a ha
    exact Finset.mem_filter.2 ⟨Finset.mem_range.2 (hbound a b hlink).1, ha⟩
  cases start with
  | none => exact hnever ⟨0, rfl⟩
  | some a =>
    have ha : ∀ fuel, walk link target fuel (some a) = none := by
      intro fuel
      rw [← Option.not_isSome_iff_eq_none]
      exact fun hsome => hnever ⟨fuel, hsome⟩
    refine h.not_mutuallyWaiting X ⟨⟨a, hX a ha⟩, fun c hc => ?_⟩
    obtain ⟨b, hlink, hb⟩ := hnext c (Finset.mem_filter.1 hc).2
    exact ⟨b, hX b hb, hlink⟩

/-- As many links are enough for every walk between things that are there. -/
theorem walk_terminates_all {link : ℕ → Option ℕ} {n : ℕ} (h : Acyclic (Linked link))
    (hbound : ∀ a b, link a = some b → a < n ∧ b < n) :
    ∃ fuel, ∀ a target, a < n → target < n → (walk link target fuel (some a)).isSome := by
  choose enough henough using fun a target => walk_terminates h hbound target (some a)
  refine ⟨(Finset.range n ×ˢ Finset.range n).sup fun p => enough p.1 p.2, fun a target ha ht => ?_⟩
  obtain ⟨found, hfound⟩ := Option.isSome_iff_exists.1 (henough a target)
  have hle : enough a target ≤ (Finset.range n ×ˢ Finset.range n).sup fun p => enough p.1 p.2 :=
    Finset.le_sup (f := fun p : ℕ × ℕ => enough p.1 p.2) (b := (a, target))
      (Finset.mem_product.2 ⟨Finset.mem_range.2 ha, Finset.mem_range.2 ht⟩)
  rw [walk_mono hle hfound]
  rfl

end MatrixSdk.Lib
