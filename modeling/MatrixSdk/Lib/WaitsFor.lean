/-
Waits-for relations between the parties of a concurrent program.

`r a b` says that `a` is blocked until `b` does something. Some parties block each
other when there is a finite set of them each of which waits for another of the
set; for an acyclic relation there is none. A relation stays acyclic when waits
are dropped, and when a wait is added that does not lead back to who begins it.
A relation along which a rank increases has always been acyclic.
-/
import Mathlib.Logic.Relation
import Mathlib.Data.Fintype.Card
import Mathlib.Order.WellFounded
import Mathlib.Order.RelClasses
import Mathlib.Data.Fintype.EquivFin

set_option autoImplicit false

namespace MatrixSdk.Lib

open Relation

universe u

variable {α : Type u} {r r' : α → α → Prop}

/-- Nobody waits, through others, for himself. -/
def Acyclic (r : α → α → Prop) : Prop := ∀ a, ¬ TransGen r a a

/-- A finite set of parties each of which waits for one of the set. -/
def MutuallyWaiting (r : α → α → Prop) (X : Finset α) : Prop :=
  X.Nonempty ∧ ∀ a ∈ X, ∃ b ∈ X, r a b

namespace Acyclic

/-- Dropping waits closes no cycle. -/
theorem mono (h : Acyclic r) (hsub : ∀ a b, r' a b → r a b) : Acyclic r' :=
  fun a hcycle => h a (hcycle.lift id hsub)

/-- A wait of `c` for `o` closes no cycle if `o` does not wait, through others, for `c`. -/
theorem insert {c o : α} (h : Acyclic r) (hnew : ∀ a b, r' a b → r a b ∨ (a = c ∧ b = o))
    (hback : ¬ ReflTransGen r o c) : Acyclic r' := by
  -- a chain that uses the new wait does so once, since it cannot come back to `c`
  have hsplit : ∀ a b, TransGen r' a b →
      TransGen r a b ∨ (ReflTransGen r a c ∧ ReflTransGen r o b) := by
    intro a b hab
    induction hab with
    | single hstep =>
      rcases hnew _ _ hstep with hold | ⟨rfl, rfl⟩
      · exact .inl (.single hold)
      · exact .inr ⟨.refl, .refl⟩
    | tail _ hstep ih =>
      rcases hnew _ _ hstep with hold | ⟨rfl, rfl⟩
      · rcases ih with hchain | ⟨hac, hob⟩
        · exact .inl (hchain.tail hold)
        · exact .inr ⟨hac, hob.tail hold⟩
      · rcases ih with hchain | ⟨_, hoc⟩
        · exact .inr ⟨hchain.to_reflTransGen, .refl⟩
        · exact absurd hoc hback
  intro a hcycle
  rcases hsplit a a hcycle with hchain | ⟨hac, hoa⟩
  · exact h a hchain
  · exact hback (hoa.trans hac)

/-- A rank that increases from each party to the one it waits for, if that one waits. -/
theorem of_rank (f : α → ℕ) (hf : ∀ a b d, r a b → r b d → f a < f b) : Acyclic r := by
  have hchain : ∀ a b, TransGen r a b → ∀ d, r b d → f a < f b := by
    intro a b hab
    induction hab with
    | single hstep =>
      intro d hd
      exact hf _ _ d hstep hd
    | tail _ hstep ih =>
      intro d hd
      exact Nat.lt_trans (ih _ hstep) (hf _ _ d hstep hd)
  intro a hcycle
  obtain ⟨d, hd, _⟩ := TransGen.head'_iff.1 hcycle
  exact absurd (hchain a a hcycle d hd) (Nat.lt_irrefl _)

/-- **No mutual waiting** in an acyclic relation. -/
theorem not_mutuallyWaiting (h : Acyclic r) (X : Finset α) : ¬ MutuallyWaiting r X := by
  rintro ⟨⟨a, ha⟩, hX⟩
  -- on the finite set, waiting through others is well founded, so somebody waits for nobody
  let later : X → X → Prop := fun b a => TransGen r a.1 b.1
  have htrans : IsTrans X later := ⟨fun _ _ _ hab hbc => TransGen.trans hbc hab⟩
  have hirrefl : Std.Irrefl later := ⟨fun a => h a.1⟩
  have hwf : WellFounded later := Finite.wellFounded_of_trans_of_irrefl later
  obtain ⟨m, _, hmin⟩ := hwf.has_min Set.univ ⟨⟨a, ha⟩, trivial⟩
  obtain ⟨b, hb, hmb⟩ := hX m.1 m.2
  exact hmin ⟨b, hb⟩ trivial (.single hmb)

end Acyclic

end MatrixSdk.Lib
