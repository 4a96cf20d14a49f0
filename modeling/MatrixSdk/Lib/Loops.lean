/-
Loops over a list whose body may throw: `foldlM` in `Except`.

The state in which a body runs is not known from outside the loop, so a condition on the
iterations is a condition along the list ([`MeetsAlong`]). The rules say what holds of the outcome,
be it the state at the end or what is left when the body throws ([`Outcome`]).
-/
import Mathlib.Logic.Basic

set_option autoImplicit false

namespace MatrixSdk.Lib

universe u

variable {σ α ε : Type u} {f : σ → α → Except ε σ} {C : σ → α → Prop} {I G : σ → Prop}
  {H : ε → Prop}

/-- `G` of the state there is in the end, or `H` of what is thrown. -/
def Outcome (G : σ → Prop) (H : ε → Prop) : Except ε σ → Prop
  | .ok s => G s
  | .error e => H e

/-- What returns after another computation has had its result. -/
theorem exists_of_bind_eq_ok {τ : Type u} {r : Except ε τ} {g : τ → Except ε σ} {s : σ}
    (h : r.bind g = .ok s) : ∃ t, r = .ok t ∧ g t = .ok s := by
  cases r with
  | error e => exact nomatch h
  | ok t => exact ⟨t, rfl, h⟩

theorem exists_of_map_eq_ok {τ : Type u} {r : Except ε τ} {g : τ → σ} {s : σ}
    (h : r.map g = .ok s) : ∃ t, r = .ok t ∧ g t = s := by
  cases r with
  | error e => exact nomatch h
  | ok t => exact ⟨t, rfl, Except.ok.inj h⟩

/-- Each iteration of the loop that is reached meets the condition `C` on the state before it and
the element. -/
def MeetsAlong (f : σ → α → Except ε σ) (C : σ → α → Prop) : List α → σ → Prop
  | [], _ => True
  | a :: as, s => C s a ∧ ∀ s', f s a = .ok s' → MeetsAlong f C as s'

theorem outcome_map {τ : Type u} {g : τ → σ} {r : Except ε τ} :
    Outcome G H (r.map g) ↔ Outcome (fun s => G (g s)) H r := by
  cases r with
  | error e => exact Iff.rfl
  | ok s => exact Iff.rfl

theorem Outcome.mono {G' : σ → Prop} {H' : ε → Prop} {r : Except ε σ} (h : Outcome G H r)
    (hG : ∀ s, G s → G' s) (hH : ∀ e, H e → H' e) : Outcome G' H' r := by
  cases r with
  | error e => exact hH e h
  | ok s => exact hG s h

/-- What the first iteration throws is thrown; otherwise the loop goes on. -/
theorem outcome_foldlM_cons {a : α} {as : List α} {s : σ} :
    Outcome G H ((a :: as).foldlM f s) ↔
      Outcome (fun s' => Outcome G H (as.foldlM f s')) H (f s a) := by
  rw [List.foldlM_cons]
  cases f s a with
  | error e => exact Iff.rfl
  | ok s' => exact Iff.rfl

/-- **The loop rule.** What each iteration preserves, or leaves when it throws, holds of the
outcome. -/
theorem outcome_foldlM (hstep : ∀ s a, G s → Outcome G H (f s a)) (as : List α) {s : σ}
    (hs : G s) : Outcome G H (as.foldlM f s) := by
  induction as generalizing s with
  | nil => exact hs
  | cons a as ih =>
    rw [outcome_foldlM_cons]
    have hfirst := hstep s a hs
    cases hf : f s a with
    | error e =>
      rw [hf] at hfirst
      exact hfirst
    | ok s' =>
      rw [hf] at hfirst
      exact ih hfirst

/-- **The exactness rule for loops.** If, where `I` holds, an iteration from a state with `G` has a
good outcome exactly when it meets `C`, and one from a state without `G` never has, then the loop has
a good outcome exactly when its iterations meet `C`. -/
theorem outcome_foldlM_iff (hI : ∀ s a s', I s → f s a = .ok s' → I s')
    (hstep : ∀ s a, I s → G s → (Outcome G H (f s a) ↔ C s a))
    (hbad : ∀ s a, I s → ¬ G s → ¬ Outcome G H (f s a)) (as : List α) {s : σ} (hs : I s)
    (hG : G s) : Outcome G H (as.foldlM f s) ↔ MeetsAlong f C as s := by
  -- what is bad stays bad
  have hstays : ∀ (as : List α) (s : σ), I s → ¬ G s → ¬ Outcome G H (as.foldlM f s) := by
    intro as
    induction as with
    | nil => exact fun s _ hbad => hbad
    | cons a as ih =>
      intro s hs hG hgood
      rw [outcome_foldlM_cons] at hgood
      have hfirst := hbad s a hs hG
      cases hf : f s a with
      | error e =>
        rw [hf] at hgood hfirst
        exact hfirst hgood
      | ok s' =>
        rw [hf] at hgood hfirst
        exact ih s' (hI s a s' hs hf) hfirst hgood
  induction as generalizing s with
  | nil => exact iff_of_true hG trivial
  | cons a as ih =>
    rw [outcome_foldlM_cons]
    have hfirst := hstep s a hs hG
    cases hf : f s a with
    | error e =>
      rw [hf] at hfirst
      constructor
      · intro hgood
        exact ⟨hfirst.1 hgood, fun s' heq => nomatch hf.symm.trans heq⟩
      · intro hmeets
        exact hfirst.2 hmeets.1
    | ok s' =>
      rw [hf] at hfirst
      have hs' : I s' := hI s a s' hs hf
      constructor
      · intro hgood
        have hG' : G s' := Classical.byContradiction fun hG' => hstays as s' hs' hG' hgood
        refine ⟨hfirst.1 hG', fun s'' heq => ?_⟩
        obtain rfl := Except.ok.inj (hf.symm.trans heq)
        exact (ih hs' hG').1 hgood
      · intro hmeets
        exact (ih hs' (hfirst.2 hmeets.1)).2 (hmeets.2 s' hf)

/-! ## Nested loops -/

/-- A loop in a loop is one loop over all the elements. -/
theorem foldlM_flatMap {m : Type u → Type u} [Monad m] [LawfulMonad m] {β : Type u}
    (f : σ → β → m σ) (g : α → List β) (as : List α) (s : σ) :
    (as.flatMap g).foldlM f s = as.foldlM (fun s a => (g a).foldlM f s) s := by
  induction as generalizing s with
  | nil => rfl
  | cons a as ih =>
    rw [List.flatMap_cons, List.foldlM_append, List.foldlM_cons]
    exact bind_congr ih

end MatrixSdk.Lib
