/-
Lists made of batches that begin with a mark.

Who reads such a list from some place on up to the first mark comes to the beginning of a batch. So
a list that is cut there is made of batches again, of the last ones.
-/
import Mathlib.Data.List.TakeWhile

set_option autoImplicit false

namespace MatrixSdk.Lib

universe u

variable {A : Type u} {marked : A → Bool} {batch : List A} {batches : List (List A)}

/-- Only the first element of the batch is marked. -/
def Headed (marked : A → Bool) (batch : List A) : Prop :=
  ∀ a rest, batch = a :: rest → marked a = true ∧ ∀ x ∈ rest, marked x = false

/-- What is not marked is dropped. -/
theorem dropWhile_of_unmarked {l : List A} (hl : ∀ x ∈ l, marked x = false) (l' : List A) :
    (l ++ l').dropWhile (fun x => !marked x) = l'.dropWhile fun x => !marked x := by
  apply List.dropWhile_append_of_pos
  intro x hx
  rw [hl x hx]
  rfl

/-- A batch that is cut into has no mark left. -/
theorem Headed.drop (h : Headed marked batch) {n : ℕ} (hn : 0 < n) :
    ∀ x ∈ batch.drop n, marked x = false := by
  intro x hx
  cases batch with
  | nil => exact absurd (List.mem_of_mem_drop hx) List.not_mem_nil
  | cons a rest =>
    obtain ⟨m, rfl⟩ : ∃ m, n = m + 1 := ⟨n - 1, by omega⟩
    rw [List.drop_succ_cons] at hx
    exact (h a rest rfl).2 x (List.mem_of_mem_drop hx)

/-- **From a place on, the first mark begins a batch.** -/
theorem cut_batches (h : ∀ batch ∈ batches, Headed marked batch) (n : ℕ) :
    ∃ dropped kept, batches = dropped ++ kept ∧
      (batches.flatten.drop n).dropWhile (fun x => !marked x) = kept.flatten := by
  induction batches generalizing n with
  | nil => exact ⟨[], [], rfl, by simp⟩
  | cons batch batches ih =>
    have hrest := ih fun b hb => h b (List.mem_cons_of_mem batch hb)
    have hhead := h batch List.mem_cons_self
    rw [List.flatten_cons, List.drop_append]
    by_cases hzero : n = 0
    · subst hzero
      rw [List.drop_zero, Nat.zero_sub, List.drop_zero]
      cases batch with
      | nil =>
        obtain ⟨dropped, kept, heq, hcut⟩ := hrest 0
        rw [List.drop_zero] at hcut
        exact ⟨[] :: dropped, kept, by rw [heq, List.cons_append], hcut⟩
      | cons a rest =>
        -- the list begins with a mark
        refine ⟨[], (a :: rest) :: batches, rfl, ?_⟩
        rw [List.cons_append, List.dropWhile_cons_of_neg (by rw [(hhead a rest rfl).1]; simp),
          List.flatten_cons, List.cons_append]
    · obtain ⟨dropped, kept, heq, hcut⟩ := hrest (n - batch.length)
      refine ⟨batch :: dropped, kept, by rw [heq, List.cons_append], ?_⟩
      rw [dropWhile_of_unmarked (hhead.drop (by omega)), hcut]

/-- Something is kept if a batch begins in what is read. -/
theorem cut_ne_nil (hbatch : batch ≠ []) (h : Headed marked batch) {l : List A} {n : ℕ}
    (hn : n ≤ l.length) : ((l ++ batch).drop n).dropWhile (fun x => !marked x) ≠ [] := by
  intro hnil
  obtain ⟨a, rest, rfl⟩ := List.exists_cons_of_ne_nil hbatch
  have hmem : a ∈ (l ++ a :: rest).drop n := by
    rw [List.drop_append_of_le_length hn]
    exact List.mem_append_right _ List.mem_cons_self
  have hunmarked := List.dropWhile_eq_nil_iff.1 hnil a hmem
  rw [(h a rest rfl).1] at hunmarked
  exact nomatch hunmarked

end MatrixSdk.Lib
