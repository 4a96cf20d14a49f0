/-
Places in a concatenation of lists.

`l.flatMap f` is a list of segments `f a` put one behind another. A place in it is named by the
segment, which is the `i`-th one, and an offset in it; [`offset`] is how many elements there are
before the segment. What there is between two places is a [`slice`]. The lemmas say how a slice is
read segment by segment, and what becomes of it when an element is taken out or put in.
-/
import Mathlib.Data.List.Nodup
import Mathlib.Logic.Function.Basic

set_option autoImplicit false

namespace MatrixSdk.Lib

universe u v

/-! ## Slices -/

section Slice

variable {α : Type u} {l : List α} {p q i : ℕ}

/-- The elements from the place `p` up to the place `q`. -/
def slice (l : List α) (p q : ℕ) : List α := (l.take q).drop p

theorem length_slice (hq : q ≤ l.length) : (slice l p q).length = q - p := by
  rw [slice, List.length_drop, List.length_take, Nat.min_eq_left hq]

theorem getElem?_slice : (slice l p q)[i]? = if p + i < q then l[p + i]? else none := by
  rw [slice, List.getElem?_drop, List.getElem?_take]

theorem slice_eq_take_drop : slice l p q = (l.drop p).take (q - p) := List.drop_take ..

theorem slice_infix : slice l p q <:+: l :=
  (List.drop_suffix p _).isInfix.trans (List.take_prefix q l).isInfix

theorem slice_self : slice l p p = [] := by
  rw [slice, List.drop_eq_nil_iff, List.length_take]
  exact Nat.min_le_left ..

/-- A slice of a list in the middle of others. -/
theorem slice_append {front back : List α} (hq : q ≤ l.length) :
    slice (front ++ (l ++ back)) (front.length + p) (front.length + q) = slice l p q := by
  apply List.ext_getElem?
  intro n
  rw [getElem?_slice, getElem?_slice]
  by_cases hlt : p + n < q
  · rw [if_pos (by omega), if_pos hlt, Nat.add_assoc, List.getElem?_append_right (by omega),
      Nat.add_sub_cancel_left, List.getElem?_append_left (by omega)]
  · rw [if_neg (by omega), if_neg hlt]

/-- A slice before the element that is taken out. -/
theorem slice_eraseIdx_of_le (h : q ≤ i) : slice (l.eraseIdx i) p q = slice l p q := by
  apply List.ext_getElem?
  intro n
  rw [getElem?_slice, getElem?_slice]
  split
  next hlt => rw [List.getElem?_eraseIdx_of_lt (by omega)]
  next => rfl

/-- A slice behind the element that is taken out. -/
theorem slice_eraseIdx_of_lt (h : i < p) : slice (l.eraseIdx i) (p - 1) (q - 1) = slice l p q := by
  apply List.ext_getElem?
  intro n
  rw [getElem?_slice, getElem?_slice]
  by_cases hlt : p + n < q
  · rw [if_pos hlt, if_pos (by omega), List.getElem?_eraseIdx_of_ge (by omega)]
    congr 1
    omega
  · rw [if_neg hlt, if_neg (by omega)]

/-- An element that occurs once is in a slice if its place is. -/
theorem mem_slice_iff {a : α} (hl : l.Nodup) (ha : l[i]? = some a) :
    a ∈ slice l p q ↔ p ≤ i ∧ i < q := by
  rw [List.mem_iff_getElem?]
  constructor
  · rintro ⟨n, hn⟩
    rw [getElem?_slice] at hn
    split at hn
    next hlt =>
      obtain ⟨hi, hai⟩ := List.getElem?_eq_some_iff.1 ha
      obtain ⟨hpn, hapn⟩ := List.getElem?_eq_some_iff.1 hn
      have heq : i = p + n := (List.Nodup.getElem_inj_iff hl).1 (hai.trans hapn.symm)
      omega
    next => exact nomatch hn
  · rintro ⟨hp, hq⟩
    refine ⟨i - p, ?_⟩
    rw [getElem?_slice, Nat.add_sub_cancel' hp, if_pos hq, ha]

end Slice

/-! ## Segments -/

section Offset

variable {ι : Type u} {α : Type v} (f : ι → List α) (l : List ι) {i j : ℕ} {a : ι}

/-- How many elements the segments before the `i`-th one have. -/
def offset (i : ℕ) : ℕ := ((l.take i).flatMap f).length

variable {f l}

theorem offset_succ (h : l[i]? = some a) : offset f l (i + 1) = offset f l i + (f a).length := by
  rw [offset, List.take_add_one, h, List.flatMap_append, List.length_append]
  simp [offset]

theorem offset_mono (h : i ≤ j) : offset f l i ≤ offset f l j := by
  obtain ⟨rest, hrest⟩ := List.take_prefix_take_left h (l := l)
  rw [offset, offset, ← hrest, List.flatMap_append, List.length_append]
  exact Nat.le_add_right ..

theorem offset_of_length_le (h : l.length ≤ i) : offset f l i = (l.flatMap f).length := by
  rw [offset, List.take_of_length_le h]

theorem offset_le (i : ℕ) : offset f l i ≤ (l.flatMap f).length := by
  rcases Nat.le_total l.length i with h | h
  · exact Nat.le_of_eq (offset_of_length_le h)
  · rw [← offset_of_length_le (Nat.le_refl l.length)]
    exact offset_mono h

/-- The segments from the `i`-th one on. -/
theorem drop_offset (i : ℕ) : (l.flatMap f).drop (offset f l i) = (l.drop i).flatMap f := by
  have hsplit : l.flatMap f = (l.take i).flatMap f ++ (l.drop i).flatMap f := by
    rw [← List.flatMap_append, List.take_append_drop]
  rw [hsplit, offset, List.drop_left]

/-- From a place in a segment one reads the rest of the segment, and then the segments behind. -/
theorem drop_offset_add (h : l[i]? = some a) {k : ℕ} (hk : k ≤ (f a).length) :
    (l.flatMap f).drop (offset f l i + k) =
      (f a).drop k ++ (l.flatMap f).drop (offset f l (i + 1)) := by
  obtain ⟨hi, ha⟩ := List.getElem?_eq_some_iff.1 h
  rw [← List.drop_drop, drop_offset, drop_offset, List.drop_eq_getElem_cons hi, ha,
    List.flatMap_cons, List.drop_append_of_le_length hk]

/-- An element of a segment, in the concatenation. -/
theorem getElem?_segment (h : l[i]? = some a) {k : ℕ} (hk : k < (f a).length) :
    (l.flatMap f)[offset f l i + k]? = (f a)[k]? := by
  have hdrop := drop_offset_add h (Nat.zero_le (f a).length)
  rw [Nat.add_zero, List.drop_zero] at hdrop
  rw [← List.getElem?_drop, hdrop, List.getElem?_append_left hk]

/-- A slice that ends in the segment it starts in. -/
theorem slice_segment (h : l[i]? = some a) {k k' : ℕ} (hk : k' ≤ (f a).length) :
    slice (l.flatMap f) (offset f l i + k) (offset f l i + k') = slice (f a) k k' := by
  rcases Nat.le_total k k' with hle | hle
  · rw [slice_eq_take_drop, slice_eq_take_drop, drop_offset_add h (Nat.le_trans hle hk),
      List.take_append_of_le_length (by rw [List.length_drop]; omega)]
    congr 1
    omega
  · rw [slice_eq_take_drop, slice_eq_take_drop, Nat.sub_eq_zero_of_le hle,
      Nat.sub_eq_zero_of_le (by omega), List.take_zero, List.take_zero]

/-- A slice that goes on behind the segment it starts in. -/
theorem slice_cons_segment (h : l[i]? = some a) {k p : ℕ} (hk : k ≤ (f a).length)
    (hp : offset f l (i + 1) ≤ p) :
    slice (l.flatMap f) (offset f l i + k) p =
      slice (f a) k (f a).length ++ slice (l.flatMap f) (offset f l (i + 1)) p := by
  have hlen := offset_succ (f := f) h
  have hall : ∀ {n}, (f a).length - k ≤ n → ((f a).drop k).take n = (f a).drop k :=
    fun hn => List.take_of_length_le (by rw [List.length_drop]; exact hn)
  rw [slice_eq_take_drop, slice_eq_take_drop, slice_eq_take_drop, drop_offset_add h hk,
    List.take_append, hall (by omega), hall (Nat.le_refl _), List.length_drop]
  congr 2
  omega

/-- Segments in the middle of others. -/
theorem offset_append (front back : List ι) {n : ℕ} (hn : n ≤ l.length) :
    offset f (front ++ (l ++ back)) (front.length + n) =
      (front.flatMap f).length + offset f l n := by
  rw [offset, List.take_length_add_append, List.take_append_of_le_length hn, List.flatMap_append,
    List.length_append]
  rfl

/-! ## A segment that changes -/

variable {f' : ι → List α} {m : ℕ}

theorem flatMap_of_not_mem (hf : ∀ b, b ≠ a → f' b = f b) (ha : a ∉ l) :
    l.flatMap f' = l.flatMap f :=
  List.flatMap_congr fun b hb => hf b fun heq => ha (heq ▸ hb)

theorem length_flatMap_of_mem (hf : ∀ b, b ≠ a → f' b = f b) (hl : l.Nodup) (ha : a ∈ l) :
    (l.flatMap f').length + (f a).length = (l.flatMap f).length + (f' a).length := by
  induction l with
  | nil => exact absurd ha List.not_mem_nil
  | cons b l ih =>
    obtain ⟨hb, hl⟩ := List.nodup_cons.1 hl
    rw [List.flatMap_cons, List.flatMap_cons, List.length_append, List.length_append]
    by_cases hba : b = a
    · rw [flatMap_of_not_mem hf (hba ▸ hb), hba]
      omega
    · have hrest := ih hl ((List.mem_cons.1 ha).resolve_left fun heq => hba heq.symm)
      rw [hf b hba]
      omega

theorem getElem?_inj (hl : l.Nodup) (hi : l[i]? = some a) (hj : l[j]? = some a) : i = j := by
  obtain ⟨hi, hai⟩ := List.getElem?_eq_some_iff.1 hi
  obtain ⟨hj, haj⟩ := List.getElem?_eq_some_iff.1 hj
  exact (List.Nodup.getElem_inj_iff hl).1 (hai.trans haj.symm)

theorem mem_take_iff (hl : l.Nodup) (hm : l[m]? = some a) : a ∈ l.take j ↔ m < j := by
  rw [List.mem_iff_getElem?]
  constructor
  · rintro ⟨n, hn⟩
    rw [List.getElem?_take] at hn
    split at hn
    next hlt =>
      obtain rfl := getElem?_inj hl hm hn
      exact hlt
    next => exact nomatch hn
  · intro hlt
    exact ⟨m, by rw [List.getElem?_take, if_pos hlt, hm]⟩

/-- The segments before the one that changes start where they did. -/
theorem offset_of_le (hf : ∀ b, b ≠ a → f' b = f b) (hl : l.Nodup) (hm : l[m]? = some a)
    (h : j ≤ m) : offset f' l j = offset f l j := by
  rw [offset, flatMap_of_not_mem hf fun hmem => absurd ((mem_take_iff hl hm).1 hmem) (by omega)]
  rfl

/-- Those behind it start so much later as it has got longer. -/
theorem offset_of_lt (hf : ∀ b, b ≠ a → f' b = f b) (hl : l.Nodup) (hm : l[m]? = some a)
    (h : m < j) : offset f' l j + (f a).length = offset f l j + (f' a).length :=
  length_flatMap_of_mem hf (hl.sublist (List.take_sublist ..)) ((mem_take_iff hl hm).2 h)

/-- An element that is taken out of a segment is taken out of the concatenation. -/
theorem flatMap_eraseIdx (hf : ∀ b, b ≠ a → f' b = f b) (hl : l.Nodup) (hm : l[m]? = some a)
    (hi : i < (f a).length) (hfa : f' a = (f a).eraseIdx i) :
    l.flatMap f' = (l.flatMap f).eraseIdx (offset f l m + i) := by
  obtain ⟨hlt, ha⟩ := List.getElem?_eq_some_iff.1 hm
  have hsplit : l = l.take m ++ a :: l.drop (m + 1) := by
    rw [← ha, ← List.drop_eq_getElem_cons hlt, List.take_append_drop]
  have hbefore : a ∉ l.take m := fun hmem => absurd ((mem_take_iff hl hm).1 hmem) (Nat.lt_irrefl m)
  have hbehind : a ∉ l.drop (m + 1) := by
    rw [hsplit] at hl
    exact (List.nodup_cons.1 (List.nodup_append.1 hl).2.1).1
  have hflat : ∀ g : ι → List α, l.flatMap g =
      (l.take m).flatMap g ++ (g a ++ (l.drop (m + 1)).flatMap g) := by
    intro g
    conv_lhs => rw [hsplit]
    rw [List.flatMap_append, List.flatMap_cons]
  rw [hflat f', hflat f, flatMap_of_not_mem hf hbefore, flatMap_of_not_mem hf hbehind, hfa,
    offset, List.eraseIdx_append_of_length_le (Nat.le_add_right ..), Nat.add_sub_cancel_left,
    List.eraseIdx_append_of_lt_length hi]

end Offset

end MatrixSdk.Lib
