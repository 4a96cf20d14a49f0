/-
Numbers written in one base and in another, where the leading zeros count: the digits of a number,
with as many zeros before them as there were. This is how byte strings are written as text over an
alphabet of any size, and every text over the alphabet is one of a single byte string.

The two directions are one function with the bases exchanged, so there is one round trip to prove,
[`rebase_rebase`].
-/
import Mathlib

set_option autoImplicit false

namespace MatrixSdk.Lib

/-! ## From one base to another -/

/-- The digits in base `c` of what `l` is in base `b`, most significant first, after the zeros that
`l` begins with. -/
def rebase (b c : ℕ) (l : List ℕ) : List ℕ :=
  l.takeWhile (· = 0) ++ (Nat.digits c (Nat.ofDigits b (l.dropWhile (· = 0)).reverse)).reverse

theorem eq_zero_of_mem_takeWhile {l : List ℕ} {d : ℕ} (hd : d ∈ l.takeWhile (· = 0)) : d = 0 := by
  have h := List.mem_takeWhile_imp hd
  exact of_decide_eq_true h

theorem rebase_lt {b c : ℕ} (hc : 1 < c) {l : List ℕ} : ∀ d ∈ rebase b c l, d < c := by
  intro d hd
  rcases List.mem_append.1 hd with hzero | hdigit
  · have hd0 := eq_zero_of_mem_takeWhile hzero
    omega
  · exact Nat.digits_lt_base hc (List.mem_reverse.1 hdigit)

/-- The digits begin with no zero. -/
theorem head_digits_ne_zero {c n d : ℕ} {ds : List ℕ} (h : (Nat.digits c n).reverse = d :: ds) :
    d ≠ 0 := by
  have hdigits : Nat.digits c n = (d :: ds).reverse := by rw [← h, List.reverse_reverse]
  have hn : n ≠ 0 := by
    rintro rfl
    rw [Nat.digits_zero] at h
    exact nomatch h
  have hlast := Nat.getLast_digit_ne_zero c hn
  simpa only [hdigits, List.getLast_reverse, List.head_cons] using hlast

/-- **The round trip**: what is written in another base is read back. -/
theorem rebase_rebase {b c : ℕ} (hb : 1 < b) {l : List ℕ} (hl : ∀ d ∈ l, d < b) :
    rebase c b (rebase b c l) = l := by
  -- the zeros of the result are those of `l`, and what follows them is the same number
  have hsplit : (rebase b c l).takeWhile (· = 0) = l.takeWhile (· = 0) ∧
      (rebase b c l).dropWhile (· = 0) =
        (Nat.digits c (Nat.ofDigits b (l.dropWhile (· = 0)).reverse)).reverse := by
    rw [rebase]
    cases hdigits : (Nat.digits c (Nat.ofDigits b (l.dropWhile (· = 0)).reverse)).reverse with
    | nil =>
      rw [List.append_nil]
      refine ⟨List.takeWhile_idem, ?_⟩
      exact List.dropWhile_eq_nil_iff.2 fun d hd => decide_eq_true (eq_zero_of_mem_takeWhile hd)
    | cons d ds =>
      have hd := head_digits_ne_zero hdigits
      have hall : ∀ d ∈ l.takeWhile (· = 0), decide (d = 0) = true :=
        fun d hd => decide_eq_true (eq_zero_of_mem_takeWhile hd)
      constructor
      · rw [List.takeWhile_append_of_pos hall, List.takeWhile_cons, decide_eq_false hd]
        exact List.append_nil _
      · rw [List.dropWhile_append_of_pos hall, List.dropWhile_cons, decide_eq_false hd]
        rfl
  have hdigits : Nat.digits b (Nat.ofDigits b (l.dropWhile (· = 0)).reverse) =
      (l.dropWhile (· = 0)).reverse := by
    refine Nat.digits_ofDigits b hb _ (fun d hd => ?_) fun hne => ?_
    · exact hl d ((List.dropWhile_sublist _).subset (List.mem_reverse.1 hd))
    · have hne' : l.dropWhile (· = 0) ≠ [] := fun hnil => hne (by rw [hnil]; rfl)
      have hhead := List.head_dropWhile_not (fun d : ℕ => decide (d = 0)) hne'
      rw [List.getLast_reverse]
      exact of_decide_eq_false hhead
  rw [rebase, hsplit.1, hsplit.2, List.reverse_reverse, Nat.ofDigits_digits, hdigits,
    List.reverse_reverse, List.takeWhile_append_dropWhile]

/-! ## Bytes as text over an alphabet -/

section Alphabet

variable (alphabet : List Char)

/-- Bytes as text. -/
def encodeOver (bytes : List UInt8) : List Char :=
  (rebase 256 alphabet.length (bytes.map UInt8.toNat)).map fun d => alphabet.getD d ' '

/-- Text as bytes; it must be over the alphabet. -/
def decodeOver (text : List Char) : Option (List UInt8) :=
  if ∀ c ∈ text, c ∈ alphabet then
    some ((rebase alphabet.length 256 (text.map alphabet.idxOf)).map UInt8.ofNat)
  else none

variable {alphabet}

theorem mem_encodeOver (halphabet : 1 < alphabet.length) {bytes : List UInt8} :
    ∀ c ∈ encodeOver alphabet bytes, c ∈ alphabet := by
  intro c hc
  obtain ⟨d, hd, rfl⟩ := List.mem_map.1 hc
  rw [List.getD_eq_getElem _ _ (rebase_lt halphabet d hd)]
  exact List.getElem_mem _

/-- **What is encoded is decoded.** -/
theorem decodeOver_encodeOver (hnodup : alphabet.Nodup) (halphabet : 1 < alphabet.length)
    (bytes : List UInt8) : decodeOver alphabet (encodeOver alphabet bytes) = some bytes := by
  rw [decodeOver, if_pos (mem_encodeOver halphabet), encodeOver, List.map_map]
  have hdigits : (rebase 256 alphabet.length (bytes.map UInt8.toNat)).map
      (alphabet.idxOf ∘ fun d => alphabet.getD d ' ') =
        rebase 256 alphabet.length (bytes.map UInt8.toNat) := by
    refine (List.map_congr_left fun d hd => ?_).trans (List.map_id _)
    have hlt := rebase_lt halphabet d hd
    show alphabet.idxOf (alphabet.getD d ' ') = d
    rw [List.getD_eq_getElem _ _ hlt, hnodup.idxOf_getElem]
  have hbytes : ∀ d ∈ bytes.map UInt8.toNat, d < 256 := by
    intro d hd
    obtain ⟨byte, -, rfl⟩ := List.mem_map.1 hd
    exact UInt8.toNat_lt byte
  rw [hdigits, rebase_rebase (by decide) hbytes, List.map_map]
  refine congrArg some ((List.map_congr_left fun byte _ => ?_).trans (List.map_id _))
  exact UInt8.ofNat_toNat

/-- **What is decoded is the only text of its bytes.** -/
theorem encodeOver_of_decodeOver (halphabet : 1 < alphabet.length) {text : List Char}
    {bytes : List UInt8} (h : decodeOver alphabet text = some bytes) :
    encodeOver alphabet bytes = text := by
  obtain ⟨hmem, heq⟩ := Option.ite_none_right_eq_some.1 h
  obtain rfl := Option.some.inj heq
  have hdigits : ∀ d ∈ text.map alphabet.idxOf, d < alphabet.length := by
    intro d hd
    obtain ⟨c, hc, rfl⟩ := List.mem_map.1 hd
    exact List.idxOf_lt_length_of_mem (hmem c hc)
  have hbytes : ((rebase alphabet.length 256 (text.map alphabet.idxOf)).map UInt8.ofNat).map
      UInt8.toNat = rebase alphabet.length 256 (text.map alphabet.idxOf) := by
    rw [List.map_map]
    refine (List.map_congr_left fun d hd => ?_).trans (List.map_id _)
    exact UInt8.toNat_ofNat_of_lt' (rebase_lt (by decide) d hd)
  rw [encodeOver, hbytes, rebase_rebase halphabet hdigits, List.map_map]
  refine (List.map_congr_left fun c hc => ?_).trans (List.map_id _)
  have hlt := List.idxOf_lt_length_of_mem (hmem c hc)
  show alphabet.getD (alphabet.idxOf c) ' ' = c
  rw [List.getD_eq_getElem _ _ hlt, List.getElem_idxOf]

end Alphabet

end MatrixSdk.Lib
