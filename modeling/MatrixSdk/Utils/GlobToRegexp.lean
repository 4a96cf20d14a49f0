/-
Globs as regular expressions: `escapeRegExp` and `globToRegexp` of `utils.ts`, and the expression
that `createCachedRegex` of `pushprocessor.js` makes of a glob when it is to match the whole string.

Three replacements are made in a text that is already escaped. The second one looks for a `?` where
the escaped text has `\?`, so that a `?` becomes an escaped point, and matches a point only. The
third one takes all from the first bracket to the last as one class, and the two before it have
replaced what is between them. See [`globToRegexp_correct_iff`].

A backslash of a glob is an ordinary character.
-/
import Mathlib.Data.List.TakeWhile
import MatrixSdk.Lib.RegExp

set_option autoImplicit false

namespace MatrixSdk.Utils

open MatrixSdk.RegExp

/-! ## The translation -/

/-- `string.replace(/[.*+?^${}()|[\]\\]/g, "\\$&")` -/
def escapeRegExp (string : List CodeUnit) : List CodeUnit :=
  string.flatMap fun c => if c ∈ syntaxCharacters then [cu '\\', c] else [c]

/-- `pat.replace(/\\\*/g, '.*')` -/
def replaceStars : List CodeUnit → List CodeUnit
  | [] => []
  | [c] => [c]
  | c :: d :: t =>
    if c = cu '\\' ∧ d = cu '*' then cu '.' :: cu '*' :: replaceStars t
    else c :: replaceStars (d :: t)

/-- `pat.replace(/\?/g, '.')` -/
def replaceQuestions (pat : List CodeUnit) : List CodeUnit :=
  pat.map fun c => if c = cu '?' then cu '.' else c

/-- What becomes of `p2`: its first `\-` is replaced by `-`. -/
def replaceDash : List CodeUnit → List CodeUnit
  | [] => []
  | [c] => [c]
  | c :: d :: t => if c = cu '\\' ∧ d = cu '-' then cu '-' :: t else c :: replaceDash (d :: t)

/-- What `(.*)\\]` matches: all up to the last `\]` of the line, and what comes after that. -/
def lastClose : List CodeUnit → Option (List CodeUnit × List CodeUnit)
  | [] => none
  | c :: t =>
    if isLineTerminator c then none
    else
      match lastClose t with
      | some p => some (c :: p.1, p.2)
      | none => if c = cu '\\' ∧ t.head? = some (cu ']') then some ([], t.tail) else none

/-- What `(!|)` matches, and what comes after that. -/
def bang (t : List CodeUnit) : Bool × List CodeUnit :=
  if t.head? = some (cu '!') then (true, t.tail) else (false, t)

variable {t glob body post s : List CodeUnit} {p : List CodeUnit × List CodeUnit} {d c : CodeUnit}
  {negated : Bool}

theorem length_lastClose (h : lastClose t = some p) : p.2.length < t.length := by
  induction t generalizing p with
  | nil => exact nomatch h
  | cons c t ih =>
    rw [lastClose] at h
    by_cases hc : isLineTerminator c = true
    · rw [if_pos hc] at h
      exact nomatch h
    · rw [if_neg hc] at h
      rw [List.length_cons]
      cases hrec : lastClose t with
      | some q =>
        rw [hrec] at h
        obtain rfl := Option.some.inj h
        have := ih hrec
        dsimp only
        omega
      | none =>
        rw [hrec] at h
        by_cases hclose : c = cu '\\' ∧ t.head? = some (cu ']')
        · rw [if_pos hclose] at h
          obtain rfl := Option.some.inj h
          have := t.length_tail
          dsimp only
          omega
        · rw [if_neg hclose] at h
          exact nomatch h

theorem length_bang (t : List CodeUnit) : (bang t).2.length ≤ t.length := by
  rw [bang]
  split
  · have := t.length_tail
    dsimp only
    omega
  · exact le_refl _

/-- `pat.replace(/\\\[(!|)(.*)\\]/g, …)` -/
def replaceBrackets : List CodeUnit → List CodeUnit
  | [] => []
  | [c] => [c]
  | c :: d :: t =>
    if c = cu '\\' ∧ d = cu '[' then
      match _h : lastClose (bang t).2 with
      | some (second, rest) =>
        cu '[' :: ((if (bang t).1 then [cu '^'] else []) ++ replaceDash second ++
          cu ']' :: replaceBrackets rest)
      | none => c :: replaceBrackets (d :: t)
    else
      c :: replaceBrackets (d :: t)
  termination_by pat => pat.length
  decreasing_by
    · have hrest := length_lastClose _h
      have ht := length_bang t
      simp only [List.length_cons] at hrest ⊢
      omega
    · exact Nat.lt_succ_self _
    · exact Nat.lt_succ_self _

/-- `globToRegexp(glob, extended)` -/
def globToRegexp (glob : List CodeUnit) (extended : Option Bool) : List CodeUnit :=
  let pat := replaceQuestions (replaceStars (escapeRegExp glob))
  if extended.getD true then replaceBrackets pat else pat

/-- The expression that `createCachedRegex` makes with the prefix `^` and the suffix `$`. -/
def anchoredSource (glob : List CodeUnit) : List CodeUnit :=
  [cu '^'] ++ globToRegexp glob none ++ [cu '$']

/-! ## Globs -/

/-- A part of a glob. -/
inductive GlobTok
  | star
  | any
  | cls (negated : Bool) (ranges : List (CodeUnit × CodeUnit))
  | chr (c : CodeUnit)

/-- What is before the first `]`, and what is after it. -/
def firstClose : List CodeUnit → Option (List CodeUnit × List CodeUnit)
  | [] => none
  | c :: t => if c = cu ']' then some ([], t) else (firstClose t).map fun p => (c :: p.1, p.2)

/-- The bracket expression that a `[` begins, if there is one: a `!`, and then at least one
character, which may be a `]`. -/
def bracket (t : List CodeUnit) : Option (Bool × List CodeUnit × List CodeUnit) :=
  match (bang t).2 with
  | [] => none
  | c :: body => (firstClose body).map fun p => ((bang t).1, c :: p.1, p.2)

theorem length_firstClose (h : firstClose t = some p) : p.2.length < t.length := by
  induction t generalizing p with
  | nil => exact nomatch h
  | cons c t ih =>
    rw [firstClose] at h
    rw [List.length_cons]
    by_cases hc : c = cu ']'
    · rw [if_pos hc] at h
      obtain rfl := Option.some.inj h
      exact Nat.lt_succ_self _
    · rw [if_neg hc] at h
      obtain ⟨q, hq, rfl⟩ := Option.map_eq_some_iff.1 h
      have := ih hq
      dsimp only
      omega

theorem length_bracket {p : Bool × List CodeUnit × List CodeUnit} (h : bracket t = some p) :
    p.2.2.length < t.length := by
  have ht := length_bang t
  rw [bracket] at h
  split at h
  · exact nomatch h
  · rename_i c body hbody
    obtain ⟨q, hq, rfl⟩ := Option.map_eq_some_iff.1 h
    have := length_firstClose hq
    rw [hbody, List.length_cons] at ht
    dsimp only
    omega

/-- The parts of a glob. -/
def parseGlob : List CodeUnit → List GlobTok
  | [] => []
  | c :: t =>
    if c = cu '*' then .star :: parseGlob t
    else if c = cu '?' then .any :: parseGlob t
    else if c = cu '[' then
      match _h : bracket t with
      | some (negated, body, rest) =>
        .cls negated (classRanges (body.map classAtom)) :: parseGlob rest
      | none => .chr c :: parseGlob t
    else .chr c :: parseGlob t
  termination_by glob => glob.length
  decreasing_by
    · exact Nat.lt_succ_self _
    · exact Nat.lt_succ_self _
    · have hrest := length_bracket _h
      simp only [List.length_cons] at hrest ⊢
      omega
    · exact Nat.lt_succ_self _
    · exact Nat.lt_succ_self _

/-- What a part of a glob stands for. -/
def GlobTok.language : GlobTok → Language CodeUnit
  | .star => {_s | True}
  | .any => {s | ∃ c, s = [c]}
  | .cls negated ranges => {s | ∃ c, (inRanges ranges c != negated) = true ∧ s = [c]}
  | .chr c => {s | s = [c]}

/-- The language of a glob. -/
def globLanguage (glob : List CodeUnit) : Language CodeUnit :=
  ((parseGlob glob).map GlobTok.language).prod

/-! ## The text of a glob without classes

Of a character that has a meaning, the escaped text has the backslash first: so what the first two
replacements look for is found where it was put by the escaping, and nowhere else. -/

/-- What becomes of one character of the glob outside brackets. -/
def unit (c : CodeUnit) : List CodeUnit :=
  if c = cu '*' then [cu '.', cu '*']
  else if c = cu '?' then [cu '\\', cu '.']
  else if c ∈ syntaxCharacters then [cu '\\', c]
  else [c]

/-- An escaped text begins with a backslash or with a character that has no meaning. -/
theorem head_escapeRegExp (h : (escapeRegExp glob).head? = some d) :
    d = cu '\\' ∨ d ∉ syntaxCharacters := by
  cases glob with
  | nil => exact nomatch h
  | cons c glob =>
    rw [escapeRegExp, List.flatMap_cons] at h
    by_cases hc : c ∈ syntaxCharacters
    · rw [if_pos hc] at h
      exact Or.inl (Option.some.inj h).symm
    · rw [if_neg hc] at h
      obtain rfl := Option.some.inj h
      exact Or.inr hc

theorem replaceStars_cons (h : c = cu '\\' → t.head? ≠ some (cu '*')) :
    replaceStars (c :: t) = c :: replaceStars t := by
  cases t with
  | nil => rfl
  | cons d t =>
    rw [replaceStars, if_neg]
    rintro ⟨hc, rfl⟩
    exact h hc rfl

theorem replaceStars_escapeRegExp_cons (c : CodeUnit) (glob : List CodeUnit) :
    replaceStars (escapeRegExp (c :: glob)) =
      (if c = cu '*' then [cu '.', cu '*'] else if c ∈ syntaxCharacters then [cu '\\', c] else [c])
        ++ replaceStars (escapeRegExp glob) := by
  have hhead : (escapeRegExp glob).head? ≠ some (cu '*') := by
    intro h
    rcases head_escapeRegExp h with hback | hsyntax
    · exact absurd hback (by decide)
    · exact hsyntax (by decide)
  have hcons : escapeRegExp (c :: glob) =
      (if c ∈ syntaxCharacters then [cu '\\', c] else [c]) ++ escapeRegExp glob := by
    rw [escapeRegExp, List.flatMap_cons]
    rfl
  rw [hcons]
  by_cases hstar : c = cu '*'
  · rw [hstar, if_pos (by decide), if_pos rfl, List.cons_append, List.cons_append, List.nil_append,
      replaceStars, if_pos ⟨rfl, rfl⟩]
    rfl
  · rw [if_neg hstar]
    by_cases hc : c ∈ syntaxCharacters
    · -- the backslash is not before a star, and the character is not before one either
      rw [if_pos hc, List.cons_append, List.cons_append, List.nil_append, replaceStars_cons,
        replaceStars_cons fun _ => hhead]
      · rfl
      · intro _ h
        exact hstar (Option.some.inj h)
    · rw [if_neg hc, List.cons_append, List.nil_append, replaceStars_cons fun _ => hhead]
      rfl

/-- **The first two replacements**, character by character of the glob. -/
theorem replace_escapeRegExp (glob : List CodeUnit) :
    replaceQuestions (replaceStars (escapeRegExp glob)) = glob.flatMap unit := by
  induction glob with
  | nil => rfl
  | cons c glob ih =>
    rw [replaceStars_escapeRegExp_cons, replaceQuestions, List.map_append, List.flatMap_cons]
    rw [replaceQuestions] at ih
    rw [ih, unit]
    congr 1
    by_cases hstar : c = cu '*'
    · rw [if_pos hstar, if_pos hstar]
      rfl
    · rw [if_neg hstar, if_neg hstar]
      by_cases hquestion : c = cu '?'
      · rw [if_pos hquestion, hquestion]
        rfl
      · rw [if_neg hquestion]
        by_cases hc : c ∈ syntaxCharacters
        · rw [if_pos hc, List.map_cons, List.map_cons, List.map_nil, if_neg (by decide),
            if_neg hquestion]
        · rw [if_neg hc, List.map_cons, List.map_nil, if_neg hquestion]

/-- What becomes of a character begins with a point, with a backslash, or with a character that has
no meaning. -/
theorem head_unit (h : (unit c).head? = some d) :
    d = cu '.' ∨ d = cu '\\' ∨ d = c ∧ c ∉ syntaxCharacters := by
  rw [unit] at h
  split at h
  · exact Or.inl (Option.some.inj h).symm
  · split at h
    · exact Or.inr (Or.inl (Option.some.inj h).symm)
    · split at h
      · exact Or.inr (Or.inl (Option.some.inj h).symm)
      · rename_i hc
        exact Or.inr (Or.inr ⟨(Option.some.inj h).symm, hc⟩)

theorem unit_ne_nil (c : CodeUnit) : unit c ≠ [] := by
  rw [unit]
  split
  · exact List.cons_ne_nil _ _
  · split
    · exact List.cons_ne_nil _ _
    · split <;> exact List.cons_ne_nil _ _

/-- Nor does the text of a glob begin with a bracket. -/
theorem head_flatMap_unit (h : (glob.flatMap unit).head? = some d) :
    d = cu '.' ∨ d = cu '\\' ∨ d ∉ syntaxCharacters := by
  cases glob with
  | nil => exact nomatch h
  | cons c glob =>
    rw [List.flatMap_cons, List.head?_append_of_ne_nil _ (unit_ne_nil c)] at h
    rcases head_unit h with hd | hd | ⟨rfl, hd⟩
    · exact Or.inl hd
    · exact Or.inr (Or.inl hd)
    · exact Or.inr (Or.inr hd)

/-! ## Brackets in the text of a glob -/

theorem head_flatMap_unit_ne (hd : d ∈ [cu '[', cu ']', cu '*', cu '?']) :
    (glob.flatMap unit).head? ≠ some d := by
  intro h
  have hsyntax : d ∈ syntaxCharacters := by
    simp only [List.mem_cons, List.not_mem_nil, or_false] at hd
    rcases hd with rfl | rfl | rfl | rfl <;> decide
  rcases head_flatMap_unit h with rfl | rfl | hd'
  · exact absurd hd (by decide)
  · exact absurd hd (by decide)
  · exact hd' hsyntax

theorem unit_of_notMem (hc : c ∉ syntaxCharacters) : unit c = [c] := by
  rw [unit, if_neg (ne_of_notMem_syntaxCharacters hc (by decide)),
    if_neg (ne_of_notMem_syntaxCharacters hc (by decide)), if_neg hc]

/-- What becomes of a character is gone through from its end: no backslash of it is before `x`, when
the character is not `x`, and none that it is itself is before what comes after. -/
theorem unit_induction {x : CodeUnit} {Q : List CodeUnit → Prop} (hx : x ≠ cu '.') (hc : c ≠ x)
    (hback : c = cu '\\' → t.head? ≠ some x) (hnil : Q [])
    (hcons : ∀ d rest, (d = cu '\\' → (rest ++ t).head? ≠ some x) → Q rest → Q (d :: rest)) :
    Q (unit c) := by
  have hplain : ∀ d rest, d ≠ cu '\\' → Q rest → Q (d :: rest) :=
    fun d rest hd => hcons d rest fun h => absurd h hd
  rw [unit]
  split
  · exact hplain _ _ (by decide) (hplain _ _ (by decide) hnil)
  · split
    · refine hcons _ _ (fun _ h => ?_) (hplain _ _ (by decide) hnil)
      exact hx (Option.some.inj h).symm
    · split
      · refine hcons _ _ (fun _ h => ?_) (hcons c [] hback hnil)
        exact hc (Option.some.inj h)
      · exact hcons c [] hback hnil

/-- A character that has no meaning is at the beginning of the text when it is at the beginning of
the glob. -/
theorem head_flatMap_unit_iff (hd : d ∉ syntaxCharacters) :
    (glob.flatMap unit).head? = some d ↔ glob.head? = some d := by
  cases glob with
  | nil => rfl
  | cons c glob =>
    rw [List.flatMap_cons, List.head?_append_of_ne_nil _ (unit_ne_nil c), List.head?_cons]
    constructor
    · intro h
      rcases head_unit h with rfl | rfl | ⟨rfl, -⟩
      · exact absurd (by decide) hd
      · exact absurd (by decide) hd
      · rfl
    · intro h
      obtain rfl := Option.some.inj h
      rw [unit_of_notMem hd]
      rfl

theorem bang_flatMap_unit (glob : List CodeUnit) :
    bang (glob.flatMap unit) = ((bang glob).1, (bang glob).2.flatMap unit) := by
  have hiff : (glob.flatMap unit).head? = some (cu '!') ↔ glob.head? = some (cu '!') :=
    head_flatMap_unit_iff (by decide)
  rw [bang, bang]
  by_cases h : glob.head? = some (cu '!')
  · rw [if_pos h, if_pos (hiff.2 h)]
    cases glob with
    | nil => exact nomatch h
    | cons c glob =>
      obtain rfl := Option.some.inj h
      rfl
  · rw [if_neg h, if_neg fun hunit => h (hiff.1 hunit)]

theorem replaceBrackets_cons
    (h : c = cu '\\' → t.head? ≠ some (cu '[')) :
    replaceBrackets (c :: t) = c :: replaceBrackets t := by
  cases t with
  | nil =>
    rw [replaceBrackets, replaceBrackets]
  | cons d t =>
    rw [replaceBrackets, if_neg]
    rintro ⟨hc, rfl⟩
    exact h hc rfl

/-- What becomes of a character other than `[` is left as it is. -/
theorem replaceBrackets_unit (hc : c ≠ cu '[') {t : List CodeUnit}
    (ht : t.head? ≠ some (cu '[')) :
    replaceBrackets (unit c ++ t) = unit c ++ replaceBrackets t := by
  refine unit_induction (Q := fun text => replaceBrackets (text ++ t) = text ++ replaceBrackets t)
    (by decide) hc (fun _ => ht) rfl fun d rest hd hrest => ?_
  rw [List.cons_append, replaceBrackets_cons hd, hrest, List.cons_append]

theorem replaceBrackets_flatMap_append {pre : List CodeUnit} (hpre : cu '[' ∉ pre)
    {t : List CodeUnit} (ht : t.head? ≠ some (cu '[')) :
    replaceBrackets (pre.flatMap unit ++ t) = pre.flatMap unit ++ replaceBrackets t := by
  induction pre with
  | nil => rfl
  | cons c pre ih =>
    have hc : c ≠ cu '[' := fun h => hpre (h ▸ List.mem_cons_self)
    have hrest : cu '[' ∉ pre := fun h => hpre (List.mem_cons_of_mem c h)
    have hhead : (pre.flatMap unit ++ t).head? ≠ some (cu '[') := by
      rw [List.head?_append]
      intro h
      rcases Option.or_eq_some_iff.1 h with h | ⟨-, h⟩
      · exact head_flatMap_unit_ne (by decide) h
      · exact ht h
    rw [List.flatMap_cons, List.append_assoc, replaceBrackets_unit hc hhead, ih hrest,
      List.append_assoc]

theorem lastClose_cons_none (h : lastClose t = none)
    (hc : c = cu '\\' → t.head? ≠ some (cu ']')) : lastClose (c :: t) = none := by
  rw [lastClose, h]
  split
  · rfl
  · exact if_neg fun hclose => hc hclose.1 hclose.2

/-- No bracket is closed where there is none that closes. -/
theorem lastClose_flatMap_none (hglob : cu ']' ∉ glob) :
    lastClose (glob.flatMap unit) = none := by
  induction glob with
  | nil => rfl
  | cons c glob ih =>
    have hc : c ≠ cu ']' := fun h => hglob (h ▸ List.mem_cons_self)
    have hrest := ih fun h => hglob (List.mem_cons_of_mem c h)
    have hhead : (glob.flatMap unit).head? ≠ some (cu ']') := head_flatMap_unit_ne (by decide)
    rw [List.flatMap_cons]
    exact unit_induction (by decide) hc (fun _ => hhead) hrest
      fun d rest hd hnone => lastClose_cons_none hnone hd

theorem lastClose_append {x : List CodeUnit} (hx : OneLine x) (h : lastClose t = some p) :
    lastClose (x ++ t) = some (x ++ p.1, p.2) := by
  induction x with
  | nil => exact h
  | cons c x ih =>
    have hc : ¬isLineTerminator c = true := by
      rw [hx c List.mem_cons_self]
      exact Bool.false_ne_true
    rw [List.cons_append, lastClose, if_neg hc,
      ih fun d hd => hx d (List.mem_cons_of_mem c hd)]
    rfl

theorem mem_unit (h : d ∈ unit c) : d = c ∨ d ∈ [cu '.', cu '*', cu '\\'] := by
  rw [unit] at h
  split at h
  · exact Or.inr (List.mem_append_left [cu '\\'] h)
  · split at h
    · rcases List.mem_cons.1 h with rfl | h
      · exact Or.inr (by decide)
      · rw [List.mem_singleton.1 h]
        exact Or.inr (by decide)
    · split at h
      · rcases List.mem_cons.1 h with rfl | h
        · exact Or.inr (by decide)
        · exact Or.inl (List.mem_singleton.1 h)
      · exact Or.inl (List.mem_singleton.1 h)

theorem oneLine_flatMap_unit (h : OneLine glob) : OneLine (glob.flatMap unit) := by
  intro d hd
  obtain ⟨c, hc, hd⟩ := List.mem_flatMap.1 hd
  have hother : OneLine [cu '.', cu '*', cu '\\'] := by decide
  rcases mem_unit hd with rfl | hd
  · exact h d hc
  · exact hother d hd

/-- The last bracket that closes, in the text of a glob. -/
theorem lastClose_flatMap (hbody : OneLine body)
    (hpost : cu ']' ∉ post) :
    lastClose ((body ++ cu ']' :: post).flatMap unit) =
      some (body.flatMap unit, post.flatMap unit) := by
  have hclose : lastClose ((cu ']' :: post).flatMap unit) = some ([], post.flatMap unit) := by
    have hunit : (cu ']' :: post).flatMap unit = cu '\\' :: cu ']' :: post.flatMap unit := rfl
    have hnone : lastClose (cu ']' :: post.flatMap unit) = none :=
      lastClose_cons_none (lastClose_flatMap_none hpost) fun h => absurd h (by decide)
    rw [hunit, lastClose, hnone, if_neg (by decide)]
    exact if_pos ⟨rfl, rfl⟩
  rw [List.flatMap_append, lastClose_append (oneLine_flatMap_unit hbody) hclose, List.append_nil]

theorem mem_of_mem_bang (h : c ∈ (bang t).2) : c ∈ t := by
  rw [bang] at h
  split at h
  · exact List.mem_of_mem_tail h
  · exact h

theorem unit_open : unit (cu '[') = [cu '\\', cu '['] := rfl

theorem replaceBrackets_open_none (h : lastClose (bang t).2 = none) :
    replaceBrackets (cu '\\' :: cu '[' :: t) = cu '\\' :: cu '[' :: replaceBrackets t := by
  rw [replaceBrackets, if_pos ⟨rfl, rfl⟩]
  split
  · rename_i hsome
    rw [h] at hsome
    exact nomatch hsome
  · rw [replaceBrackets_cons fun hback => absurd hback (by decide)]

theorem replaceBrackets_open_some {second rest : List CodeUnit}
    (h : lastClose (bang t).2 = some (second, rest)) :
    replaceBrackets (cu '\\' :: cu '[' :: t) =
      cu '[' :: ((if (bang t).1 then [cu '^'] else []) ++ replaceDash second ++
        cu ']' :: replaceBrackets rest) := by
  rw [replaceBrackets, if_pos ⟨rfl, rfl⟩]
  split
  · rename_i hsome
    rw [h] at hsome
    obtain ⟨rfl, rfl⟩ := Prod.mk.inj (Option.some.inj hsome)
    rfl
  · rename_i hnone
    rw [h] at hnone
    exact nomatch hnone

/-- The third replacement does nothing where no bracket is closed. -/
theorem replaceBrackets_unclosed (hglob : cu ']' ∉ glob) :
    replaceBrackets (glob.flatMap unit) = glob.flatMap unit := by
  induction glob with
  | nil => rw [List.flatMap_nil, replaceBrackets]
  | cons c glob ih =>
    have hrest : cu ']' ∉ glob := fun h => hglob (List.mem_cons_of_mem c h)
    rw [List.flatMap_cons]
    by_cases hc : c = cu '['
    · have hnone : lastClose (bang (glob.flatMap unit)).2 = none := by
        rw [bang_flatMap_unit]
        exact lastClose_flatMap_none fun h => hrest (mem_of_mem_bang h)
      rw [hc, unit_open, List.cons_append, List.singleton_append,
        replaceBrackets_open_none hnone, ih hrest]
    · rw [replaceBrackets_unit hc (head_flatMap_unit_ne (by decide)), ih hrest]

theorem replaceDash_cons (h : c = cu '\\' → t.head? ≠ some (cu '-')) :
    replaceDash (c :: t) = c :: replaceDash t := by
  cases t with
  | nil => rfl
  | cons d t =>
    rw [replaceDash, if_neg]
    rintro ⟨hc, rfl⟩
    exact h hc rfl

theorem replaceDash_unit (ht : c = cu '\\' → t.head? ≠ some (cu '-')) :
    replaceDash (unit c ++ t) = unit c ++ replaceDash t := by
  by_cases hc : c = cu '-'
  · rw [hc, unit_of_notMem (by decide), List.singleton_append,
      replaceDash_cons fun hback => absurd hback (by decide), List.singleton_append]
  · refine unit_induction (Q := fun text => replaceDash (text ++ t) = text ++ replaceDash t)
      (by decide) hc ht rfl fun d rest hd hrest => ?_
    rw [List.cons_append, replaceDash_cons hd, hrest, List.cons_append]

/-- Nothing is replaced between the brackets when no backslash is before a `-`. -/
theorem replaceDash_flatMap (h : ¬[cu '\\', cu '-'] <:+: body) :
    replaceDash (body.flatMap unit) = body.flatMap unit := by
  induction body with
  | nil => rfl
  | cons c body ih =>
    have hrest := ih fun hinfix => h (List.infix_cons hinfix)
    -- only a backslash of the body itself could be before a `-`
    have hhead : c = cu '\\' → (body.flatMap unit).head? ≠ some (cu '-') := by
      rintro rfl hdash
      rw [head_flatMap_unit_iff (by decide)] at hdash
      obtain ⟨rest, rfl⟩ : ∃ rest, body = cu '-' :: rest := by
        cases body with
        | nil => exact nomatch hdash
        | cons d rest => exact ⟨rest, by rw [Option.some.inj hdash]⟩
      exact h ⟨[], rest, rfl⟩
    rw [List.flatMap_cons, replaceDash_unit hhead, hrest]

/-! ## What becomes of a glob -/

/-- What is before the first `[`. -/
def beforeBracket (glob : List CodeUnit) : List CodeUnit := glob.takeWhile (· ≠ cu '[')

/-- What is from the first `[` on. -/
def fromBracket (glob : List CodeUnit) : List CodeUnit := glob.dropWhile (· ≠ cu '[')

theorem beforeBracket_append (glob : List CodeUnit) :
    beforeBracket glob ++ fromBracket glob = glob := List.takeWhile_append_dropWhile

theorem notMem_beforeBracket (glob : List CodeUnit) : cu '[' ∉ beforeBracket glob := by
  intro h
  have := List.mem_takeWhile_imp h
  exact absurd this (by decide)

/-- No `[` of the glob has a `]` after it. -/
def Bracketless (glob : List CodeUnit) : Prop := cu ']' ∉ fromBracket glob

instance (glob : List CodeUnit) : Decidable (Bracketless glob) :=
  inferInstanceAs (Decidable (¬_))

theorem globToRegexp_eq (glob : List CodeUnit) :
    globToRegexp glob none = replaceBrackets (glob.flatMap unit) := by
  rw [globToRegexp, replace_escapeRegExp]
  rfl

theorem globToRegexp_bracketless (h : Bracketless glob) :
    globToRegexp glob none = glob.flatMap unit := by
  rw [globToRegexp_eq, ← beforeBracket_append glob, List.flatMap_append,
    replaceBrackets_flatMap_append (notMem_beforeBracket glob) (head_flatMap_unit_ne (by decide)),
    replaceBrackets_unclosed h]

/-- What is between the brackets is read as it stands: it is on one line, no star and no escaped
`-` is in it to be replaced, and its ranges are in order. -/
structure PlainClass (body : List CodeUnit) : Prop where
  oneLine : OneLine body
  noStar : cu '*' ∉ body
  noDash : ¬[cu '\\', cu '-'] <:+: body
  inOrder : ((classRanges (body.map classAtom)).all fun range => range.1 ≤ range.2) = true

/-- The first `[` begins a bracket expression, and no `]` comes after that. -/
structure OneBracket (glob : List CodeUnit) (negated : Bool) (body post : List CodeUnit) :
    Prop where
  bracket_eq : ∃ t, fromBracket glob = cu '[' :: t ∧ bracket t = some (negated, body, post)
  plain : PlainClass body
  unclosed : cu ']' ∉ post

theorem firstClose_eq_some (h : firstClose t = some (body, post)) : t = body ++ cu ']' :: post := by
  induction t generalizing body with
  | nil => exact nomatch h
  | cons c t ih =>
    rw [firstClose] at h
    by_cases hc : c = cu ']'
    · rw [if_pos hc] at h
      obtain ⟨rfl, rfl⟩ := Prod.mk.inj (Option.some.inj h)
      rw [hc, List.nil_append]
    · rw [if_neg hc] at h
      obtain ⟨⟨body', post'⟩, hp, heq⟩ := Option.map_eq_some_iff.1 h
      obtain ⟨rfl, rfl⟩ := Prod.mk.inj heq
      rw [List.cons_append, ← ih hp]

theorem bracket_eq_some (h : bracket t = some (negated, body, post)) :
    bang t = (negated, body ++ cu ']' :: post) := by
  rw [bracket] at h
  split at h
  · exact nomatch h
  · rename_i c rest hrest
    obtain ⟨⟨body', post'⟩, hp, heq⟩ := Option.map_eq_some_iff.1 h
    obtain ⟨hnegated, heq⟩ := Prod.mk.inj heq
    obtain ⟨rfl, rfl⟩ := Prod.mk.inj heq
    refine Prod.ext hnegated ?_
    rw [hrest, firstClose_eq_some hp]
    rfl

theorem globToRegexp_oneBracket (h : OneBracket glob negated body post) :
    globToRegexp glob none = (beforeBracket glob).flatMap unit ++ cu '[' ::
      ((if negated then [cu '^'] else []) ++ body.flatMap unit ++ cu ']' :: post.flatMap unit) := by
  obtain ⟨t, hfrom, hbracket⟩ := h.bracket_eq
  have hbang : bang (t.flatMap unit) = (negated, (body ++ cu ']' :: post).flatMap unit) := by
    rw [bang_flatMap_unit, bracket_eq_some hbracket]
  have hclose : lastClose (bang (t.flatMap unit)).2 =
      some (body.flatMap unit, post.flatMap unit) := by
    rw [hbang]
    exact lastClose_flatMap h.plain.oneLine h.unclosed
  rw [globToRegexp_eq, ← beforeBracket_append glob, List.flatMap_append,
    replaceBrackets_flatMap_append (notMem_beforeBracket glob) (head_flatMap_unit_ne (by decide)),
    beforeBracket_append, hfrom, List.flatMap_cons, unit_open, List.cons_append,
    List.singleton_append, replaceBrackets_open_some hclose, replaceBrackets_unclosed h.unclosed,
    replaceDash_flatMap h.plain.noDash, hbang]

/-! ## How the text is read -/

/-- What one character of the glob is in the expression, outside brackets. -/
def unitPiece (c : CodeUnit) : Atom × Bool :=
  if c = cu '*' then (.any, true)
  else if c = cu '?' then (.chr (cu '.'), false)
  else (.chr c, false)

theorem reads_unit (c : CodeUnit) : Reads (unit c) [unitPiece c] := by
  intro t
  rw [unit, unitPiece]
  split
  · rw [List.cons_append, List.singleton_append, tokens, if_neg (by decide), if_pos rfl, tokens,
      if_neg (by decide), if_neg (by decide), if_pos rfl, Functor.map_map]
    rfl
  · split
    · rw [List.cons_append, List.singleton_append, tokens_escaped (by decide)]
      rfl
    · split
      · rename_i hc
        rw [List.cons_append, List.singleton_append, tokens_escaped hc]
        rfl
      · rename_i hc
        rw [List.singleton_append, tokens_chr hc]
        rfl

theorem tokens_inClass_flatMap (hstar : cu '*' ∉ body) (hquestion : cu '?' ∉ body) (negated : Bool)
    (atoms : List ClassAtom) (t : List CodeUnit) :
    tokens (.inClass negated atoms) (body.flatMap unit ++ cu ']' :: t) =
      (closeClass negated (atoms ++ body.map classAtom)).bind fun tok =>
        (tok :: ·) <$> tokens .outside t := by
  induction body generalizing atoms with
  | nil =>
    rw [List.flatMap_nil, List.nil_append, tokens_inClass_close, List.map_nil, List.append_nil]
  | cons c body ih =>
    have hc : c ≠ cu '*' := fun h => hstar (h ▸ List.mem_cons_self)
    have hc' : c ≠ cu '?' := fun h => hquestion (h ▸ List.mem_cons_self)
    have hbody := ih (fun h => hstar (List.mem_cons_of_mem c h))
      (fun h => hquestion (List.mem_cons_of_mem c h)) (atoms ++ [classAtom c])
    rw [List.append_assoc, List.singleton_append, ← List.map_cons] at hbody
    rw [List.flatMap_cons, List.append_assoc, ← hbody, unit, if_neg hc, if_neg hc']
    split
    · rename_i hsyntax
      rw [List.cons_append, List.singleton_append, tokens_inClass_escaped hsyntax]
    · rename_i hsyntax
      rw [List.singleton_append, tokens_inClass_chr hsyntax]

/-- A class that is read as it stands. -/
theorem reads_class (hbody : PlainClass body) (hquestion : cu '?' ∉ body) (negated : Bool) :
    Reads (cu '[' :: ((if negated then [cu '^'] else []) ++ body.flatMap unit ++ [cu ']']))
      [(.cls negated (classRanges (body.map classAtom)), false)] := by
  intro t
  have hopen : ∀ t, tokens .outside (cu '[' :: t) = tokens .classStart t := by
    intro t
    rw [tokens, if_neg (by decide), if_neg (by decide), if_neg (by decide), if_neg (by decide),
      if_neg (by decide), if_pos rfl]
  have hinClass : tokens (.inClass negated []) (body.flatMap unit ++ cu ']' :: t) =
      (.atom (.cls negated (classRanges (body.map classAtom))) :: ·) <$> tokens .outside t := by
    rw [tokens_inClass_flatMap hbody.noStar hquestion, List.nil_append, closeClass,
      if_pos hbody.inOrder]
    rfl
  rw [List.cons_append, List.append_assoc, List.append_assoc, List.singleton_append, hopen]
  refine Eq.trans ?_ hinClass
  cases negated with
  | true => rw [if_pos rfl, List.singleton_append, tokens, if_pos rfl]
  | false =>
    rw [if_neg Bool.false_ne_true, List.nil_append]
    refine tokens_classStart fun h => ?_
    -- a `^` of the glob is escaped, so none is at the beginning
    cases body with
    | nil => exact absurd (Option.some.inj h) (by decide)
    | cons c body =>
      have hne : (c :: body).flatMap unit ≠ [] := by
        rw [List.flatMap_cons]
        exact List.append_ne_nil_of_left_ne_nil (unit_ne_nil c) _
      rw [List.head?_append_of_ne_nil _ hne] at h
      rcases head_flatMap_unit h with h | h | h
      · exact absurd h (by decide)
      · exact absurd h (by decide)
      · exact h (by decide)

theorem test_bracketless (h : Bracketless glob) (s : List CodeUnit) :
    test (anchoredSource glob) s = some true ↔ s ∈ language (glob.map unitPiece) := by
  rw [anchoredSource, globToRegexp_bracketless h]
  exact test_anchored (Reads.flatMap reads_unit glob) s

theorem test_oneBracket (h : OneBracket glob negated body post) (hquestion : cu '?' ∉ body)
    (s : List CodeUnit) :
    test (anchoredSource glob) s = some true ↔
      s ∈ language ((beforeBracket glob).map unitPiece ++
        (.cls negated (classRanges (body.map classAtom)), false) :: post.map unitPiece) := by
  rw [anchoredSource, globToRegexp_oneBracket h]
  have hread := (Reads.flatMap reads_unit (beforeBracket glob)).append
    ((reads_class h.plain hquestion negated).append (Reads.flatMap reads_unit post))
  rw [List.singleton_append, List.cons_append, List.append_assoc, List.append_assoc,
    List.singleton_append, ← List.append_assoc] at hread
  exact test_anchored hread s

/-! ## How the glob is read -/

/-- What one character of the glob is, outside brackets. -/
def globTok (c : CodeUnit) : GlobTok :=
  if c = cu '*' then .star else if c = cu '?' then .any else .chr c

theorem parseGlob_cons (hc : c ≠ cu '[') (t : List CodeUnit) :
    parseGlob (c :: t) = globTok c :: parseGlob t := by
  rw [parseGlob, globTok]
  split
  · rfl
  · split
    · rfl
    · rfl

theorem parseGlob_append {pre : List CodeUnit} (hpre : cu '[' ∉ pre) (t : List CodeUnit) :
    parseGlob (pre ++ t) = pre.map globTok ++ parseGlob t := by
  induction pre with
  | nil => rfl
  | cons c pre ih =>
    have hc : c ≠ cu '[' := fun h => hpre (h ▸ List.mem_cons_self)
    rw [List.cons_append, parseGlob_cons hc, ih fun h => hpre (List.mem_cons_of_mem c h)]
    rfl

theorem firstClose_none (h : cu ']' ∉ t) : firstClose t = none := by
  induction t with
  | nil => rfl
  | cons c t ih =>
    have hc : c ≠ cu ']' := fun hc => h (hc ▸ List.mem_cons_self)
    rw [firstClose, if_neg hc, ih fun hrest => h (List.mem_cons_of_mem c hrest)]
    rfl

theorem bracket_none (h : cu ']' ∉ t) : bracket t = none := by
  rw [bracket]
  split
  · rfl
  · rename_i c body hbody
    rw [firstClose_none fun hc => h (mem_of_mem_bang (hbody ▸ List.mem_cons_of_mem c hc))]
    rfl

theorem parseGlob_open :
    parseGlob (cu '[' :: t) =
      match bracket t with
      | some (negated, body, rest) =>
        .cls negated (classRanges (body.map classAtom)) :: parseGlob rest
      | none => .chr (cu '[') :: parseGlob t := by
  rw [parseGlob, if_neg (by decide), if_neg (by decide), if_pos rfl]
  split <;> simp_all

theorem parseGlob_unclosed (h : cu ']' ∉ glob) :
    parseGlob glob = glob.map globTok := by
  induction glob with
  | nil => rw [parseGlob, List.map_nil]
  | cons c glob ih =>
    have hrest : cu ']' ∉ glob := fun hc => h (List.mem_cons_of_mem c hc)
    by_cases hc : c = cu '['
    · rw [hc, parseGlob_open, bracket_none hrest, ih hrest]
      rfl
    · rw [parseGlob_cons hc, ih hrest]
      rfl

theorem parseGlob_bracketless (h : Bracketless glob) : parseGlob glob = glob.map globTok := by
  have hsplit := parseGlob_append (notMem_beforeBracket glob) (fromBracket glob)
  rw [beforeBracket_append, parseGlob_unclosed h, ← List.map_append, beforeBracket_append] at hsplit
  exact hsplit

theorem parseGlob_oneBracket (h : OneBracket glob negated body post) :
    parseGlob glob = (beforeBracket glob).map globTok ++
      .cls negated (classRanges (body.map classAtom)) :: post.map globTok := by
  obtain ⟨t, hfrom, hbracket⟩ := h.bracket_eq
  have hsplit := parseGlob_append (notMem_beforeBracket glob) (fromBracket glob)
  rw [beforeBracket_append, hfrom, parseGlob_open, hbracket] at hsplit
  rw [hsplit]
  dsimp only
  rw [parseGlob_unclosed h.unclosed]

/-! ## The expression and the glob -/

/-- On one line, what becomes of a character other than `?` matches what the character stands
for. -/
theorem unitPiece_agrees (hc : c ≠ cu '?') (hs : OneLine s) :
    s ∈ pieceLanguage (unitPiece c) ↔ s ∈ (globTok c).language := by
  rw [unitPiece, globTok]
  by_cases hstar : c = cu '*'
  · rw [if_pos hstar, if_pos hstar, mem_pieceLanguage_star]
    refine iff_of_true (fun d hd => ?_) trivial
    rw [Atom.accepts, hs d hd]
    rfl
  · rw [if_neg hstar, if_neg hstar, if_neg hc, if_neg hc, mem_pieceLanguage_one]
    constructor
    · rintro ⟨d, hd, rfl⟩
      rw [of_decide_eq_true hd]
      rfl
    · intro h
      exact ⟨c, decide_eq_true rfl, h⟩

theorem forall₂_unitPiece {l : List CodeUnit} (hl : cu '?' ∉ l) :
    List.Forall₂ (fun A B : Language CodeUnit => ∀ s, OneLine s → (s ∈ A ↔ s ∈ B))
      ((l.map unitPiece).map pieceLanguage) ((l.map globTok).map GlobTok.language) := by
  rw [List.map_map, List.map_map, List.forall₂_map_left_iff, List.forall₂_map_right_iff,
    List.forall₂_same]
  intro c hc s hs
  exact unitPiece_agrees (fun h => hl (h ▸ hc)) hs

/-- No `?` is in the glob, or no string of one line is in its language anyway; or the glob has one
bracket expression that is read as it stands, and no `?`. -/
def Readable (glob : List CodeUnit) : Prop :=
  (Bracketless glob ∧ (cu '?' ∉ glob ∨ ¬OneLine glob)) ∨
    (cu '?' ∉ glob ∧ ∃ negated body post, OneBracket glob negated body post)

/-- The expression that is made of the glob and anchored at both ends matches just the strings of
one line that are in the language of the glob. -/
def TranslatedRight (glob : List CodeUnit) : Prop :=
  ∀ s, OneLine s → (test (anchoredSource glob) s = some true ↔ s ∈ globLanguage glob)

theorem translatedRight_bracketless (h : Bracketless glob) (hquestion : cu '?' ∉ glob) :
    TranslatedRight glob := by
  intro s hs
  rw [test_bracketless h, globLanguage, parseGlob_bracketless h, language]
  exact mem_prod_congr (fun _ _ => OneLine.append) (forall₂_unitPiece hquestion) hs

theorem OneBracket.mem_of_mem (h : OneBracket glob negated body post)
    (hc : c ∈ beforeBracket glob ∨ c ∈ body ∨ c ∈ post) : c ∈ glob := by
  obtain ⟨t, hfrom, hbracket⟩ := h.bracket_eq
  rw [← beforeBracket_append glob, hfrom, List.mem_append]
  rcases hc with hc | hc
  · exact Or.inl hc
  · refine Or.inr (List.mem_cons_of_mem _ (mem_of_mem_bang ?_))
    rw [bracket_eq_some hbracket, List.mem_append, List.mem_cons]
    rcases hc with hc | hc
    · exact Or.inl hc
    · exact Or.inr (Or.inr hc)

theorem translatedRight_oneBracket (h : OneBracket glob negated body post)
    (hquestion : cu '?' ∉ glob) : TranslatedRight glob := by
  intro s hs
  have hpre : cu '?' ∉ beforeBracket glob := fun hc => hquestion (h.mem_of_mem (Or.inl hc))
  have hbody : cu '?' ∉ body := fun hc => hquestion (h.mem_of_mem (Or.inr (Or.inl hc)))
  have hpost : cu '?' ∉ post := fun hc => hquestion (h.mem_of_mem (Or.inr (Or.inr hc)))
  rw [test_oneBracket h hbody, globLanguage, parseGlob_oneBracket h, language, List.map_append,
    List.map_append, List.map_cons, List.map_cons]
  refine mem_prod_congr (fun _ _ => OneLine.append) ?_ hs
  exact List.rel_append (forall₂_unitPiece hpre)
    (List.Forall₂.cons (fun s _ => Iff.rfl) (forall₂_unitPiece hpost))

theorem ne_of_isLineTerminator (hc : isLineTerminator c = true) : c ≠ cu '*' ∧ c ≠ cu '?' := by
  constructor <;>
    · rintro rfl
      exact absurd hc (by decide)

/-- A line break of the glob is in every string that the glob stands for. -/
theorem mem_of_mem_globLanguage (hc : isLineTerminator c = true) (hglob : c ∈ glob)
    (hs : s ∈ ((glob.map globTok).map GlobTok.language).prod) : c ∈ s := by
  obtain ⟨hstar, hquestion⟩ := ne_of_isLineTerminator hc
  induction glob generalizing s with
  | nil => exact absurd hglob List.not_mem_nil
  | cons d glob ih =>
    rw [List.map_cons, List.map_cons, List.prod_cons, Language.mem_mul] at hs
    obtain ⟨x, hx, y, hy, rfl⟩ := hs
    rcases List.mem_cons.1 hglob with rfl | hmem
    · rw [globTok, if_neg hstar, if_neg hquestion] at hx
      rw [show x = [c] from hx]
      exact List.mem_append_left y List.mem_cons_self
    · exact List.mem_append_right x (ih hmem hy)

theorem mem_of_mem_language (hc : isLineTerminator c = true) (hglob : c ∈ glob)
    (hs : s ∈ language (glob.map unitPiece)) : c ∈ s := by
  obtain ⟨hstar, hquestion⟩ := ne_of_isLineTerminator hc
  induction glob generalizing s with
  | nil => exact absurd hglob List.not_mem_nil
  | cons d glob ih =>
    rw [List.map_cons, language_cons, Language.mem_mul] at hs
    obtain ⟨x, hx, y, hy, rfl⟩ := hs
    rcases List.mem_cons.1 hglob with rfl | hmem
    · rw [unitPiece, if_neg hstar, if_neg hquestion] at hx
      obtain ⟨d, hd, rfl⟩ := mem_pieceLanguage_one.1 hx
      rw [of_decide_eq_true hd]
      exact List.mem_append_left y List.mem_cons_self
    · exact List.mem_append_right x (ih hmem hy)

/-- A string that the glob stands for: nothing for a star, and an `a` for a `?`. -/
def instanceOf (glob : List CodeUnit) : List CodeUnit :=
  glob.flatMap fun c => if c = cu '*' then [] else if c = cu '?' then [cu 'a'] else [c]

theorem instanceOf_mem (glob : List CodeUnit) :
    instanceOf glob ∈ ((glob.map globTok).map GlobTok.language).prod := by
  induction glob with
  | nil => exact Language.nil_mem_one
  | cons c glob ih =>
    rw [List.map_cons, List.map_cons, List.prod_cons, Language.mem_mul, instanceOf,
      List.flatMap_cons]
    refine ⟨_, ?_, _, ih, rfl⟩
    rw [globTok]
    split
    · exact trivial
    · split
      · exact ⟨cu 'a', rfl⟩
      · exact rfl

theorem oneLine_instanceOf (h : OneLine glob) : OneLine (instanceOf glob) := by
  intro d hd
  obtain ⟨c, hc, hd⟩ := List.mem_flatMap.1 hd
  split at hd
  · exact absurd hd List.not_mem_nil
  · split at hd
    · rw [List.mem_singleton.1 hd]
      decide
    · rw [List.mem_singleton.1 hd]
      exact h c hc

theorem count_instanceOf (glob : List CodeUnit) :
    (instanceOf glob).count (cu '.') = glob.count (cu '.') := by
  induction glob with
  | nil => rfl
  | cons c glob ih =>
    rw [instanceOf] at ih
    rw [instanceOf, List.flatMap_cons, List.count_append, ih, List.count_cons]
    split
    · rename_i hc
      rw [hc]
      simp only [List.count_nil, zero_add]
      rfl
    · split
      · rename_i hc
        rw [hc, Nat.add_comm]
        rfl
      · rw [List.count_singleton, Nat.add_comm]

/-- What the expression matches has a point for every point and for every `?` of the glob. -/
theorem count_le_of_mem_language (h : s ∈ language (glob.map unitPiece)) :
    glob.count (cu '.') + glob.count (cu '?') ≤ s.count (cu '.') := by
  induction glob generalizing s with
  | nil => exact Nat.zero_le _
  | cons c glob ih =>
    rw [List.map_cons, language_cons, Language.mem_mul] at h
    obtain ⟨x, hx, y, hy, rfl⟩ := h
    have hrest := ih hy
    have hx : (if c = cu '.' then 1 else 0) + (if c = cu '?' then 1 else 0) ≤
        x.count (cu '.') := by
      rw [unitPiece] at hx
      split at hx
      · rename_i hc
        rw [hc, if_neg (by decide), if_neg (by decide)]
        exact Nat.zero_le _
      · split at hx
        · rename_i hc
          obtain ⟨d, hd, rfl⟩ := mem_pieceLanguage_one.1 hx
          rw [of_decide_eq_true hd, hc]
          decide
        · rename_i hc
          obtain ⟨d, hd, rfl⟩ := mem_pieceLanguage_one.1 hx
          rw [of_decide_eq_true hd, if_neg hc, List.count_singleton, Nat.add_zero]
          exact le_of_eq (by simp only [beq_iff_eq])
    rw [List.count_append, List.count_cons, List.count_cons]
    simp only [beq_iff_eq]
    omega

/-- Without brackets that is all: of a `?` the expression makes a point. -/
theorem translatedRight_iff (h : Bracketless glob) :
    TranslatedRight glob ↔ cu '?' ∉ glob ∨ ¬OneLine glob := by
  constructor
  · intro hright
    by_contra hnot
    rw [not_or, not_not, not_not] at hnot
    obtain ⟨hquestion, hline⟩ := hnot
    have hmem : instanceOf glob ∈ globLanguage glob := by
      rw [globLanguage, parseGlob_bracketless h]
      exact instanceOf_mem glob
    have htest := (hright _ (oneLine_instanceOf hline)).2 hmem
    have hcount := count_le_of_mem_language ((test_bracketless h _).1 htest)
    rw [count_instanceOf] at hcount
    have hpos := List.count_pos_iff.2 hquestion
    omega
  · rintro (hquestion | hline)
    · exact translatedRight_bracketless h hquestion
    · -- neither has a string of one line
      intro s hs
      obtain ⟨c, hc, hbreak⟩ : ∃ c ∈ glob, isLineTerminator c = true := by
        by_contra hnot
        refine hline fun c hc => ?_
        by_contra hbreak
        exact hnot ⟨c, hc, Bool.not_eq_false _ ▸ hbreak⟩
      have hout : c ∉ s := fun hcs => absurd (hs c hcs) (by rw [hbreak]; exact Bool.noConfusion)
      rw [test_bracketless h, globLanguage, parseGlob_bracketless h]
      exact iff_of_false (fun hmem => hout (mem_of_mem_language hbreak hc hmem))
        fun hmem => hout (mem_of_mem_globLanguage hbreak hc hmem)

/-- **When a glob is translated right**: it is when it is readable, and a glob without brackets is
in no other case. -/
theorem globToRegexp_correct_iff (glob : List CodeUnit) :
    (Readable glob → TranslatedRight glob) ∧
      (Bracketless glob → (TranslatedRight glob ↔ Readable glob)) := by
  have hreadable : Readable glob → TranslatedRight glob := by
    rintro (⟨hbracketless, h⟩ | ⟨hquestion, negated, body, post, h⟩)
    · exact (translatedRight_iff hbracketless).2 h
    · exact translatedRight_oneBracket h hquestion
  refine ⟨hreadable, fun hbracketless => ⟨fun hright => ?_, hreadable⟩⟩
  exact Or.inl ⟨hbracketless, (translatedRight_iff hbracketless).1 hright⟩

/-- The glob `a.[!b-d]*` is one of those with brackets that are translated right. -/
theorem globToRegexp_correct_iff_class :
    TranslatedRight (['a', '.', '[', '!', 'b', '-', 'd', ']', '*'].map cu) := by
  refine (globToRegexp_correct_iff _).1 (Or.inr ⟨by decide, true, ['b', '-', 'd'].map cu,
    [cu '*'], ⟨['!', 'b', '-', 'd', ']', '*'].map cu, by decide, by decide⟩, ⟨?_, ?_, ?_, ?_⟩, ?_⟩)
  · decide
  · decide
  · decide
  · decide
  · decide

/-- The glob `?` and the string `a`. -/
theorem globToRegexp_fails :
    OneLine [cu 'a'] ∧ [cu 'a'] ∈ globLanguage [cu '?'] ∧
      test (anchoredSource [cu '?']) [cu 'a'] = some false ∧
      ¬∀ glob s, OneLine s →
        (test (anchoredSource glob) s = some true ↔ s ∈ globLanguage glob) := by
  have hline : OneLine [cu 'a'] := by decide
  have hmem : [cu 'a'] ∈ globLanguage [cu '?'] := by
    rw [globLanguage, parseGlob_bracketless (by decide)]
    exact instanceOf_mem [cu '?']
  have htest : test (anchoredSource [cu '?']) [cu 'a'] = some false := by
    rw [anchoredSource, globToRegexp_bracketless (by decide)]
    decide
  refine ⟨hline, hmem, htest, fun h => ?_⟩
  have hsome := (h _ _ hline).2 hmem
  rw [htest] at hsome
  exact nomatch hsome

end MatrixSdk.Utils
