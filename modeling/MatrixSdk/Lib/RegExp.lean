/-
Regular expressions of ECMAScript, without groups and alternatives: the grammar by which the text of
an expression is read, and the search for a match.

A string is a list of UTF-16 code units, and without the flag `u` an expression matches one code
unit at a time. What an expression that is anchored at both ends matches is a product of languages,
[`search_anchored`]. Neither the flag `i` nor `m` or `s` is modelled.
-/
import Mathlib.Computability.Language

set_option autoImplicit false

namespace MatrixSdk.RegExp

/-! ## Strings -/

/-- A code unit of UTF-16. -/
abbrev CodeUnit := UInt16

/-- The code unit of a character of the basic plane. -/
def cu (c : Char) : CodeUnit := .ofNat c.toNat

/-- The code units of a string: a character outside the basic plane is a surrogate pair. -/
def utf16 (s : String) : List CodeUnit :=
  s.toList.flatMap fun c =>
    if c.toNat < 0x10000 then [cu c]
    else
      let rest := c.toNat - 0x10000
      [.ofNat (0xD800 + rest / 0x400), .ofNat (0xDC00 + rest % 0x400)]

/-- `LineTerminator`: line feed, carriage return, and the line and paragraph separators. -/
def isLineTerminator (c : CodeUnit) : Bool :=
  c = 0x0A || c = 0x0D || c = 0x2028 || c = 0x2029

/-- `SyntaxCharacter` -/
def syntaxCharacters : List CodeUnit :=
  ['^', '$', '\\', '.', '*', '+', '?', '(', ')', '[', ']', '{', '}', '|'].map cu

/-- A string without line breaks. -/
def OneLine (s : List CodeUnit) : Prop := ∀ c ∈ s, isLineTerminator c = false

theorem oneLine_iff_all {s : List CodeUnit} :
    OneLine s ↔ (s.all fun c => !isLineTerminator c) = true := by
  simp only [OneLine, List.all_eq_true, Bool.not_eq_true']

instance (s : List CodeUnit) : Decidable (OneLine s) := decidable_of_iff _ oneLine_iff_all.symm

/-! ## Expressions -/

/-- `ClassAtom`: a `-` that may stand for a range, or a character. -/
inductive ClassAtom
  | dash
  | lit (c : CodeUnit)
  deriving DecidableEq

def ClassAtom.codeUnit : ClassAtom → CodeUnit
  | .dash => cu '-'
  | .lit c => c

/-- `ClassRanges`: an atom between two of which stands a `-` begins a range, any other is one
character. -/
def classRanges : List ClassAtom → List (CodeUnit × CodeUnit)
  | [] => []
  | a :: .dash :: b :: rest => (a.codeUnit, b.codeUnit) :: classRanges rest
  | a :: rest => (a.codeUnit, a.codeUnit) :: classRanges rest

inductive Atom
  | any
  | chr (c : CodeUnit)
  | cls (negated : Bool) (ranges : List (CodeUnit × CodeUnit))
  deriving DecidableEq

def inRanges (ranges : List (CodeUnit × CodeUnit)) (c : CodeUnit) : Bool :=
  ranges.any fun range => range.1 ≤ c && c ≤ range.2

def Atom.accepts : Atom → CodeUnit → Bool
  | .any, c => !isLineTerminator c
  | .chr d, c => c = d
  | .cls negated ranges, c => inRanges ranges c != negated

/-- `Term`: an assertion, or an atom with or without a `*`. -/
inductive Term
  | start
  | finish
  | piece (a : Atom) (starred : Bool)
  deriving DecidableEq

/-! ## Reading the text of an expression -/

inductive Tok
  | start
  | finish
  | atom (a : Atom)
  | star
  deriving DecidableEq

inductive Mode
  | outside
  | escape
  | classStart
  | inClass (negated : Bool) (atoms : List ClassAtom)
  | classEscape (negated : Bool) (atoms : List ClassAtom)

/-- The class that ends; there is none when a range is out of order. -/
def closeClass (negated : Bool) (atoms : List ClassAtom) : Option Tok :=
  if (classRanges atoms).all fun range => range.1 ≤ range.2 then
    some (.atom (.cls negated (classRanges atoms)))
  else
    none

/-- The tokens of the text: `none` where the expression is refused, or has what is not modelled. -/
def tokens : Mode → List CodeUnit → Option (List Tok)
  | .outside, [] => some []
  | .outside, c :: t =>
    if c = cu '\\' then tokens .escape t
    else if c = cu '.' then (.atom .any :: ·) <$> tokens .outside t
    else if c = cu '*' then (.star :: ·) <$> tokens .outside t
    else if c = cu '^' then (.start :: ·) <$> tokens .outside t
    else if c = cu '$' then (.finish :: ·) <$> tokens .outside t
    else if c = cu '[' then tokens .classStart t
    else if c ∈ syntaxCharacters then none
    else (.atom (.chr c) :: ·) <$> tokens .outside t
  | .escape, c :: t =>
    -- of the escapes only those of a character that would have a meaning
    if c ∈ syntaxCharacters then (.atom (.chr c) :: ·) <$> tokens .outside t else none
  | .classStart, c :: t =>
    if c = cu '^' then tokens (.inClass true []) t
    else if c = cu '\\' then tokens (.classEscape false []) t
    else if c = cu ']' then
      (closeClass false []).bind fun tok => (tok :: ·) <$> tokens .outside t
    else if c = cu '-' then tokens (.inClass false [.dash]) t
    else tokens (.inClass false [.lit c]) t
  | .inClass negated atoms, c :: t =>
    if c = cu '\\' then tokens (.classEscape negated atoms) t
    else if c = cu ']' then
      (closeClass negated atoms).bind fun tok => (tok :: ·) <$> tokens .outside t
    else if c = cu '-' then tokens (.inClass negated (atoms ++ [.dash])) t
    else tokens (.inClass negated (atoms ++ [.lit c])) t
  | .classEscape negated atoms, c :: t =>
    if c ∈ syntaxCharacters ∨ c = cu '-' then tokens (.inClass negated (atoms ++ [.lit c])) t
    else none
  | _, [] => none

/-- A `*` belongs to the atom before it. -/
def terms : List Tok → Option (List Term)
  | [] => some []
  | .start :: toks => (.start :: ·) <$> terms toks
  | .finish :: toks => (.finish :: ·) <$> terms toks
  | .atom a :: .star :: toks => (.piece a true :: ·) <$> terms toks
  | .atom a :: toks => (.piece a false :: ·) <$> terms toks
  | .star :: _ => none

/-- `new RegExp(source)` -/
def compile (source : List CodeUnit) : Option (List Term) :=
  (tokens .outside source).bind terms

/-! ## Matching -/

/-- The atom is matched any number of times, then what follows. -/
def matchStarred (a : Atom) (k : Bool → List CodeUnit → Bool) : Bool → List CodeUnit → Bool
  | first, [] => k first []
  | first, c :: s => k first (c :: s) || (a.accepts c && matchStarred a k false s)

/-- Whether the terms match from here: `first` says that this is where the string begins. -/
def matchHere : List Term → Bool → List CodeUnit → Bool
  | [], _, _ => true
  | .start :: ts, first, s => first && matchHere ts first s
  | .finish :: ts, first, s => s.isEmpty && matchHere ts first s
  | .piece _ false :: _, _, [] => false
  | .piece a false :: ts, _, c :: s => a.accepts c && matchHere ts false s
  | .piece a true :: ts, first, s => matchStarred a (matchHere ts) first s

/-- Whether the terms match from here or from somewhere after it. -/
def search (ts : List Term) : Bool → List CodeUnit → Bool
  | first, [] => matchHere ts first []
  | first, c :: s => matchHere ts first (c :: s) || search ts false s

/-- `!!s.match(new RegExp(source))`, which throws when the expression is refused. -/
def test (source s : List CodeUnit) : Option Bool :=
  (compile source).map fun ts => search ts true s

/-! ## Reading escaped text -/

theorem tokens_escaped {c : CodeUnit} (hc : c ∈ syntaxCharacters) (t : List CodeUnit) :
    tokens .outside (cu '\\' :: c :: t) = (.atom (.chr c) :: ·) <$> tokens .outside t := by
  rw [tokens, if_pos rfl, tokens, if_pos hc]

theorem ne_of_notMem_syntaxCharacters {c d : CodeUnit} (hc : c ∉ syntaxCharacters)
    (hd : d ∈ syntaxCharacters) : c ≠ d := by
  rintro rfl
  exact hc hd

theorem tokens_chr {c : CodeUnit} (hc : c ∉ syntaxCharacters) (t : List CodeUnit) :
    tokens .outside (c :: t) = (.atom (.chr c) :: ·) <$> tokens .outside t := by
  have hne : ∀ d ∈ syntaxCharacters, c ≠ d := fun d hd => ne_of_notMem_syntaxCharacters hc hd
  rw [tokens, if_neg (hne _ (by decide)), if_neg (hne _ (by decide)), if_neg (hne _ (by decide)),
    if_neg (hne _ (by decide)), if_neg (hne _ (by decide)), if_neg (hne _ (by decide)), if_neg hc]

/-- How a character stands in a class: `-` alone is not for itself. -/
def classAtom (c : CodeUnit) : ClassAtom := if c = cu '-' then .dash else .lit c

theorem tokens_inClass_escaped {c : CodeUnit} (hc : c ∈ syntaxCharacters) (negated : Bool)
    (atoms : List ClassAtom) (t : List CodeUnit) :
    tokens (.inClass negated atoms) (cu '\\' :: c :: t) =
      tokens (.inClass negated (atoms ++ [classAtom c])) t := by
  have hdash : c ≠ cu '-' := by
    rintro rfl
    exact absurd hc (by decide)
  rw [tokens, if_pos rfl, tokens, if_pos (Or.inl hc), classAtom, if_neg hdash]

theorem tokens_inClass_chr {c : CodeUnit} (hc : c ∉ syntaxCharacters) (negated : Bool)
    (atoms : List ClassAtom) (t : List CodeUnit) :
    tokens (.inClass negated atoms) (c :: t) =
      tokens (.inClass negated (atoms ++ [classAtom c])) t := by
  have hne : ∀ d ∈ syntaxCharacters, c ≠ d := fun d hd => ne_of_notMem_syntaxCharacters hc hd
  rw [tokens, if_neg (hne _ (by decide)), if_neg (hne _ (by decide)), classAtom]
  by_cases hdash : c = cu '-'
  · rw [if_pos hdash, if_pos hdash]
  · rw [if_neg hdash, if_neg hdash]

theorem tokens_inClass_close (negated : Bool) (atoms : List ClassAtom) (t : List CodeUnit) :
    tokens (.inClass negated atoms) (cu ']' :: t) =
      (closeClass negated atoms).bind fun tok => (tok :: ·) <$> tokens .outside t := by
  rw [tokens, if_neg (by decide), if_pos rfl]

/-- A class that does not begin with `^` is not negated. -/
theorem tokens_classStart {t : List CodeUnit} (ht : t.head? ≠ some (cu '^')) :
    tokens .classStart t = tokens (.inClass false []) t := by
  cases t with
  | nil => rfl
  | cons c t =>
    have hc : c ≠ cu '^' := by
      rintro rfl
      exact ht rfl
    rw [tokens, if_neg hc, tokens, List.nil_append, List.nil_append]

/-! ## What an anchored expression matches -/

/-- What an atom with or without a `*` matches. -/
def pieceLanguage : Atom × Bool → Language CodeUnit
  | (a, false) => {s | ∃ c, a.accepts c = true ∧ s = [c]}
  | (a, true) => {s | ∀ c ∈ s, a.accepts c = true}

theorem mem_pieceLanguage_one {a : Atom} {s : List CodeUnit} :
    s ∈ pieceLanguage (a, false) ↔ ∃ c, a.accepts c = true ∧ s = [c] := Iff.rfl

theorem mem_pieceLanguage_star {a : Atom} {s : List CodeUnit} :
    s ∈ pieceLanguage (a, true) ↔ ∀ c ∈ s, a.accepts c = true := Iff.rfl

theorem nil_mem_pieceLanguage_star (a : Atom) : [] ∈ pieceLanguage (a, true) := by
  rw [mem_pieceLanguage_star]
  intro c hc
  exact absurd hc List.not_mem_nil

/-- What the pieces match one after the other. -/
def language (pieces : List (Atom × Bool)) : Language CodeUnit :=
  (pieces.map pieceLanguage).prod

theorem language_cons (p : Atom × Bool) (pieces : List (Atom × Bool)) :
    language (p :: pieces) = pieceLanguage p * language pieces := by
  rw [language, List.map_cons, List.prod_cons]
  rfl

/-- A `*` gives to its atom some first part of the string. -/
theorem matchStarred_iff {a : Atom} {k : Bool → List CodeUnit → Bool} {L : Language CodeUnit}
    (hk : ∀ first s, k first s = true ↔ s ∈ L) (first : Bool) (s : List CodeUnit) :
    matchStarred a k first s = true ↔ s ∈ pieceLanguage (a, true) * L := by
  rw [Language.mem_mul]
  induction s generalizing first with
  | nil =>
    rw [matchStarred, hk]
    constructor
    · intro h
      exact ⟨[], nil_mem_pieceLanguage_star a, [], h, rfl⟩
    · rintro ⟨x, -, y, hy, hxy⟩
      obtain ⟨rfl, rfl⟩ := List.append_eq_nil_iff.1 hxy
      exact hy
  | cons c s ih =>
    rw [matchStarred, Bool.or_eq_true, Bool.and_eq_true, hk, ih]
    constructor
    · rintro (h | ⟨hc, x, hx, y, hy, rfl⟩)
      · exact ⟨[], nil_mem_pieceLanguage_star a, c :: s, h, rfl⟩
      · refine ⟨c :: x, fun d hd => ?_, y, hy, rfl⟩
        rcases List.mem_cons.1 hd with rfl | hd
        · exact hc
        · exact hx d hd
    · rintro ⟨x, hx, y, hy, hxy⟩
      cases x with
      | nil =>
        left
        rw [← hxy]
        exact hy
      | cons d x =>
        -- the first character is one of those that the `*` takes
        obtain ⟨rfl, rfl⟩ := List.cons.inj hxy
        exact Or.inr ⟨hx d List.mem_cons_self, x,
          fun e he => hx e (List.mem_cons_of_mem _ he), y, hy, rfl⟩

/-- The pieces and then the end of the string. -/
theorem matchHere_pieces (pieces : List (Atom × Bool)) (first : Bool) (s : List CodeUnit) :
    matchHere (pieces.map (fun p => .piece p.1 p.2) ++ [.finish]) first s = true ↔
      s ∈ language pieces := by
  induction pieces generalizing first s with
  | nil =>
    rw [List.map_nil, List.nil_append, matchHere, matchHere, Bool.and_true, List.isEmpty_iff]
    exact (Language.mem_one s).symm
  | cons p pieces ih =>
    rw [List.map_cons, List.cons_append, language_cons]
    obtain ⟨a, starred⟩ := p
    cases starred with
    | true => exact matchStarred_iff ih first s
    | false =>
      rw [Language.mem_mul]
      cases s with
      | nil =>
        rw [matchHere]
        constructor
        · intro h
          exact absurd h Bool.false_ne_true
        · rintro ⟨x, ⟨c, -, rfl⟩, y, -, hxy⟩
          exact nomatch hxy
      | cons c s =>
        rw [matchHere, Bool.and_eq_true, ih]
        constructor
        · rintro ⟨hc, hs⟩
          exact ⟨[c], ⟨c, hc, rfl⟩, s, hs, rfl⟩
        · rintro ⟨x, ⟨d, hd, rfl⟩, y, hy, hxy⟩
          obtain ⟨rfl, rfl⟩ := List.cons.inj hxy
          exact ⟨hd, hy⟩

theorem search_start_false (ts : List Term) (s : List CodeUnit) :
    search (.start :: ts) false s = false := by
  induction s with
  | nil => rw [search, matchHere, Bool.false_and]
  | cons c s ih => rw [search, matchHere, Bool.false_and, ih, Bool.false_or]

/-- **An expression that is anchored at both ends** matches the strings that its pieces match one
after the other. -/
theorem search_anchored (pieces : List (Atom × Bool)) (s : List CodeUnit) :
    search (.start :: (pieces.map (fun p => .piece p.1 p.2) ++ [.finish])) true s = true ↔
      s ∈ language pieces := by
  rw [← matchHere_pieces pieces true]
  cases s with
  | nil => rw [search, matchHere, Bool.true_and]
  | cons c s => rw [search, matchHere, Bool.true_and, search_start_false, Bool.or_false]

/-- A piece as it is written. -/
def pieceToks : Atom × Bool → List Tok
  | (a, false) => [.atom a]
  | (a, true) => [.atom a, .star]

theorem terms_atom {a : Atom} {toks : List Tok} (h : toks.head? ≠ some .star) :
    terms (.atom a :: toks) = (.piece a false :: ·) <$> terms toks := by
  refine terms.eq_5 a toks fun rest hrest => ?_
  rw [hrest] at h
  exact h rfl

theorem terms_pieces {pieces : List (Atom × Bool)} {toks : List Tok}
    (h : toks.head? ≠ some .star) :
    terms (pieces.flatMap pieceToks ++ toks) =
      (pieces.map (fun p => Term.piece p.1 p.2) ++ ·) <$> terms toks := by
  induction pieces with
  | nil => exact (id_map _).symm
  | cons p pieces ih =>
    -- what follows a piece is another one, or what follows them all: not a star
    have hhead : (pieces.flatMap pieceToks ++ toks).head? ≠ some .star := by
      cases pieces with
      | nil => exact h
      | cons q pieces =>
        obtain ⟨a, starred⟩ := q
        cases starred <;> exact fun hq => nomatch hq
    obtain ⟨a, starred⟩ := p
    rw [List.flatMap_cons, List.append_assoc]
    cases starred with
    | false =>
      rw [pieceToks, List.singleton_append, terms_atom hhead, ih, Functor.map_map]
      rfl
    | true =>
      rw [pieceToks, List.cons_append, List.singleton_append, terms, ih, Functor.map_map]
      rfl

/-- The text is read as these pieces, whatever comes after it. -/
def Reads (text : List CodeUnit) (pieces : List (Atom × Bool)) : Prop :=
  ∀ t, tokens .outside (text ++ t) = (pieces.flatMap pieceToks ++ ·) <$> tokens .outside t

theorem Reads.nil : Reads [] [] := fun _ => (id_map _).symm

theorem Reads.append {x y : List CodeUnit} {p q : List (Atom × Bool)} (hx : Reads x p)
    (hy : Reads y q) : Reads (x ++ y) (p ++ q) := by
  intro t
  rw [List.append_assoc, hx, hy, Functor.map_map, List.flatMap_append]
  simp only [List.append_assoc]

theorem Reads.flatMap {f : CodeUnit → List CodeUnit} {g : CodeUnit → Atom × Bool}
    (h : ∀ c, Reads (f c) [g c]) (l : List CodeUnit) : Reads (l.flatMap f) (l.map g) := by
  induction l with
  | nil => exact Reads.nil
  | cons c l ih =>
    rw [List.flatMap_cons, List.map_cons, ← List.singleton_append]
    exact (h c).append ih

/-- **What an expression does** that is read as pieces between its two ends. -/
theorem test_anchored {text : List CodeUnit} {pieces : List (Atom × Bool)}
    (h : Reads text pieces) (s : List CodeUnit) :
    test ([cu '^'] ++ text ++ [cu '$']) s = some true ↔ s ∈ language pieces := by
  have hfinish : tokens .outside [cu '$'] = some [.finish] := by
    rw [tokens, if_neg (by decide), if_neg (by decide), if_neg (by decide), if_neg (by decide),
      if_pos rfl, tokens]
    rfl
  have htokens : tokens .outside ([cu '^'] ++ text ++ [cu '$']) =
      some (.start :: (pieces.flatMap pieceToks ++ [.finish])) := by
    rw [List.append_assoc, List.singleton_append, tokens, if_neg (by decide), if_neg (by decide),
      if_neg (by decide), if_pos rfl, h, hfinish]
    rfl
  have hterms : terms (pieces.flatMap pieceToks ++ [.finish]) =
      some (pieces.map (fun p => Term.piece p.1 p.2) ++ [.finish]) := by
    rw [terms_pieces (by decide)]
    rfl
  rw [test, compile, htokens, Option.bind_some, terms, hterms, ← search_anchored]
  exact Option.some_inj

/-- Products of languages agree on the strings on which their factors do, when every part of such a
string is one. -/
theorem mem_prod_congr {α : Type*} {P : List α → Prop} (hP : ∀ x y, P (x ++ y) → P x ∧ P y)
    {l m : List (Language α)}
    (h : List.Forall₂ (fun A B : Language α => ∀ s, P s → (s ∈ A ↔ s ∈ B)) l m) {s : List α}
    (hs : P s) : s ∈ l.prod ↔ s ∈ m.prod := by
  induction h generalizing s with
  | nil => rfl
  | @cons A B l m hAB _ ih =>
    rw [List.prod_cons, List.prod_cons, Language.mem_mul, Language.mem_mul]
    constructor
    · rintro ⟨x, hx, y, hy, rfl⟩
      obtain ⟨hPx, hPy⟩ := hP x y hs
      exact ⟨x, (hAB x hPx).1 hx, y, (ih hPy).1 hy, rfl⟩
    · rintro ⟨x, hx, y, hy, rfl⟩
      obtain ⟨hPx, hPy⟩ := hP x y hs
      exact ⟨x, (hAB x hPx).2 hx, y, (ih hPy).2 hy, rfl⟩

theorem OneLine.append {x y : List CodeUnit} (h : OneLine (x ++ y)) : OneLine x ∧ OneLine y :=
  ⟨fun c hc => h c (List.mem_append_left y hc), fun c hc => h c (List.mem_append_right x hc)⟩

end MatrixSdk.RegExp
