import BundleAudit.Wildcard
import Mathlib.Computability.Language

/-!
# Wildcards as regular expressions

A wildcard is searched for in a name as a regular expression.  The expression is a text, and what it
finds is said by the rules for such texts: a backslash takes the meaning away from the sign behind
it, a dot stands for any character but the line feed, a star for any number of what is before it,
and a character that is no operator for itself.  The other operators are not needed here, so a text
that uses them is not read.

## Main definitions

* `Expression.read? text` — the expression that a text is.
* `Expression.language items` — the texts that an expression stands for.
* `Expression.Finds items name` — one of them is a part of the name.
* `Wildcard.weave pieces gaps` — the pieces with the gaps between them.

## Main results

* `Wildcard.read?_pattern` — the text of a wildcard is read as its pieces, character by character,
  with a repeated dot between them.
* `Wildcard.mem_language_items_cons` — the expression stands for the pieces with gaps between them.
* `Wildcard.chain_cons_iff_weave` — a chain of pieces is the same.
* `Wildcard.pattern_finds` — **what a wildcard finds**.
-/

namespace BundleAudit

/-! ### Texts of expressions -/

namespace Expression

/-- What stands for a single character. -/
inductive Atom where
  /-- The character itself. -/
  | literal (c : Char)
  /-- Any character but the line feed. -/
  | dot
deriving DecidableEq, Repr

/-- A sign in the text of an expression. -/
inductive Sign where
  /-- A sign for a character. -/
  | atom (a : Atom)
  /-- The sign for repetition. -/
  | star
deriving DecidableEq, Repr

/-- A part of an expression. -/
inductive Item where
  /-- One character. -/
  | once (a : Atom)
  /-- Any number of characters. -/
  | repeated (a : Atom)
deriving DecidableEq, Repr

/-- The signs with a meaning of their own. -/
def isOperator (c : Char) : Bool := "\\.+*?()|[]\x7b\x7d^$".toList.contains c

/-- The characters that may follow a backslash and then stand for themselves: the ASCII characters
but letters, digits and the two angle brackets. -/
def isEscapable (c : Char) : Bool := c.toNat < 128 && !c.isAlphanum && c ≠ '<' && c ≠ '>'

/-- The signs of a text. -/
def signs? : List Char → Option (List Sign)
  | [] => some []
  | '\\' :: c :: cs => if isEscapable c then (signs? cs).map (.atom (.literal c) :: ·) else none
  | '.' :: cs => (signs? cs).map (.atom .dot :: ·)
  | '*' :: cs => (signs? cs).map (.star :: ·)
  | c :: cs => if isOperator c then none else (signs? cs).map (.atom (.literal c) :: ·)

/-- The parts of an expression.  A star belongs to the sign before it. -/
def items? : List Sign → Option (List Item)
  | [] => some []
  | .atom a :: .star :: signs => (items? signs).map (.repeated a :: ·)
  | .atom a :: signs => (items? signs).map (.once a :: ·)
  | .star :: _ => none

/-- The expression that a text is. -/
def read? (text : List Char) : Option (List Item) := (signs? text).bind items?

@[simp] theorem signs?_nil : signs? [] = some [] := rfl

@[simp] theorem signs?_dot (cs : List Char) :
    signs? ('.' :: cs) = (signs? cs).map (.atom .dot :: ·) := by
  rw [signs?]

@[simp] theorem signs?_star (cs : List Char) :
    signs? ('*' :: cs) = (signs? cs).map (.star :: ·) := by
  rw [signs?]

theorem signs?_escaped {c : Char} (h : isEscapable c) (cs : List Char) :
    signs? ('\\' :: c :: cs) = (signs? cs).map (.atom (.literal c) :: ·) := by
  rw [signs?, if_pos h]

theorem signs?_literal {c : Char} (h : ¬ isOperator c) (cs : List Char) :
    signs? (c :: cs) = (signs? cs).map (.atom (.literal c) :: ·) := by
  have hoperators : c ≠ '\\' ∧ c ≠ '.' ∧ c ≠ '*' := by
    refine ⟨?_, ?_, ?_⟩ <;> rintro rfl <;> exact h (by decide)
  rw [signs?, if_neg h]
  · exact fun _ _ hc _ => hoperators.1 hc
  · exact hoperators.2.1
  · exact hoperators.2.2

/-- A sign that no star follows stands for one character. -/
theorem items?_once {signs : List Sign} (h : signs.head? ≠ some .star) (a : Atom) :
    items? (.atom a :: signs) = (items? signs).map (.once a :: ·) := by
  rw [items?]
  rintro rest rfl
  exact h rfl

theorem items?_repeated (a : Atom) (signs : List Sign) :
    items? (.atom a :: .star :: signs) = (items? signs).map (.repeated a :: ·) := by
  rw [items?]

/-! ### What an expression stands for -/

/-- A character that an atom stands for. -/
def Atom.Fits : Atom → Char → Prop
  | .literal c, d => d = c
  | .dot, d => d ≠ '\n'

/-- The texts that an atom stands for have one character. -/
def Atom.language (a : Atom) : Language Char := {text | ∃ c, a.Fits c ∧ text = [c]}

/-- The texts that a part of an expression stands for. -/
def Item.language : Item → Language Char
  | .once a => a.language
  | .repeated a => KStar.kstar a.language

/-- The texts that an expression stands for have what its parts stand for one after the other. -/
def language (items : List Item) : Language Char := (items.map Item.language).prod

/-- A part of a name is one of the texts that an expression stands for. -/
def Finds (items : List Item) (name : List Char) : Prop :=
  ∃ before found after, name = before ++ found ++ after ∧ found ∈ language items

theorem Atom.mem_language {a : Atom} {text : List Char} :
    text ∈ a.language ↔ ∃ c, a.Fits c ∧ text = [c] :=
  Iff.rfl

theorem mem_language_nil {text : List Char} : text ∈ language [] ↔ text = [] := by
  rw [language, List.map_nil, List.prod_nil, Language.mem_one]

theorem language_append (items items' : List Item) :
    language (items ++ items') = language items * language items' := by
  rw [language, List.map_append, List.prod_append, language, language]

theorem language_cons (item : Item) (items : List Item) :
    language (item :: items) = item.language * language items := by
  rw [language, List.map_cons, List.prod_cons, language]

/-- A repeated atom stands for the texts of characters that it fits. -/
theorem mem_language_repeated {a : Atom} {text : List Char} :
    text ∈ (Item.repeated a).language ↔ ∀ c ∈ text, a.Fits c := by
  rw [Item.language, Language.mem_kstar]
  constructor
  · rintro ⟨parts, rfl, hparts⟩ c hc
    obtain ⟨part, hpart, hmem⟩ := List.mem_flatten.1 hc
    obtain ⟨d, hd, rfl⟩ := Atom.mem_language.1 (hparts part hpart)
    rwa [List.mem_singleton.1 hmem]
  · intro h
    refine ⟨text.map fun c => [c], ?_, fun part hpart => ?_⟩
    · induction text with
      | nil => rfl
      | cons c text ih =>
        rw [List.map_cons, List.flatten_cons, ← ih fun d hd => h d (List.mem_cons_of_mem c hd)]
        rfl
    · obtain ⟨c, hc, rfl⟩ := List.mem_map.1 hpart
      exact Atom.mem_language.2 ⟨c, h c hc, rfl⟩

/-- A piece of a name as an expression. -/
def literals (piece : List Char) : List Item := piece.map fun c => .once (.literal c)

/-- Literals stand for themselves only. -/
theorem mem_language_literals {piece text : List Char} :
    text ∈ language (literals piece) ↔ text = piece := by
  induction piece generalizing text with
  | nil => exact mem_language_nil
  | cons c piece ih =>
    rw [literals, List.map_cons, language_cons, Language.mem_mul]
    constructor
    · rintro ⟨_, ⟨d, rfl, rfl⟩, rest, hrest, rfl⟩
      rw [ih.1 hrest, List.singleton_append]
    · rintro rfl
      exact ⟨[c], ⟨c, rfl, rfl⟩, piece, ih.2 rfl, rfl⟩

end Expression

namespace Wildcard

open Expression

variable {c : Char} {piece text : List Char} {pieces gaps : List (List Char)} {stem : List Char}

/-! ### The text of a wildcard -/

/-- A wildcard as an expression: between its pieces there may be anything but a line feed. -/
def items (w : Wildcard) : List Item := [.repeated .dot].intercalate (w.pieces.map literals)

/-- What has a meaning of its own is escaped, and may be. -/
theorem isEscapable_of_isMeta (h : isMeta c) : isEscapable c := by
  have hall : "\\.+*?()|[]\x7b\x7d^$#&-~".toList.all isEscapable := by decide
  exact List.all_eq_true.1 hall c (List.contains_iff_mem.1 h)

theorem not_isOperator_of_not_isMeta (h : ¬ isMeta c) : ¬ isOperator c := by
  have hall : "\\.+*?()|[]\x7b\x7d^$".toList.all isMeta := by decide
  intro hoperator
  exact h (List.all_eq_true.1 hall c (List.contains_iff_mem.1 hoperator))

/-- An escaped piece is read character by character. -/
theorem signs?_escapeMeta_append (piece text : List Char) :
    signs? (escapeMeta piece ++ text) =
      (signs? text).map (piece.map (fun c => .atom (.literal c)) ++ ·) := by
  induction piece with
  | nil => simp [escapeMeta]
  | cons c piece ih =>
    rw [escapeMeta, List.flatMap_cons, ← escapeMeta, List.append_assoc]
    split
    · next hmeta =>
      rw [List.cons_append, List.singleton_append, signs?_escaped (isEscapable_of_isMeta hmeta), ih,
        Option.map_map]
      rfl
    · next hmeta =>
      rw [List.singleton_append, signs?_literal (not_isOperator_of_not_isMeta hmeta), ih,
        Option.map_map]
      rfl

/-- Literals before something that is no star. -/
theorem items?_literals_append {signs : List Sign} (h : signs.head? ≠ some .star)
    (piece : List Char) :
    items? (piece.map (fun c => .atom (.literal c)) ++ signs) =
      (items? signs).map (literals piece ++ ·) := by
  induction piece with
  | nil => simp [literals]
  | cons c piece ih =>
    have hhead : (piece.map (fun c => Sign.atom (.literal c)) ++ signs).head? ≠ some .star := by
      cases piece with
      | nil => exact h
      | cons d piece => simp
    rw [List.map_cons, List.cons_append, items?_once hhead, ih, Option.map_map]
    rfl

/-- An escaped piece before something that starts with no star. -/
theorem read?_escapeMeta_append (h : ∀ signs ∈ signs? text, signs.head? ≠ some .star)
    (piece : List Char) :
    read? (escapeMeta piece ++ text) = (read? text).map (literals piece ++ ·) := by
  rw [read?, read?, signs?_escapeMeta_append]
  cases hsigns : signs? text with
  | none => rfl
  | some signs => exact items?_literals_append (h signs hsigns) piece

theorem read?_gap (text : List Char) :
    read? ('.' :: '*' :: text) = (read? text).map (.repeated .dot :: ·) := by
  rw [read?, read?, signs?_dot, signs?_star]
  cases signs? text with
  | none => rfl
  | some signs => exact items?_repeated .dot signs

/-- The text of a wildcard is read as its expression. -/
theorem read?_pattern (w : Wildcard) : read? w.pattern = some w.items := by
  obtain ⟨pieces⟩ := w
  rw [pattern, items]
  induction pieces with
  | nil => rfl
  | cons piece pieces ih =>
    cases pieces with
    | nil =>
      have hnil : ∀ signs ∈ signs? [], signs.head? ≠ some .star := by simp
      have hread := read?_escapeMeta_append hnil piece
      rw [List.append_nil] at hread
      rw [List.map_singleton, List.map_singleton, List.intercalate_singleton,
        List.intercalate_singleton, hread]
      simp [read?, items?]
    | cons next pieces =>
      -- what follows the piece starts with a dot
      have hdot (text : List Char) :
          ∀ signs ∈ signs? ('.' :: text), signs.head? ≠ some .star := by
        intro signs hsigns
        rw [signs?_dot] at hsigns
        obtain ⟨rest, -, rfl⟩ := Option.map_eq_some_iff.1 hsigns
        simp
      simp only [List.map_cons, List.intercalate_cons_cons, List.append_assoc] at ih ⊢
      rw [List.cons_append, List.singleton_append, read?_escapeMeta_append (hdot _), read?_gap, ih]
      rfl

/-! ### What a wildcard finds -/

/-- The pieces one after the other, with the gaps between them. -/
def weave (pieces gaps : List (List Char)) : List Char :=
  (List.zipWith (· ++ ·) ([] :: gaps) pieces).flatten

theorem weave_singleton (piece : List Char) : weave [piece] [] = piece := by simp [weave]

theorem weave_cons_cons (piece next gap : List Char) (pieces gaps : List (List Char)) :
    weave (piece :: next :: pieces) (gap :: gaps) =
      piece ++ gap ++ weave (next :: pieces) gaps := by
  simp [weave]

/-- The gaps fit between the pieces: there is one between any two, and none has a line feed. -/
structure FitBetween (gaps pieces : List (List Char)) : Prop where
  /-- There is one gap less than there are pieces. -/
  length_eq : gaps.length + 1 = pieces.length
  /-- No gap has a line feed in it. -/
  lineFeed_not_mem : ∀ gap ∈ gaps, '\n' ∉ gap

theorem fitBetween_singleton : FitBetween gaps [piece] ↔ gaps = [] := by
  constructor
  · intro h
    exact List.length_eq_zero_iff.1 (Nat.succ.inj h.length_eq)
  · rintro rfl
    exact ⟨rfl, by simp⟩

theorem fitBetween_cons_cons {gap next : List Char} :
    FitBetween (gap :: gaps) (piece :: next :: pieces) ↔
      '\n' ∉ gap ∧ FitBetween gaps (next :: pieces) := by
  constructor
  · intro h
    exact ⟨h.lineFeed_not_mem gap List.mem_cons_self, ⟨Nat.succ.inj h.length_eq,
      fun g hg => h.lineFeed_not_mem g (List.mem_cons_of_mem gap hg)⟩⟩
  · rintro ⟨hgap, hgaps⟩
    exact ⟨congrArg (· + 1) hgaps.length_eq, List.forall_mem_cons.2 ⟨hgap, hgaps.lineFeed_not_mem⟩⟩

theorem FitBetween.exists_eq_cons {next : List Char}
    (h : FitBetween gaps (piece :: next :: pieces)) : ∃ gap rest, gaps = gap :: rest := by
  refine List.exists_cons_of_ne_nil ?_
  rintro rfl
  exact absurd h.length_eq (by simp)

/-- The expression of a wildcard stands for its pieces with gaps between them. -/
theorem mem_language_items_cons :
    text ∈ language (items ⟨piece :: pieces⟩) ↔
      ∃ gaps, FitBetween gaps (piece :: pieces) ∧ text = weave (piece :: pieces) gaps := by
  induction pieces generalizing piece text with
  | nil =>
    rw [items, List.map_singleton, List.intercalate_singleton, mem_language_literals]
    constructor
    · intro h
      exact ⟨[], fitBetween_singleton.2 rfl, by rw [h, weave_singleton]⟩
    · rintro ⟨gaps, hgaps, rfl⟩
      rw [fitBetween_singleton.1 hgaps, weave_singleton]
  | cons next pieces ih =>
    have hitems : items ⟨piece :: next :: pieces⟩ =
        literals piece ++ .repeated .dot :: items ⟨next :: pieces⟩ := by
      simp [items, List.intercalate_cons_cons]
    rw [hitems, language_append, language_cons]
    constructor
    · intro h
      obtain ⟨a, ha, b, hb, rfl⟩ := Language.mem_mul.1 h
      obtain ⟨gap, hgap, rest, hrest, rfl⟩ := Language.mem_mul.1 hb
      obtain ⟨gaps, hgaps, rfl⟩ := ih.1 hrest
      refine ⟨gap :: gaps, fitBetween_cons_cons.2 ⟨?_, hgaps⟩, ?_⟩
      · exact fun hmem => mem_language_repeated.1 hgap '\n' hmem rfl
      · rw [mem_language_literals.1 ha, weave_cons_cons, List.append_assoc]
    · rintro ⟨_, hfit, rfl⟩
      obtain ⟨gap, gaps, rfl⟩ := hfit.exists_eq_cons
      obtain ⟨hgap, hgaps⟩ := fitBetween_cons_cons.1 hfit
      have hdots : gap ∈ (Item.repeated .dot).language := by
        refine mem_language_repeated.2 fun c hc => ?_
        rintro rfl
        exact hgap hc
      rw [weave_cons_cons, List.append_assoc]
      exact Language.append_mem_mul (mem_language_literals.2 rfl)
        (Language.append_mem_mul hdots (ih.2 ⟨gaps, hgaps, rfl⟩))

/-- A chain starts with a piece and a gap. -/
theorem chain_cons :
    Chain (piece :: pieces) text ↔
      ∃ gap rest, '\n' ∉ gap ∧ Chain pieces rest ∧ text = piece ++ (gap ++ rest) := by
  constructor
  · rintro (_ | ⟨_, hgap, hchain⟩)
    exact ⟨_, _, hgap, hchain, rfl⟩
  · rintro ⟨gap, rest, hgap, hchain, rfl⟩
    exact .cons piece hgap hchain

/-- A chain is the pieces with gaps between them and anything behind. -/
theorem chain_cons_iff_weave :
    Chain (piece :: pieces) text ↔
      ∃ gaps after, FitBetween gaps (piece :: pieces) ∧
        text = weave (piece :: pieces) gaps ++ after := by
  induction pieces generalizing piece text with
  | nil =>
    rw [chain_cons]
    constructor
    · rintro ⟨gap, rest, -, -, rfl⟩
      exact ⟨[], gap ++ rest, fitBetween_singleton.2 rfl, by rw [weave_singleton]⟩
    · rintro ⟨gaps, after, hgaps, rfl⟩
      rw [fitBetween_singleton.1 hgaps, weave_singleton]
      exact ⟨[], after, List.not_mem_nil, .nil after, rfl⟩
  | cons next pieces ih =>
    rw [chain_cons]
    constructor
    · rintro ⟨gap, rest, hgap, hchain, rfl⟩
      obtain ⟨gaps, after, hgaps, rfl⟩ := ih.1 hchain
      refine ⟨gap :: gaps, after, fitBetween_cons_cons.2 ⟨hgap, hgaps⟩, ?_⟩
      rw [weave_cons_cons, List.append_assoc, List.append_assoc]
    · rintro ⟨_, after, hfit, rfl⟩
      obtain ⟨gap, gaps, rfl⟩ := hfit.exists_eq_cons
      obtain ⟨hgap, hgaps⟩ := fitBetween_cons_cons.1 hfit
      refine ⟨gap, weave (next :: pieces) gaps ++ after, hgap, ih.2 ⟨gaps, after, hgaps, rfl⟩, ?_⟩
      rw [weave_cons_cons, List.append_assoc, List.append_assoc]

/-- The expression of a wildcard is found in the names that the wildcard matches. -/
theorem finds_items_iff (hpieces : pieces ≠ []) (name : List Char) :
    Finds (items ⟨pieces⟩) name ↔
      ∃ before gaps after, FitBetween gaps pieces ∧
        name = before ++ weave pieces gaps ++ after := by
  obtain ⟨piece, pieces, rfl⟩ := List.exists_cons_of_ne_nil hpieces
  constructor
  · rintro ⟨before, found, after, rfl, hfound⟩
    obtain ⟨gaps, hgaps, rfl⟩ := mem_language_items_cons.1 hfound
    exact ⟨before, gaps, after, hgaps, rfl⟩
  · rintro ⟨before, gaps, after, hgaps, rfl⟩
    exact ⟨before, _, after, rfl, mem_language_items_cons.2 ⟨gaps, hgaps, rfl⟩⟩

theorem matches_iff (hpieces : pieces ≠ []) (name : List Char) :
    Matches ⟨pieces⟩ name ↔
      ∃ before gaps after, FitBetween gaps pieces ∧
        name = before ++ weave pieces gaps ++ after := by
  obtain ⟨piece, pieces, rfl⟩ := List.exists_cons_of_ne_nil hpieces
  constructor
  · rintro ⟨before, _, rfl, hchain⟩
    obtain ⟨gaps, after, hgaps, rfl⟩ := chain_cons_iff_weave.1 hchain
    exact ⟨before, gaps, after, hgaps, (List.append_assoc _ _ _).symm⟩
  · rintro ⟨before, gaps, after, hgaps, rfl⟩
    exact ⟨before, _, List.append_assoc _ _ _, chain_cons_iff_weave.2 ⟨gaps, after, hgaps, rfl⟩⟩

/-! ### Redundant stars

A star next to another star, or at an end, adds an empty piece. -/

/-- An empty piece in front is found everywhere. -/
theorem matches_cons_nil (pieces : List (List Char)) (name : List Char) :
    Matches ⟨[] :: pieces⟩ name ↔ Matches ⟨pieces⟩ name := by
  constructor
  · rintro ⟨before, text, rfl, hchain⟩
    obtain ⟨gap, rest, -, hrest, rfl⟩ := chain_cons.1 hchain
    exact ⟨before ++ gap, rest, by simp, hrest⟩
  · rintro ⟨before, rest, rfl, hchain⟩
    exact ⟨before, rest, rfl, chain_cons.2 ⟨[], rest, List.not_mem_nil, hchain, rfl⟩⟩

/-- An empty piece behind another one joins the gaps on its two sides. -/
theorem chain_append_nil_cons {front : List (List Char)} (hfront : front ≠ [])
    (pieces : List (List Char)) (text : List Char) :
    Chain (front ++ [] :: pieces) text ↔ Chain (front ++ pieces) text := by
  induction front generalizing text with
  | nil => exact absurd rfl hfront
  | cons piece front ih =>
    cases front with
    | nil =>
      rw [List.singleton_append, List.singleton_append, chain_cons, chain_cons]
      constructor
      · rintro ⟨gap, rest, hgap, hchain, rfl⟩
        obtain ⟨gap', rest, hgap', hrest, rfl⟩ := chain_cons.1 hchain
        exact ⟨gap ++ gap', rest, by simp [hgap, hgap'], hrest, by simp⟩
      · rintro ⟨gap, rest, hgap, hchain, rfl⟩
        exact ⟨gap, rest, hgap, chain_cons.2 ⟨[], rest, List.not_mem_nil, hchain, rfl⟩, rfl⟩
    | cons next front =>
      show Chain (piece :: (next :: front ++ [] :: pieces)) text ↔
        Chain (piece :: (next :: front ++ pieces)) text
      rw [chain_cons, chain_cons]
      simp only [ih (List.cons_ne_nil next front)]

theorem accepts_congr {w w' : Wildcard} (h : ∀ name, w.Matches name ↔ w'.Matches name) :
    w.accepts = w'.accepts := by
  funext name
  rw [Bool.eq_iff_iff, accepts_iff, accepts_iff, h]

theorem accepts_append_nil_cons {front : List (List Char)} (hfront : front ≠ [])
    (pieces : List (List Char)) : accepts ⟨front ++ [] :: pieces⟩ = accepts ⟨front ++ pieces⟩ :=
  accepts_congr fun name => by simp only [Matches, chain_append_nil_cons hfront]

theorem splitOn_star_cons (stem : List Char) : ('*' :: stem).splitOn '*' = [] :: stem.splitOn '*' :=
  List.splitOn_append_cons_self [] stem

/-- A star at the start of a stem is redundant. -/
theorem accepts_star_cons (stem : List Char) :
    (ofStem ('*' :: stem)).accepts = (ofStem stem).accepts := by
  rw [ofStem, splitOn_star_cons]
  exact accepts_congr (matches_cons_nil _)

/-- A star at the end of a stem is redundant. -/
theorem accepts_append_star (stem : List Char) :
    (ofStem (stem ++ ['*'])).accepts = (ofStem stem).accepts := by
  rw [ofStem, List.splitOn_append_cons_self, List.splitOn_nil,
    accepts_append_nil_cons (List.splitOn_ne_nil '*' stem), List.append_nil, ofStem]

/-- Two stars next to each other are as good as one. -/
theorem accepts_append_star_star (front back : List Char) :
    (ofStem (front ++ '*' :: '*' :: back)).accepts = (ofStem (front ++ '*' :: back)).accepts := by
  rw [ofStem, List.splitOn_append_cons_self, splitOn_star_cons,
    accepts_append_nil_cons (List.splitOn_ne_nil '*' front), ← List.splitOn_append_cons_self,
    ofStem]

/-! ### The meaning of a wildcard -/

/-- **What a wildcard finds.**  The text of a wildcard is a regular expression.  It is found in a
name exactly if the pieces of the stem stand in the name one after the other, with gaps between them
that have no line feed, whatever comes before and behind; and the test of the wildcard tells just
that.  So all characters of a stem but its stars stand for themselves, a star at one of its ends
changes nothing, and neither does a second star behind a first. -/
theorem pattern_finds (stem : List Char) :
    (∃ items, read? (ofStem stem).pattern = some items ∧
      ∀ name, (Finds items name ↔ ∃ before gaps after, FitBetween gaps (stem.splitOn '*') ∧
          name = before ++ weave (stem.splitOn '*') gaps ++ after) ∧
        ((ofStem stem).accepts name = true ↔ Finds items name)) ∧
      (ofStem ('*' :: stem)).accepts = (ofStem stem).accepts ∧
      (ofStem (stem ++ ['*'])).accepts = (ofStem stem).accepts ∧
      ∀ back, (ofStem (stem ++ '*' :: '*' :: back)).accepts =
        (ofStem (stem ++ '*' :: back)).accepts := by
  have hpieces := List.splitOn_ne_nil '*' stem
  refine ⟨⟨items (ofStem stem), read?_pattern _, fun name => ⟨finds_items_iff hpieces name, ?_⟩⟩,
    accepts_star_cons stem, accepts_append_star stem, accepts_append_star_star stem⟩
  rw [accepts_iff]
  exact (matches_iff hpieces name).trans (finds_items_iff hpieces name).symm

/-- A gap has no line feed in it, and a dot of a stem is a dot of the name. -/
example : (ofStem "*a.**b".toList).accepts "\na.(b+\n".toList = true ∧
    (ofStem "*a.**b".toList).accepts "a.\nb".toList = false ∧
    (ofStem "*a.**b".toList).accepts "a--b".toList = false := by decide

end Wildcard

end BundleAudit
