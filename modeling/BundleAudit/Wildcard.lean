import BundleAudit.Text.Search

/-!
# Wildcards

A base name with the wildcard `*` is cut at its stars.  It matches a name in which the pieces occur
one after the other, where the gap between two pieces may hold anything but a line feed.  What comes
before the first piece and after the last one does not matter, so a star at either end changes
nothing.

## Main definitions

* `Wildcard.ofStem stem` — the pieces of a stem.
* `Wildcard.Matches w name` — the pieces occur in the name one after the other.
* `Wildcard.accepts w name` — the test for it.
* `Wildcard.pattern w` — the wildcard as a regular expression.
* `Wildcard.isTooLarge w` — the expression would take more space than is granted to one.

The test goes through the pieces from the last to the first.  For every end of the name it marks
whether the pieces met so far occur at its start, so the work is that of one pass over the name for
each piece, however many stars there are.

## Main results

* `Wildcard.accepts_iff` — the test says what a wildcard means.
-/

namespace BundleAudit

open Text

/-- The literal pieces of a base name, between its stars. -/
structure Wildcard where
  /-- The pieces in order. -/
  pieces : List (List Char)
deriving DecidableEq, Repr

namespace Wildcard

/-- The wildcard that a stem is. -/
def ofStem (stem : List Char) : Wildcard := ⟨stem.splitOn '*'⟩

/-! ### What a wildcard means -/

/-- The pieces occur at the start of a text, one after the other, with gaps between them that hold
no line feed. -/
inductive Chain : List (List Char) → List Char → Prop where
  /-- What follows the pieces is of no concern. -/
  | nil (rest : List Char) : Chain [] rest
  /-- A piece, a gap, and the other pieces. -/
  | cons {gap rest : List Char} {pieces : List (List Char)} (piece : List Char)
      (gap_ok : '\n' ∉ gap) (chain : Chain pieces rest) :
      Chain (piece :: pieces) (piece ++ (gap ++ rest))

/-- The pieces occur somewhere in a name, one after the other. -/
def Matches (w : Wildcard) (name : List Char) : Prop :=
  ∃ before rest, name = before ++ rest ∧ Chain w.pieces rest

/-! ### The test

A list of marks has one mark for each end of a text, from the text itself to the empty end. -/

/-- Marks every end of a text. -/
def allMarked : List Char → List Bool
  | [] => [true]
  | _ :: cs => true :: allMarked cs

/-- Marks the ends of a text from which a gap leads to a marked end. -/
def beforeGap : List Char → List Bool → List Bool
  | [], marks => [marks.headD false]
  | c :: cs, marks =>
    let later := beforeGap cs marks.tail
    (marks.headD false || (c ≠ '\n' && later.headD false)) :: later

/-- Marks the ends of a text that start with a piece, where `marks` says for each end whether the
text after the piece is marked. -/
def startsWith (piece : List Char) : List Char → List Bool → List Bool
  | [], marks => [piece.isPrefixOf [] && marks.headD false]
  | c :: cs, marks =>
    (piece.isPrefixOf (c :: cs) && marks.headD false) :: startsWith piece cs marks.tail

/-- Marks the ends of a text at whose start the pieces occur one after the other. -/
def chainMarks : List (List Char) → List Char → List Bool
  | [], cs => allMarked cs
  | piece :: pieces, cs =>
    startsWith piece cs ((beforeGap cs (chainMarks pieces cs)).drop piece.length)

/-- Whether the pieces occur in a name one after the other. -/
def accepts (w : Wildcard) (name : List Char) : Bool := (chainMarks w.pieces name).any id

/-! ### The test says what a wildcard means -/

/-- The marks of the ends of a text without its first character. -/
theorem tail_chainMarks (pieces : List (List Char)) (c : Char) (cs : List Char) :
    (chainMarks pieces (c :: cs)).tail = chainMarks pieces cs := by
  induction pieces with
  | nil => rfl
  | cons piece pieces ih =>
    rw [chainMarks, chainMarks, startsWith, List.tail_cons, List.tail_drop, beforeGap, ih,
      List.drop_succ_cons]

/-- A gap leads from a text to an end of it. -/
theorem headD_beforeGap {cs : List Char} {marks : List Bool} :
    (beforeGap cs marks).headD false = true ↔
      ∃ gap rest, cs = gap ++ rest ∧ '\n' ∉ gap ∧ (marks.drop gap.length).headD false = true := by
  induction cs generalizing marks with
  | nil => cases marks <;> simp [beforeGap]
  | cons c cs ih =>
    simp only [beforeGap, List.headD_cons, Bool.or_eq_true, Bool.and_eq_true,
      decide_eq_true_eq, ih]
    constructor
    · rintro (h | ⟨hc, gap, rest, rfl, hgap, h⟩)
      · exact ⟨[], c :: cs, rfl, by simp, h⟩
      · refine ⟨c :: gap, rest, rfl, by simp [Ne.symm hc, hgap], ?_⟩
        rwa [List.length_cons, Nat.add_comm, ← List.drop_drop, List.drop_one]
    · rintro ⟨gap, rest, hcs, hgap, h⟩
      cases gap with
      | nil => exact Or.inl h
      | cons d gap =>
        rw [List.cons_append, List.cons.injEq] at hcs
        obtain ⟨rfl, rfl⟩ := hcs
        rw [List.mem_cons, not_or] at hgap
        rw [List.length_cons, Nat.add_comm, ← List.drop_drop, List.drop_one] at h
        exact Or.inr ⟨Ne.symm hgap.1, gap, rest, rfl, hgap.2, h⟩

/-- The marks of an end that lies further on. -/
theorem drop_chainMarks (pieces : List (List Char)) (gap rest : List Char) :
    (chainMarks pieces (gap ++ rest)).drop gap.length = chainMarks pieces rest := by
  induction gap with
  | nil => rfl
  | cons c gap ih =>
    rw [List.length_cons, Nat.add_comm, ← List.drop_drop, List.drop_one, List.cons_append,
      tail_chainMarks, ih]

/-- The marks of the ends further on, once gaps are allowed before them. -/
theorem drop_beforeGap (pieces : List (List Char)) (gap rest : List Char) :
    (beforeGap (gap ++ rest) (chainMarks pieces (gap ++ rest))).drop gap.length =
      beforeGap rest (chainMarks pieces rest) := by
  induction gap with
  | nil => rfl
  | cons c gap ih =>
    rw [List.length_cons, Nat.add_comm, ← List.drop_drop, List.drop_one, List.cons_append,
      beforeGap, List.tail_cons, tail_chainMarks, ih]

theorem headD_startsWith (piece cs : List Char) (marks : List Bool) :
    (startsWith piece cs marks).headD false = (piece.isPrefixOf cs && marks.headD false) := by
  cases cs <;> rfl

/-- The first mark tells whether the pieces occur at the start of the text. -/
theorem headD_chainMarks {pieces : List (List Char)} {cs : List Char} :
    (chainMarks pieces cs).headD false = true ↔ Chain pieces cs := by
  induction pieces generalizing cs with
  | nil => cases cs <;> exact iff_of_true rfl (.nil _)
  | cons piece pieces ih =>
    rw [chainMarks, headD_startsWith, Bool.and_eq_true, List.isPrefixOf_iff_prefix]
    constructor
    · rintro ⟨⟨rest, rfl⟩, h⟩
      rw [drop_beforeGap] at h
      obtain ⟨gap, rest, rfl, hgap, h⟩ := headD_beforeGap.1 h
      rw [drop_chainMarks] at h
      exact .cons piece hgap (ih.1 h)
    · rintro (_ | ⟨_, hgap, hchain⟩)
      refine ⟨List.prefix_append _ _, ?_⟩
      rw [drop_beforeGap]
      refine headD_beforeGap.2 ⟨_, _, rfl, hgap, ?_⟩
      rw [drop_chainMarks]
      exact ih.2 hchain

/-- Some end of a text is marked exactly if the text or an end of its tail is. -/
theorem any_chainMarks_cons (pieces : List (List Char)) (c : Char) (cs : List Char) :
    (chainMarks pieces (c :: cs)).any id =
      ((chainMarks pieces (c :: cs)).headD false || (chainMarks pieces cs).any id) := by
  rw [← tail_chainMarks pieces c cs]
  cases chainMarks pieces (c :: cs) <;> rfl

theorem any_chainMarks_nil (pieces : List (List Char)) :
    (chainMarks pieces []).any id = (chainMarks pieces []).headD false := by
  cases pieces <;> simp [chainMarks, allMarked, startsWith]

/-- A wildcard accepts exactly the names that it matches. -/
theorem accepts_iff {w : Wildcard} {name : List Char} :
    w.accepts name = true ↔ w.Matches name := by
  unfold accepts Matches
  induction name with
  | nil =>
    rw [any_chainMarks_nil, headD_chainMarks]
    constructor
    · exact fun h => ⟨[], [], rfl, h⟩
    · rintro ⟨before, rest, h, hchain⟩
      obtain ⟨rfl, rfl⟩ := List.append_eq_nil_iff.1 h.symm
      exact hchain
  | cons c cs ih =>
    rw [any_chainMarks_cons, Bool.or_eq_true, headD_chainMarks, ih]
    constructor
    · rintro (h | ⟨before, rest, rfl, h⟩)
      · exact ⟨[], c :: cs, rfl, h⟩
      · exact ⟨c :: before, rest, rfl, h⟩
    · rintro ⟨before, rest, h, hchain⟩
      cases before with
      | nil => exact Or.inl (by rwa [h])
      | cons d before =>
        rw [List.cons_append, List.cons.injEq] at h
        exact Or.inr ⟨before, rest, h.2, hchain⟩

/-! ### The regular expression -/

/-- The characters with a meaning of their own in a regular expression. -/
def isMeta (c : Char) : Bool := "\\.+*?()|[]\x7b\x7d^$#&-~".toList.contains c

/-- A literal piece as a regular expression. -/
def escapeMeta (piece : List Char) : List Char :=
  piece.flatMap fun c => if isMeta c then ['\\', c] else [c]

/-- The wildcard as a regular expression that is searched for in a name. -/
def pattern (w : Wildcard) : List Char := ['.', '*'].intercalate (w.pieces.map escapeMeta)

/-! ### The size of the regular expression

The expression stands for two automata over the bytes of a name, one that reads them forwards and
one that reads them backwards.  Each is kept as a table of states.

The numbers here are those of the engine that the program searches with; they are no part of what a
wildcard means.  The engine refuses an expression with a table of more than ten mebibytes, which is
its limit unless it is told otherwise.  It counts 32 bytes for a state, 8 for a transition in a list
and 4 for a step from a fork.  How many there are of each follows from the way in which it builds
the states of a literal byte and of a gap, which are the same for every byte and for every gap. -/

/-- What the table of an automaton is made of. -/
structure TableSize where
  /-- How many states there are. -/
  states : Nat
  /-- How many transitions leave those states that have a list of them. -/
  transitions : Nat
  /-- How many steps lead from forks to other states without a byte being read. -/
  branches : Nat
deriving DecidableEq, Repr

/-- The bytes that a table takes. -/
def TableSize.bytes (t : TableSize) : Nat := 32 * t.states + 8 * t.transitions + 4 * t.branches

/-- The bytes that a table may take. -/
def maxTableBytes : Nat := 10 * Nat.pow 2 20

/-- The number of bytes that are to be met literally. -/
def literalBytes (w : Wildcard) : Nat := width w.pieces.flatten

/-- The number of gaps. -/
def gaps (w : Wildcard) : Nat := w.pieces.length - 1

/-- The table that reads forwards.  It has a loop over the bytes before the match, the start and the
end of the match, and a state for each literal byte.  A gap is a loop over the characters other than
the line feed, whose encodings share the states of their common ends. -/
def forwardTable (w : Wildcard) : TableSize where
  states := 6 + w.literalBytes + 10 * w.gaps
  transitions := 1 + 17 * w.gaps
  branches := 2 + 2 * w.gaps

/-- The table that reads backwards.  It does not keep where a match starts and ends, and the states
of a gap are not shared: there is one for each byte of each of the ten forms of an encoding. -/
def backwardTable (w : Wildcard) : TableSize where
  states := 4 + w.literalBytes + 31 * w.gaps
  transitions := 1
  branches := 2 + 12 * w.gaps

/-- Whether a table of a wildcard takes more than the bytes that it may. -/
def isTooLarge (w : Wildcard) : Bool :=
  maxTableBytes < w.forwardTable.bytes || maxTableBytes < w.backwardTable.bytes

end Wildcard

end BundleAudit
