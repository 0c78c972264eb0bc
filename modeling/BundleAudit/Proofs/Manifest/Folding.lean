import BundleAudit.Declaration
import BundleAudit.Manifest.Context
import BundleAudit.Proofs.Manifest.MainSection

/-!
# Writing the headers of a manifest

A header can be written in many ways.  Its value can be cut anywhere, with the pieces on lines of
their own, each line can have either line end, and the last one can do without; further sections can
follow.  None of this is visible in the headers that are read.

## Main definitions

* `IsUnbroken cs` — a text without line ends.
* `IsLine cs` — a text that can be a line with either end.
* `Attribute.IsWritable a` — a header can be written on lines.
* `Folded as lines` — the lines are headers, their values cut into pieces.
* `Spelled lines text` — the text starts with the lines.

## Main results

* `hasEntries_of_folded` — folded headers follow the grammar of a main section.
* `splitLines_of_spelled` — the lines of a text are those that it starts with.
* `ofText_spelled` — the headers that are read are those that were written.
-/

namespace BundleAudit

open Text

/-- A text without a character of a line end. -/
def IsUnbroken (cs : List Char) : Prop := '\r' ∉ cs ∧ '\n' ∉ cs

instance (cs : List Char) : Decidable (IsUnbroken cs) := inferInstanceAs (Decidable (_ ∧ _))

/-- A text that is a line whatever end it is given.  A carriage return may be in it, but not last,
where it would belong to the end. -/
structure IsLine (cs : List Char) : Prop where
  not_mem_lineFeed : '\n' ∉ cs
  getLast?_ne : cs.getLast? ≠ some '\r'

/-- Neither the name nor the value would be cut by a line end, and the name can be one. -/
structure Attribute.IsWritable (a : Attribute) : Prop where
  isName : Attribute.IsName a.name.toList
  name_ok : IsUnbroken a.name.toList
  value_ok : IsUnbroken a.value.toList

/-- Lines that hold headers.  The value of each is cut into pieces: one for the line that opens the
header, and one for every continuation. -/
inductive Folded : List Attribute → List (List Char) → Prop where
  /-- No header takes no line. -/
  | nil : Folded [] []
  /-- A header and the headers after it. -/
  | cons {a : Attribute} {as : List Attribute} {lines : List (List Char)} (piece : List Char)
      (pieces : List (List Char)) (value_eq : a.value.toList = piece ++ pieces.flatten)
      (rest : Folded as lines) :
      Folded (a :: as)
        ((a.name.toList ++ ':' :: ' ' :: piece) :: (pieces.map (' ' :: ·) ++ lines))

/-- The two ends of a line. -/
inductive LineEnd where
  /-- A line feed. -/
  | lf
  /-- A carriage return and a line feed. -/
  | crlf
deriving DecidableEq, Repr

/-- The characters of a line end. -/
def LineEnd.text : LineEnd → List Char
  | .lf => ['\n']
  | .crlf => ['\r', '\n']

/-- Texts that start with lines.  After the last line the text ends, or it has a blank line and any
text after that. -/
inductive Spelled : List (List Char) → List Char → Prop where
  /-- The text ends. -/
  | nil : Spelled [] []
  /-- A blank line makes all that follows another matter. -/
  | blank (lineEnd : LineEnd) (rest : List Char) : Spelled [] (lineEnd.text ++ rest)
  /-- The last line needs no end. -/
  | last (line : List Char) : Spelled [line] line
  /-- A line with its end, and the lines after it. -/
  | cons {lines : List (List Char)} {text : List Char} (line : List Char) (lineEnd : LineEnd)
      (rest : Spelled lines text) : Spelled (line :: lines) (line ++ (lineEnd.text ++ text))

/-! ### Headers on lines -/

section

variable {as : List Attribute} {lines rest : List (List Char)} {text : List Char}

/-- The pieces of a value join up again. -/
theorem flatMap_tail_map_cons (pieces : List (List Char)) :
    (pieces.map (' ' :: ·)).flatMap List.tail = pieces.flatten := by
  rw [List.flatMap_map]
  exact List.flatMap_id

/-- **Folded headers follow the grammar**, and what comes after them does not matter as long as it
adds no header. -/
theorem hasEntries_of_folded (h : Folded as lines) (hwritable : ∀ a ∈ as, a.IsWritable)
    (hrest : HasEntries rest []) : HasEntries (lines ++ rest) as := by
  induction h with
  | nil => exact hrest
  | @cons a as lines piece pieces value_eq _ ih =>
    obtain ⟨ha, has⟩ := List.forall_mem_cons.1 hwritable
    have hmore : ∀ line ∈ pieces.map (' ' :: ·), IsContinuation line := by
      intro line hline
      obtain ⟨piece, -, rfl⟩ := List.mem_map.1 hline
      rfl
    have hread : HasEntries ((a.name.toList ++ ':' :: ' ' :: piece) ::
        (pieces.map (' ' :: ·) ++ (lines ++ rest))) _ :=
      .header ha.isName hmore (ih has)
    -- the space after the colon belongs to no piece
    rw [Attribute.dropSpace, flatMap_tail_map_cons, ← value_eq, String.ofList_toList,
      String.ofList_toList] at hread
    rw [List.cons_append, List.append_assoc]
    exact hread

theorem isUnbroken_append {cs more : List Char} :
    IsUnbroken (cs ++ more) ↔ IsUnbroken cs ∧ IsUnbroken more := by
  simp only [IsUnbroken, List.mem_append, not_or]
  exact and_and_and_comm

theorem isUnbroken_cons {c : Char} {cs : List Char} (hcr : c ≠ '\r') (hlf : c ≠ '\n') :
    IsUnbroken (c :: cs) ↔ IsUnbroken cs := by
  simp only [IsUnbroken, List.mem_cons, hcr.symm, hlf.symm, false_or]

theorem isUnbroken_flatten {pieces : List (List Char)} :
    IsUnbroken pieces.flatten ↔ ∀ piece ∈ pieces, IsUnbroken piece := by
  simp only [IsUnbroken, List.mem_flatten, not_exists, not_and]
  exact ⟨fun h piece hpiece => ⟨h.1 piece hpiece, h.2 piece hpiece⟩,
    fun h => ⟨fun piece hpiece => (h piece hpiece).1, fun piece hpiece => (h piece hpiece).2⟩⟩

theorem IsUnbroken.isLine {cs : List Char} (h : IsUnbroken cs) : IsLine cs :=
  ⟨h.2, fun hlast => h.1 (List.mem_of_getLast? hlast)⟩

/-- What a folded header takes up are lines, and none of them is blank. -/
theorem line_ok_of_folded (h : Folded as lines) (hwritable : ∀ a ∈ as, a.IsWritable) :
    ∀ line ∈ lines, line ≠ [] ∧ IsLine line := by
  induction h with
  | nil => exact fun line hline => absurd hline List.not_mem_nil
  | @cons a as lines piece pieces value_eq _ ih =>
    obtain ⟨ha, has⟩ := List.forall_mem_cons.1 hwritable
    have hvalue := ha.value_ok
    rw [value_eq, isUnbroken_append, isUnbroken_flatten] at hvalue
    obtain ⟨hpiece, hpieces⟩ := hvalue
    intro line hline
    rcases List.mem_cons.1 hline with rfl | hline
    · refine ⟨by simp, IsUnbroken.isLine ?_⟩
      rw [isUnbroken_append, isUnbroken_cons (by decide) (by decide),
        isUnbroken_cons (by decide) (by decide)]
      exact ⟨ha.name_ok, hpiece⟩
    · rcases List.mem_append.1 hline with hline | hline
      · obtain ⟨p, hp, rfl⟩ := List.mem_map.1 hline
        have hunbroken : IsUnbroken (' ' :: p) :=
          (isUnbroken_cons (by decide) (by decide)).2 (hpieces p hp)
        exact ⟨by simp, hunbroken.isLine⟩
      · exact ih has line hline

/-! ### Lines in a text -/

theorem splitLines_append_lineEnd {line : List Char} (h : IsLine line) (lineEnd : LineEnd)
    (text : List Char) :
    splitLines (line ++ (lineEnd.text ++ text)) = line :: splitLines text := by
  cases lineEnd with
  | lf => exact splitLines_append_lf h.not_mem_lineFeed h.getLast?_ne text
  | crlf => exact splitLines_append_crlf h.not_mem_lineFeed text

/-- **A text has the lines that it starts with**, and what else it has adds no header. -/
theorem splitLines_of_spelled (h : Spelled lines text)
    (hlines : ∀ line ∈ lines, line ≠ [] ∧ IsLine line) :
    ∃ rest, splitLines text = lines ++ rest ∧ HasEntries rest [] := by
  induction h with
  | nil => exact ⟨[], rfl, .nil⟩
  | blank lineEnd rest =>
    refine ⟨[] :: splitLines rest, ?_, .blank _⟩
    cases lineEnd with
    | lf => rfl
    | crlf => rfl
  | last line =>
    obtain ⟨hne, hline⟩ := hlines line List.mem_cons_self
    refine ⟨[], ?_, .nil⟩
    rw [List.append_nil]
    exact splitLines_of_not_mem hne hline.not_mem_lineFeed
  | @cons lines text line lineEnd _ ih =>
    obtain ⟨⟨-, hline⟩, hlines⟩ := List.forall_mem_cons.1 hlines
    obtain ⟨rest, hsplit, hrest⟩ := ih hlines
    refine ⟨rest, ?_, hrest⟩
    rw [splitLines_append_lineEnd hline, hsplit, List.cons_append]

/-- **What is read is what was written.**  However the values of headers are cut into pieces,
however the lines end, and whatever sections follow, the headers that are read are those that were
written, in their order.  So the value found for a name and the entries of the declaration header
depend on the headers alone. -/
theorem ofText_spelled (hwritable : ∀ a ∈ as, a.IsWritable) (hfolded : Folded as lines)
    (hspelled : Spelled lines text) :
    Attributes.ofText text = .ok ⟨as⟩ ∧
      (∀ key, (Attributes.ofText text).map (fun attributes => attributes.get? key) =
        .ok ((as.find? fun a => sameName a.name.toList key.toList).map Attribute.value)) ∧
      ∀ (s : Settings) (path : Path),
        (Manifest.ofText s path text).map (fun m => declarationsOf s m.headerValue) =
          .ok (declarationsOf s
            ((as.find? fun a => sameName a.name.toList s.header.toList).map Attribute.value)) := by
  obtain ⟨rest, hsplit, hrest⟩ :=
    splitLines_of_spelled hspelled (line_ok_of_folded hfolded hwritable)
  have hread : Attributes.ofText text = .ok ⟨as⟩ := by
    rw [Attributes.ofText, Attributes.ofLines_eq_ok_iff, hsplit]
    exact hasEntries_of_folded hfolded hwritable hrest
  refine ⟨hread, fun key => ?_, fun s path => ?_⟩
  · rw [hread]
    rfl
  · rw [Manifest.ofText, hread]
    rfl

/-- A value in three pieces of which one is empty and one looks like a header, both line ends, and a
further section. -/
theorem ofText_spelled_pieces :
    (∀ a ∈ [⟨"A", "x y: 1"⟩, ⟨"B", ""⟩], Attribute.IsWritable a) ∧
      Folded [⟨"A", "x y: 1"⟩, ⟨"B", ""⟩]
        ["A: x".toList, " ".toList, "  y: 1".toList, "B: ".toList] ∧
      Spelled ["A: x".toList, " ".toList, "  y: 1".toList, "B: ".toList]
        "A: x\r\n \n  y: 1\r\nB: \n\r\nA: 2".toList ∧
      Attributes.ofText "A: x\r\n \n  y: 1\r\nB: \n\r\nA: 2".toList =
        .ok ⟨[⟨"A", "x y: 1"⟩, ⟨"B", ""⟩]⟩ := by
  have hwritable : ∀ a ∈ [⟨"A", "x y: 1"⟩, ⟨"B", ""⟩], Attribute.IsWritable a := by
    intro a ha
    rcases List.mem_cons.1 ha with rfl | ha
    · exact ⟨⟨by decide, by decide, by decide⟩, by decide, by decide⟩
    · rw [List.mem_singleton.1 ha]
      exact ⟨⟨by decide, by decide, by decide⟩, by decide, by decide⟩
  have hfolded : Folded [⟨"A", "x y: 1"⟩, ⟨"B", ""⟩]
      ["A: x".toList, " ".toList, "  y: 1".toList, "B: ".toList] :=
    .cons ['x'] [[], " y: 1".toList] (by decide) (.cons [] [] (by decide) .nil)
  have hspelled : Spelled ["A: x".toList, " ".toList, "  y: 1".toList, "B: ".toList]
      "A: x\r\n \n  y: 1\r\nB: \n\r\nA: 2".toList :=
    .cons "A: x".toList .crlf (.cons " ".toList .lf (.cons "  y: 1".toList .crlf
      (.cons "B: ".toList .lf (.blank .crlf "A: 2".toList))))
  exact ⟨hwritable, hfolded, hspelled, (ofText_spelled hwritable hfolded hspelled).1⟩

end

end BundleAudit
