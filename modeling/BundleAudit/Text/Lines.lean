import BundleAudit.Text.Search

/-!
# Lines

A text is cut into lines at line feeds.  One carriage return right before a line feed belongs to the
line end; every other carriage return belongs to its line.  A line feed at the very end opens no
further line.  Lines are numbered from 1, and a number has to fit into 32 bits.

## Main definitions

* `splitLines cs` — the lines of a text.
* `locateLine? needle lines` — the number of the first line in which `needle` occurs.
* `opensHeader name line` — the line starts with `name`, up to the case of ASCII letters, and a
  colon.
* `locateHeader? name lines` — the number of the first line that opens the header `name`.

## Main results

* `splitLines_append_lf`, `splitLines_append_crlf` — a terminated line is the next line.
* `lineFeed_not_mem_of_mem_splitLines` — no line has a line feed in it.
* `opensHeader_iff` — the cut by width that `opensHeader` makes says the same as a comparison
  character by character.
-/

namespace BundleAudit.Text

/-! ### Cutting a text into lines -/

/-- The lines of a text, without their ends. -/
def splitLines : List Char → List (List Char)
  | [] => []
  | '\n' :: cs => [] :: splitLines cs
  | '\r' :: '\n' :: cs => [] :: splitLines cs
  | c :: cs =>
    match splitLines cs with
    | [] => [[c]]
    | line :: lines => (c :: line) :: lines

@[simp] theorem splitLines_nil : splitLines [] = [] := rfl

@[simp] theorem splitLines_lf (cs : List Char) : splitLines ('\n' :: cs) = [] :: splitLines cs :=
  rfl

@[simp] theorem splitLines_crlf (cs : List Char) :
    splitLines ('\r' :: '\n' :: cs) = [] :: splitLines cs := rfl

/-- A character that ends no line starts the next line. -/
theorem splitLines_cons {c : Char} (hc : c ≠ '\n') {cs : List Char}
    (hcr : c = '\r' → cs.head? ≠ some '\n') :
    splitLines (c :: cs) =
      match splitLines cs with
      | [] => [[c]]
      | line :: lines => (c :: line) :: lines := by
  rw [splitLines.eq_def]
  split
  · contradiction
  · next h => injection h with h _; exact absurd h hc
  · next h => injection h with h h'; subst h h'; simp at hcr
  · next h => injection h with h h'; subst h h'; rfl

/-- A line ended by a line feed alone is the next line, unless it would lose a carriage return. -/
theorem splitLines_append_lf {line : List Char} (h : '\n' ∉ line)
    (hcr : line.getLast? ≠ some '\r') (cs : List Char) :
    splitLines (line ++ '\n' :: cs) = line :: splitLines cs := by
  induction line with
  | nil => rfl
  | cons c line ih =>
    rw [List.mem_cons, not_or] at h
    cases line with
    | nil =>
      rw [List.cons_append, splitLines_cons (Ne.symm h.1), List.nil_append, splitLines_lf]
      rintro rfl
      simp at hcr
    | cons d line =>
      rw [List.getLast?_cons_cons] at hcr
      rw [List.cons_append, splitLines_cons (Ne.symm h.1), ih h.2 hcr]
      rintro - hd
      simp only [List.cons_append, List.head?_cons, Option.some.injEq] at hd
      simp [hd] at h

/-- A line ended by a carriage return and a line feed is the next line. -/
theorem splitLines_append_crlf {line : List Char} (h : '\n' ∉ line) (cs : List Char) :
    splitLines (line ++ '\r' :: '\n' :: cs) = line :: splitLines cs := by
  induction line with
  | nil => rfl
  | cons c line ih =>
    rw [List.mem_cons, not_or] at h
    rw [List.cons_append, splitLines_cons (Ne.symm h.1), ih h.2]
    rintro - hd
    cases line with
    | nil => simp at hd
    | cons d line => simp at hd; simp [hd] at h

/-- The last line needs no end. -/
theorem splitLines_of_not_mem {line : List Char} (hne : line ≠ []) (h : '\n' ∉ line) :
    splitLines line = [line] := by
  induction line with
  | nil => contradiction
  | cons c line ih =>
    rw [List.mem_cons, not_or] at h
    rw [splitLines_cons (Ne.symm h.1)]
    · cases line with
      | nil => rfl
      | cons d line => rw [ih (by simp) h.2]
    · rintro - hd
      cases line with
      | nil => simp at hd
      | cons d line => simp at hd; simp [hd] at h

/-- No line has a line feed in it. -/
theorem lineFeed_not_mem_of_mem_splitLines {cs line : List Char} (h : line ∈ splitLines cs) :
    '\n' ∉ line := by
  fun_induction splitLines cs generalizing line with
  | case1 => cases h
  | case2 cs ih | case3 cs ih =>
    rcases List.mem_cons.1 h with rfl | h
    · exact List.not_mem_nil
    · exact ih h
  | case4 c cs hc =>
    rw [List.mem_singleton.1 h, List.mem_singleton]
    exact fun heq => hc heq.symm
  | case5 c cs hc _ first lines hlines ih =>
    rw [hlines] at ih
    rcases List.mem_cons.1 h with rfl | h
    · rw [List.mem_cons, not_or]
      exact ⟨fun heq => hc heq.symm, ih List.mem_cons_self⟩
    · exact ih (List.mem_cons_of_mem first h)

/-! ### Numbering -/

/-- The number of the line at the index `i`.  There is none once it takes more than 32 bits. -/
def lineNumber? (i : Nat) : Option Nat := if i + 1 < UInt32.size then some (i + 1) else none

/-- The number of the first line in which `needle` occurs. -/
def locateLine? (needle : List Char) (lines : List (List Char)) : Option Nat :=
  (lines.findIdx? (occursIn needle)).bind lineNumber?

/-! ### Header lines -/

/-- Whether a line opens the header `name`: cut after as many bytes as `name` has, it shows `name`
up to the case of ASCII letters and then a colon.  A line that is too short, or in which that byte
lies inside a character, opens no such header. -/
def opensHeader (name line : List Char) : Bool :=
  match cutWidth? (width name) line with
  | some (head, ':' :: _) => sameName head name
  | _ => false

/-- The cut by width loses nothing: the line shows the name, up to the case of ASCII letters, and a
colon after it. -/
theorem opensHeader_iff {name line : List Char} :
    opensHeader name line = true ↔
      ∃ head rest, line = head ++ ':' :: rest ∧ sameName head name := by
  unfold opensHeader
  constructor
  · intro h
    split at h
    · next head rest hcut => exact ⟨head, rest, (cutWidth?_eq_some_iff.1 hcut).1, h⟩
    · contradiction
  · rintro ⟨head, rest, rfl, h⟩
    rw [cutWidth?_eq_some_iff.2 ⟨rfl, width_eq_of_sameName h⟩]
    exact h

/-- The number of the first line that opens the header `name`. -/
def locateHeader? (name : List Char) (lines : List (List Char)) : Option Nat :=
  (lines.findIdx? (opensHeader name)).bind lineNumber?

end BundleAudit.Text
