import BundleAudit.Text.Lines

/-!
# Attributes of a manifest

The main section of a manifest ends at its first blank line.  A line of it either opens a header,
with a name, a colon and the start of the value, or starts with a space and continues the value of
the header before it.  One space after the colon, and the space that starts a continuation, belong
to no value.

## Main definitions

* `Attribute` — a header with its whole value.
* `Attribute.ofLine?` — the header that a line opens.
* `Attributes.ofLines`, `Attributes.ofText` — the headers of a manifest.
* `Attributes.get?` — the value of the first header of a name.
* `MalformedLine` — the first line that is neither.
-/

namespace BundleAudit

open Text

/-- A header of a manifest. -/
structure Attribute where
  /-- Its name. -/
  name : String
  /-- Its value, continuations included. -/
  value : String
deriving DecidableEq, Repr

/-- A line that neither opens a header nor continues one. -/
structure MalformedLine where
  /-- Its number. -/
  line : Nat
  /-- The line. -/
  text : String
deriving DecidableEq, Repr

/-- The headers of a manifest in order. -/
structure Attributes where
  /-- The headers. -/
  entries : List Attribute
deriving DecidableEq, Repr

namespace Attribute

/-- A text without one space at its start. -/
def dropSpace : List Char → List Char
  | ' ' :: cs => cs
  | cs => cs

/-- The header that a line opens.  Its name is not empty and has no space. -/
def ofLine? (line : List Char) : Option Attribute :=
  match cutFirst? ':' line with
  | none => none
  | some (name, value) =>
    if name = [] ∨ ' ' ∈ name then none
    else some ⟨String.ofList name, String.ofList (dropSpace value)⟩

/-- A header with a further piece of its value. -/
def extend (a : Attribute) (more : List Char) : Attribute :=
  { a with value := a.value ++ String.ofList more }

end Attribute

namespace Attributes

/-- The number of the line at an index.  Line numbers stop at the greatest number of 32 bits. -/
def numberOf (i : Nat) : Nat := min (i + 1) (UInt32.size - 1)

/-- The line at an index as a malformed one. -/
def malformed (i : Nat) (line : List Char) : MalformedLine := ⟨numberOf i, String.ofList line⟩

/-- The headers of the main section from the line at the index `i` on, where `current` is the header
that a continuation would continue. -/
def entriesFrom (current : Option Attribute) (i : Nat) :
    List (List Char) → Except MalformedLine (List Attribute)
  | [] => .ok current.toList
  | [] :: _ => .ok current.toList
  | (' ' :: more) :: lines =>
    match current with
    | none => .error (malformed i (' ' :: more))
    | some a => entriesFrom (some (a.extend more)) (i + 1) lines
  | line :: lines =>
    match Attribute.ofLine? line with
    | none => .error (malformed i line)
    | some a => (entriesFrom (some a) (i + 1) lines).map (current.toList ++ ·)

/-- The headers of the main section that lines start with. -/
def ofLines (lines : List (List Char)) : Except MalformedLine Attributes :=
  (entriesFrom none 0 lines).map Attributes.mk

/-- The headers of the main section of a text. -/
def ofText (text : List Char) : Except MalformedLine Attributes := ofLines (splitLines text)

/-- The value of the first header of a name, up to the case of ASCII letters. -/
def get? (as : Attributes) (name : String) : Option String :=
  (as.entries.find? fun a => sameName a.name.toList name.toList).map Attribute.value

/-- How many headers there are. -/
def size (as : Attributes) : Nat := as.entries.length

/-- Whether there is no header. -/
def isEmpty (as : Attributes) : Bool := as.entries.isEmpty

@[simp] theorem entriesFrom_nil (current : Option Attribute) (i : Nat) :
    entriesFrom current i [] = .ok current.toList := rfl

/-- A blank line ends the section, whatever follows. -/
@[simp] theorem entriesFrom_blank (current : Option Attribute) (i : Nat)
    (lines : List (List Char)) :
    entriesFrom current i ([] :: lines) = .ok current.toList := rfl

/-- A continuation needs a header before it. -/
@[simp] theorem entriesFrom_continuation_none (i : Nat) (more : List Char)
    (lines : List (List Char)) :
    entriesFrom none i ((' ' :: more) :: lines) = .error (malformed i (' ' :: more)) := rfl

/-- A continuation extends the header before it. -/
@[simp] theorem entriesFrom_continuation_some (a : Attribute) (i : Nat) (more : List Char)
    (lines : List (List Char)) :
    entriesFrom (some a) i ((' ' :: more) :: lines) =
      entriesFrom (some (a.extend more)) (i + 1) lines := rfl

/-- Any other line has to open a header. -/
theorem entriesFrom_cons (current : Option Attribute) (i : Nat) {c : Char} (hc : c ≠ ' ')
    (cs : List Char) (lines : List (List Char)) :
    entriesFrom current i ((c :: cs) :: lines) =
      match Attribute.ofLine? (c :: cs) with
      | none => .error (malformed i (c :: cs))
      | some a => (entriesFrom (some a) (i + 1) lines).map (current.toList ++ ·) := by
  rw [entriesFrom]
  · simp
  · simpa using hc

end Attributes

end BundleAudit
