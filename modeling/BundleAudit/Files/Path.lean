/-!
# Paths

A path is kept as it was written, since it is shown that way.  What it denotes depends on its
segments between slashes, and two spellings count as equal if they agree in their components: empty
segments and points are no components, except a point at the very start.

## Main definitions

* `FileName` — the name of a file or folder inside its folder.
* `Segment` — a part of a path between slashes.
* `maxNameBytes`, `Path.isTooLong` — how long a name and a path may be.
* `Path.join`, `Path.above` — a path seen from another one, and the paths above a path.
* `Path.components`, `Path.compare` — the components of a path and the order that they give.
-/

namespace BundleAudit

/-! ### Names -/

/-- The greatest length of a name, in bytes. -/
def maxNameBytes : Nat := 255

/-- What a name inside a folder satisfies. -/
def FileName.Valid (text : String) : Prop :=
  text ≠ "" ∧ text ≠ "." ∧ text ≠ ".." ∧ '/' ∉ text.toList ∧
    text.utf8ByteSize ≤ maxNameBytes ∧ '\x00' ∉ text.toList

instance (text : String) : Decidable (FileName.Valid text) := by
  unfold FileName.Valid; infer_instance

/-- The name of a file or a folder inside its folder. -/
structure FileName where
  /-- The name. -/
  text : String
  /-- It can stand between two slashes and has no meaning of its own there. -/
  valid : FileName.Valid text
deriving DecidableEq, Repr

/-- A part of a path between slashes. -/
inductive Segment where
  /-- Nothing or a point: the folder itself. -/
  | stay
  /-- Two points: the folder above. -/
  | up
  /-- A name inside the folder. -/
  | name (n : FileName)
  /-- A text that is too long for a name. -/
  | overlong
deriving DecidableEq, Repr

/-- The segment that a text without slashes is. -/
def Segment.ofText (text : String) : Segment :=
  if h : FileName.Valid text then .name ⟨text, h⟩
  else if text = ".." then .up
  else if text = "" ∨ text = "." then .stay
  -- a path with the character NUL is refused as a whole, so it is the length that is wrong here
  else .overlong

/-- The text of a name is the segment of that name. -/
@[simp] theorem Segment.ofText_text (n : FileName) : Segment.ofText n.text = .name n := by
  simp [ofText, n.valid]

/-! ### Paths -/

/-- A path as written. -/
structure Path where
  /-- The text of the path. -/
  text : String
deriving DecidableEq, Repr

/-- A component of a path. -/
inductive Component where
  /-- The slash that an absolute path starts with. -/
  | root
  /-- The point that a path starts with. -/
  | here
  /-- Two points. -/
  | up
  /-- A name. -/
  | name (text : String)
deriving DecidableEq, Repr

namespace Component

/-- The rank of the kind of a component. -/
def rank : Component → Nat
  | .root => 0
  | .here => 1
  | .up => 2
  | .name _ => 3

/-- The name that a component is, if it is one. -/
def text : Component → String
  | .name text => text
  | _ => ""

/-- Components are ordered by their kind, and names by their code points, which is also the order of
their bytes in UTF-8. -/
def compare : Component → Component → Ordering := compareLex (compareOn rank) (compareOn text)

instance : Std.TransCmp compare :=
  inferInstanceAs (Std.TransCmp (compareLex (compareOn rank) (compareOn text)))

end Component

namespace Path

/-- The length from which on no path is accepted, in bytes. -/
def byteLimit : Nat := 4096

/-- Whether a path is too long to be followed, wherever it may lead. -/
def isTooLong (p : Path) : Bool := byteLimit ≤ p.text.utf8ByteSize

/-- The texts between the slashes of a path. -/
def parts (p : Path) : List (List Char) := p.text.toList.splitOn '/'

/-- Whether a path starts with a slash. -/
def isAbsolute (p : Path) : Bool := p.text.toList.head? == some '/'

/-- The segments of a path. -/
def segments (p : Path) : List Segment :=
  p.parts.map fun part => Segment.ofText (String.ofList part)

/-- The component that a part is, unless it is empty or a point. -/
def component? (part : List Char) : Option Component :=
  -- `a//b`, `a/./b` and `a/b/` have the same components as `a/b`
  if part = [] ∨ part = ['.'] then none
  else if part = ['.', '.'] then some .up
  else some (.name (String.ofList part))

/-- The components of a path. -/
def components (p : Path) : List Component :=
  match p.parts with
  | [] => []
  | first :: rest =>
    (if first = [] then if rest = [] then [] else [.root]
      else if first = ['.'] then [.here]
      else (component? first).toList) ++
    rest.filterMap component?

/-- Paths are ordered by their components. -/
def compare (a b : Path) : Ordering := List.compareLex Component.compare a.components b.components

instance : Std.TransCmp compare :=
  have lex : Std.TransCmp (List.compareLex Component.compare) := inferInstance
  { eq_swap := lex.eq_swap, isLE_trans := lex.isLE_trans }

/-- The path `b` seen from `a`.  An absolute path stays as it is. -/
def join (a b : Path) : Path :=
  if b.isAbsolute then b
  -- no second slash after one, and none at the start of a relative path
  else if a.text = "" ∨ a.text.toList.getLast? = some '/' then ⟨a.text ++ b.text⟩
  else ⟨a.text ++ "/" ++ b.text⟩

/-- The path of a name seen from `a`. -/
def child (a : Path) (n : FileName) : Path := a.join ⟨n.text⟩

/-- The path that leads through names seen from `a`. -/
def descend (a : Path) (names : List FileName) : Path := names.foldl child a

theorem not_isAbsolute_name (n : FileName) : isAbsolute ⟨n.text⟩ = false := by
  have h := n.valid.2.2.2.1
  unfold isAbsolute
  cases hs : n.text.toList with
  | nil => rfl
  | cons c cs =>
    rw [hs, List.mem_cons, not_or] at h
    simpa using Ne.symm h.1

/-- A path is no longer than what is seen from it. -/
theorem utf8ByteSize_le_child (a : Path) (n : FileName) :
    a.text.utf8ByteSize ≤ (a.child n).text.utf8ByteSize := by
  unfold child join
  rw [not_isAbsolute_name, if_neg Bool.false_ne_true]
  split
  · show a.text.utf8ByteSize ≤ (a.text ++ n.text).utf8ByteSize
    rw [String.utf8ByteSize_append]
    omega
  · show a.text.utf8ByteSize ≤ (a.text ++ "/" ++ n.text).utf8ByteSize
    rw [String.utf8ByteSize_append, String.utf8ByteSize_append]
    omega

theorem utf8ByteSize_le_descend (a : Path) (names : List FileName) :
    a.text.utf8ByteSize ≤ (a.descend names).text.utf8ByteSize := by
  induction names generalizing a with
  | nil => exact Nat.le_refl _
  | cons n names ih => exact Nat.le_trans (utf8ByteSize_le_child a n) (ih (a.child n))

/-- What is seen from a path that is too long is too long. -/
theorem isTooLong_descend {a : Path} (names : List FileName) (h : a.isTooLong = true) :
    (a.descend names).isTooLong = true := by
  unfold isTooLong at *
  exact decide_eq_true (Nat.le_trans (of_decide_eq_true h) (utf8ByteSize_le_descend a names))

/-- The path that ends with the component at an index of the parts of `p`, if there is one. -/
def endingAt? (p : Path) (part : List Char) (i : Nat) : Option Path :=
  if i = 0 ∧ part = [] then if p.isAbsolute then some ⟨"/"⟩ else none
  else if part = [] ∨ (part = ['.'] ∧ i ≠ 0) then none
  else some ⟨String.ofList (['/'].intercalate (p.parts.take (i + 1)))⟩

/-- The paths that end with the components of `p`, the shortest first. -/
def endings (p : Path) : List Path := p.parts.zipIdx.filterMap fun x => p.endingAt? x.1 x.2

/-- The paths above `p`, the longest first.  Above the first component of a relative path there is
the empty path; there is nothing above the root and the empty path. -/
def above (p : Path) : List Path :=
  p.endings.dropLast.reverse ++ if p.endings = [] ∨ p.isAbsolute then [] else [⟨""⟩]

/-- The path above `p`. -/
def parent? (p : Path) : Option Path := p.above.head?

/-- Whether a path ends with a slash. -/
def hasSlashAtEnd (p : Path) : Bool := p.text.toList.getLast? == some '/'

/-- The segments before the last one and the last one, where slashes at the end of the path do not
count. -/
def lastSegment? (p : Path) : Option (List Segment × Segment) :=
  match p.parts.reverse.dropWhile (· = []) with
  | [] => none
  | part :: rest =>
    some (rest.reverse.map fun part => Segment.ofText (String.ofList part),
      Segment.ofText (String.ofList part))

end Path

end BundleAudit
