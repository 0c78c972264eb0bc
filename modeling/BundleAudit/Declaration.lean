import BundleAudit.Settings.Basic
import BundleAudit.Text.Blank
import BundleAudit.Text.Search

/-!
# Declarations

The declaration header of a manifest lists descriptors, separated by commas.  Each entry names a
folder and a base name, and the base name may be a pattern with the wildcard `*`.

## Main definitions

* `Declaration` — one entry of the header.
* `Declaration.ofText s text` — the entry that a text is.
* `Declaration.stem s d` — its base name without the descriptor extension.
* `declarations s value` — the entries of a header value.

## Main results

* `Declaration.not_mem_baseName_slash` — the base name is a single name.
-/

namespace BundleAudit

open Text

/-- One entry of the declaration header. -/
structure Declaration where
  /-- The entry without the white space around it. -/
  raw : String
  /-- The last folder before the base name, empty if there is none. -/
  parentDirectory : String
  /-- What follows the last slash. -/
  baseName : String
  /-- Whether the base name has a wildcard. -/
  hasWildcard : Bool
  /-- Whether the base name stands for every descriptor. -/
  includesAll : Bool
  /-- Whether the base name ends with the descriptor extension. -/
  hasExtension : Bool
deriving DecidableEq, Repr

/-- The last part of a path that is not empty. -/
def lastFolder (path : List Char) : List Char :=
  ((path.reverse.dropWhile (· = '/')).takeWhile (· ≠ '/')).reverse

/-- A name without the descriptor extension, if it has it. -/
def Settings.stem (s : Settings) (name : String) : String :=
  String.ofList ((s.descriptorExtension.toList.isSuffixOf? name.toList).getD name.toList)

namespace Declaration

/-- The folder part and the base name of an entry. -/
def split (raw : List Char) : List Char × List Char := (cutLast? '/' raw).getD ([], raw)

/-- The entry that a text is. -/
def ofText (s : Settings) (text : String) : Declaration :=
  let raw := trim text.toList
  let folder := (split raw).1
  let base := (split raw).2
  let hasExtension := s.descriptorExtension.toList.isSuffixOf base
  { raw := String.ofList raw
    parentDirectory := String.ofList (lastFolder folder)
    baseName := String.ofList base
    hasWildcard := base.contains '*'
    includesAll := hasExtension && base == s.includeAllToken.toList
    hasExtension }

/-- Whether an entry names a file directly in the descriptors folder. -/
def inDescriptorsFolder (s : Settings) (d : Declaration) : Bool :=
  d.parentDirectory == s.descriptorsFolder

/-- The base name without the descriptor extension. -/
def stem (s : Settings) (d : Declaration) : String := s.stem d.baseName

/-- Whether an entry names one descriptor. -/
def isExplicit (d : Declaration) : Bool := d.hasExtension && !d.includesAll && !d.hasWildcard

/-- Whether an entry names descriptors by a pattern that is not the one for all of them. -/
def isPartial (d : Declaration) : Bool := d.hasExtension && !d.includesAll && d.hasWildcard

end Declaration

/-- The entries of a header value.  Segments between commas that are white space are skipped. -/
def declarations (s : Settings) (value : String) : List Declaration :=
  (((trim value.toList).splitOn ',').map trim |>.filter (· ≠ [])).map fun segment =>
    Declaration.ofText s (String.ofList segment)

/-- The entries of a manifest that may lack the header. -/
def declarationsOf (s : Settings) (value : Option String) : List Declaration :=
  (value.map (declarations s)).getD []

@[simp] theorem declarationsOf_none (s : Settings) : declarationsOf s none = [] := rfl

@[simp] theorem declarationsOf_some (s : Settings) (value : String) :
    declarationsOf s (some value) = declarations s value := rfl

namespace Declaration

/-- The cut is made at the last slash. -/
theorem not_mem_split_slash (raw : List Char) : '/' ∉ (split raw).2 := by
  unfold split
  cases h : cutLast? '/' raw with
  | none => exact cutLast?_eq_none_iff.1 h
  | some p => exact (cutLast?_eq_some_iff.1 h).2

/-- The base name is a single name. -/
theorem not_mem_baseName_slash (s : Settings) (text : String) :
    '/' ∉ (ofText s text).baseName.toList := by
  simpa [ofText] using not_mem_split_slash _

end Declaration

end BundleAudit
