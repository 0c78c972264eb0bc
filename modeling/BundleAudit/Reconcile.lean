import BundleAudit.Declaration
import BundleAudit.Finding
import BundleAudit.Wildcard

/-!
# Reconciling declarations with descriptors

The declarations of a bundle are held against its descriptor files, in one pass over the
declarations. The pass remembers the files that no wildcard has covered yet and the base names that
were declared one by one.  At its end it knows which declared descriptors are missing and which
files are not declared.  A declaration that includes everything ends the pass at once, and nothing
is missing or undeclared then.

## Main definitions

* `Descriptor` — a descriptor file below the descriptors folder.
* `Reconciliation` — what stays fixed during a pass.
* `Progress` — what a pass remembers.
* `Reconciliation.pass` — the findings of a pass.
* `reconcile` — the findings for declarations and files.
-/

namespace BundleAudit

/-- A descriptor file below the descriptors folder. -/
structure Descriptor where
  /-- Its file name. -/
  name : String
  /-- Its path relative to the descriptors folder. -/
  relativePath : String
  /-- Whether the settings leave it out. -/
  excluded : Bool
deriving DecidableEq, Repr

/-- The names of the files that are not left out, one for each file. -/
def includedNames (files : List Descriptor) : List String :=
  (files.filter fun f => !f.excluded).map Descriptor.name

/-- The wildcard of a declaration. -/
def Declaration.wildcard (s : Settings) (d : Declaration) : Wildcard :=
  Wildcard.ofStem (d.stem s).toList

/-- Whether the wildcard of a declaration matches a file name without the descriptor extension.  A
wildcard that is too large matches nothing. -/
def Declaration.covers (s : Settings) (d : Declaration) (name : String) : Bool :=
  !(d.wildcard s).isTooLarge && (d.wildcard s).accepts (s.stem name).toList

/-- What stays fixed while the declarations are gone through. -/
structure Reconciliation where
  /-- The layout of the bundle. -/
  settings : Settings
  /-- The manifest line of the declaration header, if there is one. -/
  headerLine : Option Nat
  /-- The names of all files that are not left out. -/
  existing : List String
  /-- How many declarations there are. -/
  count : Nat
deriving DecidableEq, Repr

/-- What a pass over the declarations remembers. -/
structure Progress where
  /-- The names of the files that no wildcard has covered so far, one for each file. -/
  uncovered : List String
  /-- The base names declared one by one so far, each once, in the order of their first
  declaration. -/
  declared : List String := []
  /-- Whether the one declaration for everything has been advised. -/
  advised : Bool := false
deriving DecidableEq, Repr

namespace Progress

/-- Remembers a base name that is declared. -/
def declare (p : Progress) (name : String) : Progress :=
  { p with
    declared := if name ∈ p.declared then p.declared else p.declared ++ [name]
    advised := true }

/-- Forgets the files that a wildcard covers. -/
def cover (p : Progress) (covers : String → Bool) : Progress :=
  { p with uncovered := p.uncovered.filter fun name => !covers name, advised := true }

end Progress

namespace Reconciliation

/-- The line that findings are put at: that of the declaration header, or 0. -/
def line (r : Reconciliation) : Nat := r.headerLine.getD 0

/-- A finding at the line of the declaration header. -/
def finding (r : Reconciliation) (kind : FindingKind) (params : List String := []) : Finding :=
  ⟨r.line, kind, params⟩

/-- The finding that a declaration names a file outside the descriptors folder. -/
def folderFindings (r : Reconciliation) (d : Declaration) : List Finding :=
  if d.inDescriptorsFolder r.settings then []
  else [r.finding .wrongDirectory [d.parentDirectory]]

/-- The advice to include everything, unless it has been given. -/
def advice (r : Reconciliation) (p : Progress) : List Finding :=
  if p.advised then [] else [r.finding .includeAllAdvised]

/-- The finding that other declarations stand beside one that includes everything. -/
def repetition (r : Reconciliation) : List Finding :=
  if 1 < r.count then [r.finding .repeatedService] else []

/-- The declared base names that are no file's name. -/
def missing (r : Reconciliation) (p : Progress) : List Finding :=
  (p.declared.filter fun name => name ∉ r.existing).map fun name =>
    r.finding .missingService [name]

/-- The line for files that no declaration covers.  Without a header it is 0. -/
def undeclaredLine (r : Reconciliation) : Nat := if r.headerLine.isSome then r.line else 0

/-- The files that no declaration covers. -/
def undeclared (r : Reconciliation) (p : Progress) : List Finding :=
  (p.uncovered.filter fun name => name ∉ p.declared).map fun name =>
    ⟨r.undeclaredLine, .undeclaredService, [name]⟩

/-- The findings of a pass over the declarations that are left. -/
def pass (r : Reconciliation) : Progress → List Declaration → List Finding
  | p, [] => r.missing p ++ r.undeclared p
  | p, d :: ds =>
    r.folderFindings d ++
      if !d.hasExtension then r.finding .wrongExtension [d.baseName] :: r.pass p ds
      else if d.includesAll then r.repetition
      else if d.hasWildcard then
        -- files that an earlier wildcard covers do not count as matches
        if p.uncovered.any (d.covers r.settings) then
          r.advice p ++ r.pass (p.cover (d.covers r.settings)) ds
        else r.finding .matchesNothing [d.raw] :: r.pass p ds
      else r.advice p ++ r.pass (p.declare d.baseName) ds

/-- At the end of the declarations the balance is drawn. -/
@[simp] theorem pass_nil (r : Reconciliation) (p : Progress) :
    r.pass p [] = r.missing p ++ r.undeclared p := rfl

/-- A declaration without the descriptor extension has no part in the balance. -/
theorem pass_of_not_hasExtension {r : Reconciliation} {p : Progress} {d : Declaration}
    (h : d.hasExtension = false) (ds : List Declaration) :
    r.pass p (d :: ds) =
      r.folderFindings d ++ r.finding .wrongExtension [d.baseName] :: r.pass p ds := by
  simp [pass, h]

/-- A declaration that includes everything ends the pass. -/
theorem pass_of_includesAll {r : Reconciliation} {p : Progress} {d : Declaration}
    (h : d.hasExtension) (hall : d.includesAll) (ds : List Declaration) :
    r.pass p (d :: ds) = r.folderFindings d ++ r.repetition := by
  simp [pass, h, hall]

/-- A wildcard takes the files that it covers out of the uncovered ones. -/
theorem pass_of_isPartial {r : Reconciliation} {p : Progress} {d : Declaration}
    (h : d.isPartial) (hcov : p.uncovered.any (d.covers r.settings)) (ds : List Declaration) :
    r.pass p (d :: ds) =
      r.folderFindings d ++ (r.advice p ++ r.pass (p.cover (d.covers r.settings)) ds) := by
  simp only [Declaration.isPartial, Bool.and_eq_true, Bool.not_eq_true'] at h
  simp [pass, h, hcov]

/-- A wildcard that covers no uncovered file changes nothing. -/
theorem pass_of_isPartial_of_covers_none {r : Reconciliation} {p : Progress} {d : Declaration}
    (h : d.isPartial) (hcov : p.uncovered.any (d.covers r.settings) = false)
    (ds : List Declaration) :
    r.pass p (d :: ds) =
      r.folderFindings d ++ r.finding .matchesNothing [d.raw] :: r.pass p ds := by
  simp only [Declaration.isPartial, Bool.and_eq_true, Bool.not_eq_true'] at h
  simp [pass, h, hcov]

/-- A declaration of one base name is remembered. -/
theorem pass_of_isExplicit {r : Reconciliation} {p : Progress} {d : Declaration}
    (h : d.isExplicit) (ds : List Declaration) :
    r.pass p (d :: ds) =
      r.folderFindings d ++ (r.advice p ++ r.pass (p.declare d.baseName) ds) := by
  simp only [Declaration.isExplicit, Bool.and_eq_true, Bool.not_eq_true'] at h
  simp [pass, h]

end Reconciliation

/-- The findings for declarations and descriptor files.  The header line is absent if the manifest
has no declaration header. -/
def reconcile (s : Settings) (ds : List Declaration) (files : List Descriptor)
    (headerLine : Option Nat) : List Finding :=
  let names := includedNames files
  Reconciliation.pass ⟨s, headerLine, names, ds.length⟩ { uncovered := names } ds

end BundleAudit
