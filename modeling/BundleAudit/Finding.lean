/-!
# Findings

What an audit has to say about a bundle is a list of findings.  A finding has a kind, the manifest
line it is about, and the names it is about; the kind fixes a code and a severity.

## Main definitions

* `Severity` — error, warning or information.
* `FindingKind` — the eight kinds, with their name, code and severity.
* `Finding` — one finding.
* `Finding.isError` — the finding makes the audit fail.
-/

namespace BundleAudit

/-- How much a finding weighs. -/
inductive Severity where
  /-- The bundle is wrong. -/
  | error
  /-- The bundle is likely to be wrong. -/
  | warning
  /-- The bundle could be improved. -/
  | info
deriving DecidableEq, Repr

/-- The name of a severity. -/
def Severity.name : Severity → String
  | .error => "error"
  | .warning => "warning"
  | .info => "info"

/-- The kinds of findings. -/
inductive FindingKind where
  /-- A declaration names a file outside the descriptors folder. -/
  | wrongDirectory
  /-- A declaration names a file without the descriptor extension. -/
  | wrongExtension
  /-- A declaration with a wildcard matches no descriptor. -/
  | matchesNothing
  /-- A declaration that includes every descriptor would be better. -/
  | includeAllAdvised
  /-- A declaration stands beside one that includes every descriptor. -/
  | repeatedService
  /-- A declared descriptor does not exist. -/
  | missingService
  /-- A descriptor is not declared. -/
  | undeclaredService
  /-- A file of the bundle could not be read. -/
  | unreadableFile
deriving DecidableEq, Repr

namespace FindingKind

/-- All kinds, in the order of the catalogue. -/
def all : List FindingKind :=
  [.wrongDirectory, .wrongExtension, .matchesNothing, .includeAllAdvised, .repeatedService,
    .missingService, .undeclaredService, .unreadableFile]

/-- The name of a kind. -/
def name : FindingKind → String
  | .wrongDirectory => "WRONG_DIRECTORY"
  | .wrongExtension => "WRONG_EXTENSION"
  | .matchesNothing => "NOT_MATCHING_REGEX"
  | .includeAllAdvised => "BEST_APPROACH"
  | .repeatedService => "REPEATED_SERVICE"
  | .missingService => "NOT_EXISTING_SERVICE"
  | .undeclaredService => "NOT_INCLUDED_SERVICE"
  | .unreadableFile => "UNREADABLE_FILE"

/-- The code of a kind. -/
def code : FindingKind → String
  | .wrongDirectory => "SVCMF-HDR-DIR-0001"
  | .wrongExtension => "SVCMF-HDR-EXT-0001"
  | .matchesNothing => "SVCMF-HDR-GLOB-0001"
  | .includeAllAdvised => "SVCMF-HDR-ADVICE-0001"
  | .repeatedService => "SVCMF-HDR-REPEAT-0001"
  | .missingService => "SVCMF-SVC-MISSING-0001"
  | .undeclaredService => "SVCMF-SVC-UNDECLARED-0001"
  | .unreadableFile => "SVCMF-IO-READ-0001"

/-- The severity of a kind. -/
def severity : FindingKind → Severity
  | .wrongDirectory | .wrongExtension | .matchesNothing | .missingService => .error
  | .repeatedService | .undeclaredService | .unreadableFile => .warning
  | .includeAllAdvised => .info

/-- The kind with a name. -/
def ofName? (name : String) : Option FindingKind := all.find? fun kind => kind.name == name

/-- The catalogue lists every kind. -/
theorem mem_all (kind : FindingKind) : kind ∈ all := by
  cases kind <;> decide

/-- Kinds are told apart by their names. -/
theorem ofName?_name (kind : FindingKind) : ofName? kind.name = some kind := by
  cases kind <;> decide

end FindingKind

/-- One finding. -/
structure Finding where
  /-- The manifest line that it is about; 0 if it is about none. -/
  line : Nat
  /-- Its kind. -/
  kind : FindingKind
  /-- The names that it is about, as its kind has them. -/
  params : List String := []
deriving DecidableEq, Repr

namespace Finding

/-- The severity of a finding is that of its kind. -/
def severity (f : Finding) : Severity := f.kind.severity

/-- Whether a finding makes the audit fail. -/
def isError (f : Finding) : Bool := f.severity == .error

/-- The name at a place among those that a finding is about, empty if there is none. -/
def param (f : Finding) (i : Nat) : String := f.params.getD i ""

/-- Exactly four kinds make an audit fail. -/
theorem isError_iff {f : Finding} :
    f.isError = true ↔ f.kind = .wrongDirectory ∨ f.kind = .wrongExtension ∨
      f.kind = .matchesNothing ∨ f.kind = .missingService := by
  obtain ⟨line, kind, params⟩ := f
  cases kind <;> simp [isError, severity, FindingKind.severity]

end Finding

end BundleAudit
