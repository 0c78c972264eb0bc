import BundleAudit.Files.Path
import BundleAudit.Json.Basic
import BundleAudit.Report.Message
import BundleAudit.Text.Digits

/-!
# Reports

The audit of a bundle ends in a report: the bundle, its manifest and the findings in the order in
which they arose.  For output a finding becomes a line of text, or a record, which carries the
manifest and the message too and becomes a JSON object.  A record says all that the line says.

## Main definitions

* `BundleReport` — the report of a bundle; it passes if no finding is an error.
* `Finding.lineText` — a finding as a line of text.
* `Record` — a finding made ready for output.
* `Record.lineText` — the line of text that a record says.
* `Record.json` — a record as a JSON object.
* `catalogue` — the JSON document that lists the kinds of findings.

## Main results

* `Record.lineText_ofFinding` — the record of a finding says the line of the finding.
-/

namespace BundleAudit

open Text

/-- The report of a bundle. -/
structure BundleReport where
  /-- The bundle as its path was written. -/
  bundle : Path
  /-- The path of its manifest. -/
  manifest : Path
  /-- The findings in the order in which they arose. -/
  findings : List Finding
deriving DecidableEq, Repr

namespace BundleReport

/-- Whether a bundle passes: no finding is an error. -/
def passes (r : BundleReport) : Bool := r.findings.all fun f => !f.isError

/-- A bundle fails if there is an error among its findings. -/
theorem passes_eq_false_iff {r : BundleReport} :
    r.passes = false ↔ ∃ f ∈ r.findings, f.isError = true := by
  simp [passes]

/-- The version of the form of reports. -/
def schemaVersion : String := "svcmf.module.report@0.1.0"

end BundleReport

/-- A finding in a manifest as a line of text: the place, the severity, the message and the code. -/
def Finding.lineText (s : Settings) (file : Path) (f : Finding) : String :=
  file.text ++ ":" ++ decimal f.line ++ ": " ++ f.severity.name ++ ": " ++ f.message s ++
    " [" ++ f.kind.code ++ "]\n"

/-- A finding made ready for output. -/
structure Record where
  /-- The path of the manifest. -/
  file : String
  /-- The line of the manifest; 0 if it is about none. -/
  line : Nat
  /-- The kind of the finding. -/
  kind : FindingKind
  /-- The names that it is about. -/
  params : List String
  /-- Its message. -/
  message : String
deriving DecidableEq, Repr

namespace Record

/-- The record of a finding in a manifest. -/
def ofFinding (s : Settings) (file : Path) (f : Finding) : Record :=
  ⟨file.text, f.line, f.kind, f.params, f.message s⟩

/-- The severity of a record. -/
def severity (r : Record) : Severity := r.kind.severity

/-- The line of text that a record says. -/
def lineText (r : Record) : String :=
  r.file ++ ":" ++ decimal r.line ++ ": " ++ r.severity.name ++ ": " ++ r.message ++
    " [" ++ r.kind.code ++ "]\n"

/-- The record of a finding says the line of the finding. -/
theorem lineText_ofFinding (s : Settings) (file : Path) (f : Finding) :
    (ofFinding s file f).lineText = f.lineText s file := by
  unfold lineText ofFinding Finding.lineText
  rfl

/-- A record as a JSON object.  Names are left out if there are none. -/
def json (r : Record) : Json :=
  .object <|
    [("file", .string r.file), ("line", .ofNat r.line), ("code", .string r.kind.code),
      ("severity", .string r.severity.name), ("kind", .string r.kind.name)] ++
    (if r.params = [] then [] else [("params", .array (r.params.map .string))]) ++
    [("message", .string r.message)]

end Record

/-- The records of a report. -/
def BundleReport.records (s : Settings) (r : BundleReport) : List Record :=
  r.findings.map (Record.ofFinding s r.manifest)

/-- The entry of a kind of finding in the catalogue. -/
def FindingKind.json (kind : FindingKind) : Json :=
  .object [("kind", .string kind.name), ("code", .string kind.code),
    ("severity", .string kind.severity.name)]

/-- The document that lists the kinds of findings. -/
def catalogue : Json :=
  .object [("schema_version", .string "svcmf.codes@0.1.0"),
    ("codes", .array (FindingKind.all.map FindingKind.json))]

end BundleAudit
