import BundleAudit.Bundles
import BundleAudit.CommandLine.Arguments
import BundleAudit.Report.Delivery
import BundleAudit.Settings.Document
import BundleAudit.WorkerPool

/-!
# Running a command

A run is a function of the files and of the command: it prints something, leaves the files as they
are or with one file written, and ends with an exit code.  The code is 0 if all is well, 1 if a
bundle does not pass, and 2 if the run could not be carried out; a run that ends with 2 prints no
answer.

What is printed can always be printed: a failure to write to the standard output is left out.  So is
the log, which shares the standard error with the messages here and whose lines carry the time.

## Main definitions

* `Outcome` — what a run prints, its exit code, and the files after it.
* `Failure` — why a run could not be carried out, with its message.
* `SettingsSource.resolve` — the settings of a run.
* `Check` — what a check has found, and its two forms.
* `Command.run` — the outcome of a command.
-/

namespace BundleAudit

open Text

/-- What a run prints, how it ends, and what it leaves. -/
structure Outcome where
  /-- The exit code. -/
  exitCode : Nat
  /-- What is printed. -/
  stdout : String
  /-- What is printed beside it, without the lines of the log. -/
  stderr : String
  /-- The files after the run. -/
  files : FileSystem

/-! ### Failures -/

/-- Why a run could not be carried out. -/
inductive Failure where
  /-- The settings document cannot be used. -/
  | document (path : Path) (error : LoadError)
  /-- The settings in effect are not acceptable. -/
  | settings (fault : SettingFault)
  /-- A bundle or a workspace is no folder. -/
  | root (fault : RootFault)
  /-- The folder of the file that takes the answer cannot be made. -/
  | folder (path : Path) (error : SystemError)
  /-- The file that takes the answer cannot be written. -/
  | write (path : Path) (error : SystemError)
deriving DecidableEq, Repr

/-- The causes of a failure, from the outermost to the innermost. -/
def Failure.causes : Failure → List String
  | .document path error =>
    ["load config: " ++ path.text, error.message path] ++ error.cause.toList
  | .settings fault => ["invalid configuration", fault.message]
  | .root fault => [fault.message]
  | .folder path error => ["create dir: " ++ path.text, error.message]
  | .write path error => ["write: " ++ path.text, error.message]

/-- The message of a failure: all its causes. -/
def Failure.message (f : Failure) : String := ": ".intercalate f.causes

namespace Outcome

/-- The outcome of a run that could not be carried out. -/
def failed (fs : FileSystem) (f : Failure) : Outcome := ⟨2, "", f.message ++ "\n", fs⟩

end Outcome

/-! ### Writing the answer -/

/-- Writes a text into a file, and makes the folders above it that are missing.  What has been made
stays even if the file cannot be written. -/
def writeText (fs : FileSystem) (path : Path) (text : String) : FileSystem × Option Failure :=
  let (fs, failure) :=
    match path.parent? with
    | none => (fs, none)
    | some folder =>
      let (fs, error) := fs.makeFolders folder
      (fs, error.map (Failure.folder folder))
  match failure with
  | some failure => (fs, some failure)
  | none =>
    match fs.write path text.toUTF8 with
    | .ok fs => (fs, none)
    | .error e => (fs, some (.write path e))

/-- Prints an answer, or writes it into a file.  The note is printed beside it in both cases, once
the answer is there. -/
def deliverAnswer (fs : FileSystem) (out : Option Path) (exitCode : Nat) (answer note : String) :
    Outcome :=
  match out with
  | none => ⟨exitCode, answer, note, fs⟩
  | some path =>
    match writeText fs path answer with
    | (fs, none) => ⟨exitCode, "", note, fs⟩
    | (fs, some failure) => .failed fs failure

/-! ### Settings in effect -/

/-- A list with an element at its end, unless it has the element. -/
def addNew (xs : List String) (x : String) : List String := if x ∈ xs then xs else xs ++ [x]

/-- Settings with further fragments of excluded paths, each once. -/
def Settings.addExcluded (s : Settings) (fragments : List String) : Settings :=
  { s with excludedFragments := fragments.foldl addNew s.excludedFragments }

/-- The settings of a run: the defaults, changed by the document, with the further fragments. -/
def SettingsSource.resolve (fs : FileSystem) (source : SettingsSource) :
    Except Failure Settings := do
  let s ←
    match source.document with
    | none => pure {}
    | some path =>
      match Settings.load fs path with
      | .ok s => pure s
      | .error e => throw (.document path e)
  let s := s.addExcluded source.excluded
  match s.fault? with
  | some fault => throw (.settings fault)
  | none => pure s

/-! ### Checks -/

/-- What a check has found. -/
structure Check where
  /-- The settings that it was made with. -/
  settings : Settings
  /-- The reports of the bundles, in order. -/
  reports : List BundleReport
deriving DecidableEq, Repr

namespace Check

/-- Whether every bundle passes. -/
def passes (c : Check) : Bool := c.reports.all BundleReport.passes

/-- The exit code of a check. -/
def exitCode (c : Check) : Nat := if c.passes then 0 else 1

/-- The records of all findings, in order. -/
def records (c : Check) : List Record := ((collector c.settings).deliverAll [] c.reports).1

/-- How many findings are errors. -/
def errorCount (c : Check) : Nat := (c.records.filter fun r => r.severity == .error).length

/-- The text of a check: a line for each finding. -/
def text (c : Check) : String := ((textWriter c.settings).deliverAll "" c.reports).1

/-- The document of a check. -/
def json (c : Check) : Json :=
  .object [("schema_version", .string "svcmf.check.report@0.1.0"),
    ("command", .string "check"),
    ("ok", .bool (c.exitCode == 0)),
    ("modules_count", .ofNat c.reports.length),
    ("findings_count", .ofNat c.records.length),
    ("findings", .array (c.records.map Record.json)),
    ("exit_code", .ofNat c.exitCode)]

/-- The line that sums up a check. -/
def summary (c : Check) : String :=
  "svcmf: modules=" ++ decimal c.reports.length ++ " findings=" ++ decimal c.records.length ++
    " errors=" ++ decimal c.errorCount ++ " (exit=" ++ decimal c.exitCode ++ ")\n"

/-- The answer of a check and the note beside it, in a form. -/
def answer (c : Check) : OutputFormat → String × String
  | .text => (c.text, c.summary)
  | .json => (c.json.compactLine, "")

end Check

/-- What a check finds, given the settings of the run. -/
def CheckRequest.check (fs : FileSystem) (s : Settings) (request : CheckRequest) :
    Except Failure Check :=
  match collectBundles fs s request.bundles request.workspaces with
  | .error fault => .error (.root fault)
  | .ok bundles => .ok ⟨s, inParallel request.jobs bundles (audit fs s)⟩

/-! ### Commands -/

/-- The version of the program. -/
def versionText : String := "svcmf 0.1.0\n"

/-- The usage of the program, in words of this library.  The program prints a longer text, which the
parser of its command line makes from the descriptions of the options. -/
def usageText : String :=
  "Usage: svcmf <command> [options]\n\n" ++
  "  check   check bundles: --module DIR, --workspace DIR, --config PATH,\n" ++
  "          --excluded-subfolder FRAG, --format text|json, --out PATH, --jobs N\n" ++
  "  codes   print the catalogue of findings: --out PATH\n" ++
  "  config  print the settings in effect: --config PATH, --excluded-subfolder FRAG,\n" ++
  "          --out PATH\n"

/-- The outcome of a check. -/
def CheckRequest.run (fs : FileSystem) (request : CheckRequest) : Outcome :=
  match request.source.resolve fs with
  | .error failure => .failed fs failure
  | .ok s =>
    match request.check fs s with
    | .error failure => .failed fs failure
    | .ok found =>
      let (answer, note) := found.answer request.format
      deliverAnswer fs request.out found.exitCode answer note

/-- The outcome of a command, provided that its answer can be printed. -/
def Command.run (fs : FileSystem) : Command → Outcome
  | .version => ⟨0, versionText, "", fs⟩
  | .help => ⟨0, usageText, "", fs⟩
  | .check request => request.run fs
  | .codes out => deliverAnswer fs out 0 catalogue.spreadLines ""
  | .config source out =>
    match source.resolve fs with
    | .error failure => .failed fs failure
    | .ok s => deliverAnswer fs out 0 s.json.spreadLines ""

/-- The outcome of a usage error.  Only the exit code and the empty answer are those of the
program. -/
def UsageError.outcome (fs : FileSystem) (e : UsageError) : Outcome :=
  ⟨2, "", "error: " ++ e.message ++ "\n\n" ++ usageText, fs⟩

/-- The outcome of a run with arguments. -/
def run (fs : FileSystem) (arguments : List String) : Outcome :=
  match Command.ofArguments arguments with
  | .error e => e.outcome fs
  | .ok command => command.run fs

end BundleAudit
