import BundleAudit.Files.Path
import BundleAudit.Text.Digits
import BundleAudit.Text.Search

/-!
# Arguments of the command line

A command is followed by options.  An option has a value, in the argument after its name or, after
an equals sign, in the same one.  A separate value may not look like an option.  Some options may be
repeated; none may be abbreviated.

## Main definitions

* `Command` — what a run is asked to do.
* `UsageError` — why arguments ask for nothing, with its message.
* `Command.ofArguments` — the command that arguments give.
-/

namespace BundleAudit

open Text

/-- The form of the answer of a check. -/
inductive OutputFormat where
  /-- A line of text for each finding. -/
  | text
  /-- A JSON document. -/
  | json
deriving DecidableEq, Repr

/-- Where the settings of a run come from. -/
structure SettingsSource where
  /-- The settings document, if it is not left to the defaults. -/
  document : Option Path
  /-- Fragments of excluded paths on top of those of the document. -/
  excluded : List String
deriving DecidableEq, Repr

/-- What a check is asked to do. -/
structure CheckRequest where
  /-- The bundles named one by one. -/
  bundles : List Path
  /-- The folders below which bundles are looked for. -/
  workspaces : List Path
  /-- Where the settings come from. -/
  source : SettingsSource
  /-- The form of the answer. -/
  format : OutputFormat
  /-- The file that takes the answer, if it is not printed. -/
  out : Option Path
  /-- How many workers there may be. -/
  jobs : Nat
deriving DecidableEq, Repr

/-- What a run is asked to do. -/
inductive Command where
  /-- Print the version. -/
  | version
  /-- Print the usage. -/
  | help
  /-- Check bundles. -/
  | check (request : CheckRequest)
  /-- Print the catalogue of findings. -/
  | codes (out : Option Path)
  /-- Print the settings in effect. -/
  | config (source : SettingsSource) (out : Option Path)
deriving DecidableEq, Repr

/-- The options. -/
inductive OptionName where
  /-- A bundle. -/
  | module
  /-- A workspace. -/
  | workspace
  /-- The settings document. -/
  | config
  /-- A fragment of excluded paths. -/
  | excludedSubfolder
  /-- The form of the answer. -/
  | format
  /-- The file that takes the answer. -/
  | out
  /-- The number of workers. -/
  | jobs
deriving DecidableEq, Repr

namespace OptionName

/-- The name of an option as an argument. -/
def text : OptionName → String
  | .module => "--module"
  | .workspace => "--workspace"
  | .config => "--config"
  | .excludedSubfolder => "--excluded-subfolder"
  | .format => "--format"
  | .out => "--out"
  | .jobs => "--jobs"

/-- Whether an option may be given more than once. -/
def isRepeatable : OptionName → Bool
  | .module | .workspace | .excludedSubfolder => true
  | .config | .format | .out | .jobs => false

/-- The options of a check. -/
def ofCheck : List OptionName :=
  [.module, .workspace, .config, .excludedSubfolder, .format, .out, .jobs]

/-- The options of the catalogue. -/
def ofCodes : List OptionName := [.out]

/-- The options of the settings in effect. -/
def ofConfig : List OptionName := [.config, .excludedSubfolder, .out]

end OptionName

/-- Why arguments ask for nothing. -/
inductive UsageError where
  /-- There is no command. -/
  | noCommand
  /-- An argument is no command. -/
  | unknownCommand (argument : String)
  /-- An argument has no place here. -/
  | unexpected (argument : String)
  /-- An option has no value. -/
  | noValue (option : OptionName)
  /-- An option is given twice. -/
  | repeated (option : OptionName)
  /-- An option does not take this value. -/
  | badValue (option : OptionName) (value : String)
deriving DecidableEq, Repr

/-- The message of a usage error, in words of this library.  The program shows what the parser of
its command line has to say. -/
def UsageError.message : UsageError → String
  | .noCommand => "a command is required: check, codes or config"
  | .unknownCommand argument => "unknown command: " ++ argument
  | .unexpected argument => "unexpected argument: " ++ argument
  | .noValue option => "a value is required for " ++ option.text
  | .repeated option => option.text ++ " may be given only once"
  | .badValue option value => "invalid value for " ++ option.text ++ ": " ++ value

/-! ### Options -/

/-- An option of a command line, or the request for the usage. -/
inductive Argument where
  /-- An option with its value. -/
  | option (name : OptionName) (value : String)
  /-- The request for the usage. -/
  | help
deriving DecidableEq, Repr

/-- The name in front of the first equals sign of an argument, and the value behind it. -/
def splitArgument (argument : String) : String × Option String :=
  match cutFirst? '=' argument.toList with
  | none => (argument, none)
  | some (name, value) => (String.ofList name, some (String.ofList value))

/-- Whether an argument looks like an option. -/
def looksLikeOption (argument : String) : Bool :=
  argument.toList.head? == some '-' && argument != "-"

/-- Whether an argument is a flag of one letter, or starts with it: of letters written together the
first one counts. -/
def startsWithFlag (flag : Char) (argument : String) : Bool :=
  ['-', flag].isPrefixOf argument.toList

/-- The options that arguments give, of those allowed.  What follows a request for the usage is not
read. -/
def readOptions (allowed : List OptionName) : List String → Except UsageError (List Argument)
  | [] => .ok []
  | argument :: rest =>
    if argument = "--" then
      match rest with
      | [] => .ok []
      | stray :: _ => .error (.unexpected stray)
    else if argument = "--help" ∨ startsWithFlag 'h' argument then .ok [.help]
    else
      match allowed.find? fun name => name.text == (splitArgument argument).1 with
      | none => .error (.unexpected argument)
      | some name =>
        match (splitArgument argument).2 with
        | some value => (readOptions allowed rest).map (.option name value :: ·)
        | none =>
          match rest with
          | [] => .error (.noValue name)
          | value :: rest =>
            if looksLikeOption value then .error (.noValue name)
            else (readOptions allowed rest).map (.option name value :: ·)

/-- The values of an option, in order. -/
def valuesOf (name : OptionName) (arguments : List Argument) : List String :=
  arguments.filterMap fun
    | .option other value => if other = name then some value else none
    | .help => none

/-- The value of an option that may be given once. -/
def valueOf? (name : OptionName) (arguments : List Argument) : Option String :=
  (valuesOf name arguments).head?

/-! ### Values -/

/-- The path that a value is. -/
def pathOf (name : OptionName) (value : String) : Except UsageError Path :=
  if value = "" then .error (.badValue name value) else .ok ⟨value⟩

/-- The paths that the values of an option are. -/
def pathsOf (name : OptionName) (arguments : List Argument) : Except UsageError (List Path) :=
  (valuesOf name arguments).mapM (pathOf name)

/-- The path that the value of an option is, if the option is given. -/
def pathOf? (name : OptionName) (arguments : List Argument) :
    Except UsageError (Option Path) :=
  (valueOf? name arguments).mapM (pathOf name)

/-- The form of the answer that a value names. -/
def formatOf (value : String) : Except UsageError OutputFormat :=
  if value = "text" then .ok .text
  else if value = "json" then .ok .json
  else .error (.badValue .format value)

/-- The number of workers that a value denotes: a number from 1 to 65535, with a plus sign or
without. -/
def jobsOf (value : String) : Except UsageError Nat :=
  let digits := match value.toList with
    | '+' :: digits => digits
    | digits => digits
  let n := digitsValue digits
  if digits ≠ [] ∧ digits.all Char.isDigit ∧ 1 ≤ n ∧ n < UInt16.size then .ok n
  else .error (.badValue .jobs value)

/-- Refuses options that are given more often than they may be. -/
def checkRepeated (allowed : List OptionName) (arguments : List Argument) :
    Except UsageError Unit :=
  match allowed.find? fun name => !name.isRepeatable && 1 < (valuesOf name arguments).length with
  | some name => .error (.repeated name)
  | none => .ok ()

/-! ### Commands -/

/-- Where options take the settings from. -/
def sourceOf (arguments : List Argument) : Except UsageError SettingsSource := do
  pure ⟨← pathOf? .config arguments, valuesOf .excludedSubfolder arguments⟩

/-- The check that options ask for. -/
def checkOf (arguments : List Argument) : Except UsageError CheckRequest := do
  let bundles ← pathsOf .module arguments
  let workspaces ← pathsOf .workspace arguments
  let source ← sourceOf arguments
  let format ← (valueOf? .format arguments).mapM formatOf
  let out ← pathOf? .out arguments
  let jobs ← (valueOf? .jobs arguments).mapM jobsOf
  pure ⟨bundles, workspaces, source, format.getD .text, out, jobs.getD 1⟩

/-- The command that options give.  The request for the usage comes first only if nothing is wrong
with the options in front of it. -/
def withOptions (allowed : List OptionName) (arguments : List String)
    (command : List Argument → Except UsageError Command) : Except UsageError Command := do
  let arguments ← readOptions allowed arguments
  checkRepeated allowed arguments
  let command ← command arguments
  pure (if arguments.contains .help then .help else command)

/-- The command that arguments give. -/
def Command.ofArguments : List String → Except UsageError Command
  | [] => .error .noCommand
  | "check" :: rest => withOptions OptionName.ofCheck rest fun arguments => do
    pure (.check (← checkOf arguments))
  | "codes" :: rest => withOptions OptionName.ofCodes rest fun arguments => do
    pure (.codes (← pathOf? .out arguments))
  | "config" :: rest => withOptions OptionName.ofConfig rest fun arguments => do
    pure (.config (← sourceOf arguments) (← pathOf? .out arguments))
  | ["help"] => .ok .help
  | ["help", name] =>
    if name ∈ ["check", "codes", "config", "help"] then .ok .help
    else .error (.unknownCommand name)
  | argument :: _ =>
    if argument = "--version" ∨ startsWithFlag 'V' argument then .ok .version
    else if argument = "--help" ∨ startsWithFlag 'h' argument then .ok .help
    else .error (.unknownCommand argument)

end BundleAudit
