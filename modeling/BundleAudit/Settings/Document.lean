import BundleAudit.Files.FileSystem
import BundleAudit.Json.Reader
import BundleAudit.Json.Writer
import BundleAudit.Ordered
import BundleAudit.Settings.Validate

/-!
# Settings documents

Settings are kept in a JSON document: an object with a version and with those settings that differ
from the defaults.  A document is refused for the first reason that applies, in a fixed order: it is
no JSON, its version is another one, a member is unknown or has a value of the wrong type, the
settings are not acceptable.  Members are looked at in the order of their keys, whatever their order
in the document.

## Main definitions

* `Settings.json` — the document of settings.
* `Settings.ofJson`, `Settings.ofBytes` — the settings that a document, or its bytes, give.
* `Settings.load` — the settings in a file.
* `DocumentFault`, `LoadError` — why a document, or a file, is refused, with the message.
-/

namespace BundleAudit

open Text

/-! ### Why a document is refused -/

/-- What a setting takes as its value. -/
inductive ValueType where
  /-- A string. -/
  | string
  /-- A list of strings. -/
  | strings
deriving DecidableEq, Repr

/-- The name of a type of values. -/
def ValueType.text : ValueType → String
  | .string => "a string"
  | .strings => "a sequence"

/-- How a value is called in a message. -/
def Json.kindText : Json → String
  | .null => "null"
  | .bool true => "boolean \x60true\x60"
  | .bool false => "boolean \x60false\x60"
  | .number (.float negative x) =>
    "floating point \x60" ++ String.ofList (Json.Number.float negative x).text ++ "\x60"
  | .number n => "integer \x60" ++ String.ofList n.text ++ "\x60"
  | .string s => "string " ++ quotedString s
  | .array _ => "sequence"
  | .object _ => "map"

/-- What is wrong with a member of a document. -/
inductive MemberFault where
  /-- No setting has this name. -/
  | unknown (key : String)
  /-- A value is of another type than the one expected; `found` is what it is called. -/
  | wrongType (found : String) (expected : ValueType)
deriving DecidableEq, Repr

/-- The message of a fault. -/
def MemberFault.message : MemberFault → String
  | .unknown key =>
    "unknown field \x60" ++ key ++ "\x60, expected one of " ++
      ", ".intercalate (SettingName.all.map fun name => "\x60" ++ name.text ++ "\x60")
  | .wrongType found expected =>
    "invalid type: " ++ found ++ ", expected " ++ expected.text

/-- Why a document is refused. -/
inductive DocumentFault where
  /-- It is no JSON document. -/
  | notJson
  /-- Its version is another one; `got` is empty if it has none. -/
  | version (got : String)
  /-- A member is at fault. -/
  | member (fault : MemberFault)
  /-- The settings are not acceptable. -/
  | setting (fault : SettingFault)
deriving DecidableEq, Repr

/-- Why a file is refused. -/
inductive LoadError where
  /-- It cannot be read. -/
  | unreadable (error : SystemError)
  /-- The document in it is refused. -/
  | document (fault : DocumentFault)
deriving DecidableEq, Repr

/-! ### Writing -/

/-- The version of the form of settings documents. -/
def Settings.schemaVersion : String := "svcmf.config@0.1.0"

/-- The key of the version. -/
def Settings.versionKey : String := "schema_version"

/-- The value of a setting in a document. -/
def Settings.value (s : Settings) : SettingName → Json
  | .descriptorsFolder => .string s.descriptorsFolder
  | .descriptorExtension => .string s.descriptorExtension
  | .includeAllToken => .string s.includeAllToken
  | .excludedFragments => .array (s.excludedFragments.map .string)
  | .header => .string s.header
  | .manifestPath => .string s.manifestPath
  | .skippedFolders => .array (s.skippedFolders.map .string)

/-- The members of a document with all settings. -/
def Settings.members (s : Settings) : List (String × Json) :=
  SettingName.all.map fun name => (name.text, s.value name)

/-- The document of settings. -/
def Settings.json (s : Settings) : Json :=
  .object ((Settings.versionKey, .string Settings.schemaVersion) :: s.members)

/-! ### Reading -/

namespace Settings

/-- The string that a value has to be. -/
def expectString (v : Json) : Except MemberFault String :=
  match v with
  | .string s => .ok s
  | _ => .error (.wrongType v.kindText .string)

/-- The list of strings that a value has to be. -/
def expectStrings (v : Json) : Except MemberFault (List String) :=
  match v with
  | .array items => items.mapM expectString
  | _ => .error (.wrongType v.kindText .strings)

/-- The settings with one of them changed to the value of a member. -/
def setValue (s : Settings) (name : SettingName) (v : Json) : Except MemberFault Settings :=
  match name with
  | .descriptorsFolder => (expectString v).map fun x => { s with descriptorsFolder := x }
  | .descriptorExtension => (expectString v).map fun x => { s with descriptorExtension := x }
  | .includeAllToken => (expectString v).map fun x => { s with includeAllToken := x }
  | .excludedFragments => (expectStrings v).map fun x => { s with excludedFragments := x }
  | .header => (expectString v).map fun x => { s with header := x }
  | .manifestPath => (expectString v).map fun x => { s with manifestPath := x }
  | .skippedFolders => (expectStrings v).map fun x => { s with skippedFolders := x }

/-- The settings with one of them changed by a member. -/
def setMember (s : Settings) (m : String × Json) : Except MemberFault Settings :=
  match SettingName.ofText? m.1 with
  | none => .error (.unknown m.1)
  | some name => s.setValue name m.2

/-- The settings changed by members, one after the other. -/
def setMembers (s : Settings) (ms : List (String × Json)) : Except MemberFault Settings :=
  ms.foldlM setMember s

/-- The members of an object in the order of their keys, of those with the same key the last.  An
ordered list keeps the first of equal elements, so the members go in backwards. -/
def sortedMembers (ms : List (String × Json)) : List (String × Json) :=
  Ordered.ofList (compareOn Prod.fst) ms.reverse

/-- The version that a document has, empty if it has none. -/
def versionOf (document : Json) : String :=
  ((document.member? versionKey).bind Json.string?).getD ""

/-- The settings of a document, without a look at whether they are acceptable. -/
def overlay (document : Json) : Except MemberFault Settings :=
  -- the version has been looked at already and is no setting
  let members := (document.members?.getD []).filter fun m => m.1 ≠ versionKey
  setMembers {} (sortedMembers members)

/-- The settings that a document gives. -/
def ofJson (document : Json) : Except DocumentFault Settings :=
  let got := versionOf document
  if got ≠ schemaVersion then .error (.version got)
  else
    match overlay document with
    | .error fault => .error (.member fault)
    | .ok s =>
      match s.fault? with
      | some fault => .error (.setting fault)
      | none => .ok s

/-- The settings that the bytes of a document give. -/
def ofBytes (bytes : ByteArray) : Except DocumentFault Settings :=
  match Json.readBytes? bytes with
  | none => .error .notJson
  | some document => ofJson document

/-- The settings in a file. -/
def load (fs : FileSystem) (path : Path) : Except LoadError Settings :=
  match fs.read path with
  | .error e => .error (.unreadable e)
  | .ok bytes =>
    match ofBytes bytes with
    | .error fault => .error (.document fault)
    | .ok s => .ok s

end Settings

/-! ### Messages -/

/-- What lies behind a failure, if its message goes on to say it. -/
def LoadError.cause : LoadError → Option String
  | .unreadable error => some error.message
  | .document .notJson => some "not a JSON document"
  | .document (.member fault) => some fault.message
  | .document _ => none

/-- The message of a failure, given the path of the file.  What is no JSON document has one message
here, where the program shows what its JSON reader stumbled over, and at which line and column. -/
def LoadError.message (path : Path) : LoadError → String
  | .unreadable error => "read config " ++ path.text ++ ": " ++ error.message
  | .document .notJson => "parse config " ++ path.text ++ ": not a JSON document"
  | .document (.member fault) => "parse config " ++ path.text ++ ": " ++ fault.message
  | .document (.version got) =>
    "config schema_version mismatch: expected " ++ quotedString Settings.schemaVersion ++
      " got " ++ quotedString got
  | .document (.setting fault) => fault.message

end BundleAudit
