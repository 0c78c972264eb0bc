import BundleAudit.Files.FileSystem
import BundleAudit.Manifest.Attributes
import BundleAudit.Settings.Basic
import BundleAudit.Text.Digits
import BundleAudit.Text.Quoted

/-!
# The manifest of a bundle

An audit needs two things from a manifest: the value of the declaration header, and the line that
opens it.

## Main definitions

* `Manifest` — a manifest as an audit sees it.
* `Manifest.ofText` — the manifest that a text is.
* `Manifest.load` — the manifest in a file.
* `Manifest.absent` — what stands for a manifest that is not there.
* `ManifestError` — why a file gives no manifest, with its message.
-/

namespace BundleAudit

open Text

/-- Why a file gives no manifest. -/
inductive ManifestError where
  /-- The file cannot be read. -/
  | unreadable (error : SystemError)
  /-- The bytes of the file are no text. -/
  | notUtf8
  /-- A line of the main section is malformed. -/
  | malformed (line : MalformedLine)
deriving DecidableEq, Repr

/-- The message of a failure, given the path of the manifest. -/
def ManifestError.message (path : Path) : ManifestError → String
  | .unreadable error => "read manifest " ++ path.text ++ ": " ++ error.message
  | .notUtf8 => "manifest " ++ path.text ++ " is not valid UTF-8"
  | .malformed ⟨line, text⟩ =>
    "invalid manifest header at line " ++ decimal line ++ ": " ++ quotedString text

/-- A manifest as an audit sees it. -/
structure Manifest where
  /-- Its path as written. -/
  path : Path
  /-- Its lines. -/
  lines : List String
  /-- The value of the declaration header, if it has one. -/
  headerValue : Option String
  /-- The line that opens the declaration header, if there is one. -/
  headerLine : Option Nat
deriving DecidableEq, Repr

namespace Manifest

/-- The manifest that a text is. -/
def ofText (s : Settings) (path : Path) (text : List Char) : Except ManifestError Manifest :=
  match Attributes.ofText text with
  | .error line => .error (.malformed line)
  | .ok attributes =>
    let lines := splitLines text
    let value := attributes.get? s.header
    .ok ⟨path, lines.map String.ofList, value,
      if value.isSome then locateHeader? s.header.toList lines else none⟩

/-- The manifest that bytes are. -/
def ofBytes (s : Settings) (path : Path) (bytes : ByteArray) : Except ManifestError Manifest :=
  match String.fromUTF8? bytes with
  | none => .error .notUtf8
  | some text => ofText s path text.toList

/-- The manifest in a file. -/
def load (fs : FileSystem) (s : Settings) (path : Path) : Except ManifestError Manifest :=
  match fs.read path with
  | .error e => .error (.unreadable e)
  | .ok bytes => ofBytes s path bytes

/-- What stands for a manifest that is not there, or is none. -/
def absent (path : Path) : Manifest := ⟨path, [], none, none⟩

end Manifest

end BundleAudit
