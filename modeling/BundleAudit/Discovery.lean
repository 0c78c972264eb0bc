import BundleAudit.Files.FileSystem
import BundleAudit.Files.Walk
import BundleAudit.Ordered
import BundleAudit.Reconcile

/-!
# Discovering descriptors

The descriptors of a bundle are the files with the descriptor extension that lie below a descriptors
folder, at any depth.  A descriptor is known by its path below the first such folder; of files with
the same path one is listed.  It is excluded if the path of its folder contains one of the fragments
that the settings give.

## Main definitions

* `belowFolder` — the names after the first one that is the descriptors folder.
* `Settings.descriptor?` — the descriptor that a file is.
* `Discovery` — the descriptors found, and the paths that could not be searched.
* `discover` — the descriptors of a bundle.
-/

namespace BundleAudit

open Text

/-- The names after the first one that is the name of a folder. -/
def belowFolder (folder : String) : List FileName → Option (List FileName)
  | [] => none
  | n :: ns => if n.text = folder then some ns else belowFolder folder ns

/-- Names as a relative path. -/
def relativePath (ns : List FileName) : String := "/".intercalate (ns.map FileName.text)

namespace Settings

/-- Whether a folder below the descriptors folder is left out. -/
def excludes (s : Settings) (folder : String) : Bool :=
  s.excludedFragments.any fun fragment => occursIn fragment.toList folder.toList

/-- The descriptor that the file at the end of the names is, if it is one. -/
def descriptor? (s : Settings) (names : List FileName) : Option Descriptor :=
  match names.getLast? with
  | none => none
  | some last =>
    if s.descriptorExtension.toList.isSuffixOf last.text.toList then
      (belowFolder s.descriptorsFolder names).map fun below =>
        ⟨last.text, relativePath below, s.excludes (relativePath below.dropLast)⟩
    else none

/-- The descriptors among the files below the folder at a path, ordered by their relative path.  All
that is kept of a descriptor follows from that path, so it makes no difference which of several
files with the same one is listed. -/
def descriptorsIn (s : Settings) (p : Path) (f : Folder) : List Descriptor :=
  Ordered.ofList (compareOn Descriptor.relativePath)
    ((f.filesFrom p s.skippedFolders).filterMap s.descriptor?)

end Settings

/-- What a search for descriptors has found. -/
structure Discovery where
  /-- The descriptors, ordered by their relative path. -/
  files : List Descriptor
  /-- The paths that could not be searched, and why. -/
  errors : List (Path × String)
deriving DecidableEq, Repr

/-- The descriptors that are not left out. -/
def Discovery.included (d : Discovery) : List Descriptor := d.files.filter fun f => !f.excluded

/-- A path that could not be searched, and why. -/
def searchFailure (p : Path) (e : SystemError) : Path × String :=
  (p, "IO error for operation on " ++ p.text ++ ": " ++ e.message)

/-- The failures of a search below the folder at a path. -/
def Settings.failuresIn (s : Settings) (p : Path) (f : Folder) : List (Path × String) :=
  (f.closedFrom p s.skippedFolders).map fun ns => searchFailure (p.descend ns) .nameTooLong

/-- The descriptors of the bundle at a path.  A file has none. -/
def discover (fs : FileSystem) (s : Settings) (bundle : Path) : Discovery :=
  match fs.node bundle with
  | .error e => ⟨[], [searchFailure bundle e]⟩
  | .ok (.file _) => ⟨[], []⟩
  | .ok (.folder entries) => ⟨s.descriptorsIn bundle entries, s.failuresIn bundle entries⟩

end BundleAudit
