import BundleAudit.Discovery
import BundleAudit.Manifest.Context
import BundleAudit.Report.Basic

/-!
# The audit of a bundle

An audit reads the manifest of a bundle, looks for its descriptors and reconciles the two.  It never
fails: what cannot be read is a finding of its own, and the audit goes on with the rest.

## Main definitions

* `readManifest` — the manifest of a bundle, or the finding that it cannot be read.
* `audit` — the report of a bundle.
-/

namespace BundleAudit

/-- The finding that a file cannot be read. -/
def unreadable (path : Path) (text : String) : Finding := ⟨0, .unreadableFile, [path.text, text]⟩

/-- The path of the manifest of a bundle. -/
def Settings.manifestOf (s : Settings) (bundle : Path) : Path := bundle.join ⟨s.manifestPath⟩

/-- The manifest at a path, with the finding that it cannot be read.  Where there is no file, the
manifest is absent without a finding. -/
def readManifest (fs : FileSystem) (s : Settings) (path : Path) : Manifest × List Finding :=
  if fs.isFile path then
    match Manifest.load fs s path with
    | .ok manifest => (manifest, [])
    | .error e => (.absent path, [unreadable path (e.message path)])
  else (.absent path, [])

/-- The descriptors of a bundle, with the finding for the first path that could not be searched.
Where there is no folder, nothing is searched. -/
def readDescriptors (fs : FileSystem) (s : Settings) (bundle : Path) :
    List Descriptor × List Finding :=
  if fs.isFolder bundle then
    let found := discover fs s bundle
    (found.files, (found.errors.take 1).map fun e => unreadable e.1 e.2)
  else ([], [])

/-- The report of the bundle at a path. -/
def audit (fs : FileSystem) (s : Settings) (bundle : Path) : BundleReport :=
  let (manifest, manifestFindings) := readManifest fs s (s.manifestOf bundle)
  let (files, searchFindings) := readDescriptors fs s bundle
  { bundle
    manifest := s.manifestOf bundle
    findings := manifestFindings ++ searchFindings ++
      reconcile s (declarationsOf s manifest.headerValue) files manifest.headerLine }

end BundleAudit
