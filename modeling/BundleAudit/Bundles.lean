import BundleAudit.Audit

/-!
# The bundles of a run

A run audits the bundles that are named one by one, and those found below the workspaces: every
folder that has a manifest.  They are put into the order of their paths, and of paths that count as
equal the first one stays.  If nothing is named, the current directory is the bundle.

## Main definitions

* `bundlesBelow` — the bundles below a workspace.
* `collectBundles` — the bundles of a run.
* `RootFault` — why there are none, with its message.
-/

namespace BundleAudit

/-- A path that should be a folder is none. -/
inductive RootFault where
  /-- It should be a bundle. -/
  | bundle (path : Path)
  /-- It should be a workspace. -/
  | workspace (path : Path)
deriving DecidableEq, Repr

/-- The message of a fault. -/
def RootFault.message : RootFault → String
  | .bundle path => "module root is not a directory: " ++ path.text
  | .workspace path => "workspace is not a directory: " ++ path.text

/-- Whether the folder at a path has a manifest. -/
def hasManifest (fs : FileSystem) (s : Settings) (bundle : Path) : Bool :=
  fs.isFile (s.manifestOf bundle)

/-- The bundles below a workspace, itself included. -/
def bundlesBelow (fs : FileSystem) (s : Settings) (workspace : Path) : List Path :=
  match fs.node workspace with
  | .ok (.folder entries) =>
    ((entries.foldersFrom workspace s.skippedFolders).map workspace.descend).filter
      (hasManifest fs s)
  | _ => []

/-- The first path that is no folder, as a fault. -/
def rootFault? (fs : FileSystem) (bundles workspaces : List Path) : Option RootFault :=
  match bundles.find? fun p => !fs.isFolder p with
  | some p => some (.bundle p)
  | none => (workspaces.find? fun p => !fs.isFolder p).map .workspace

/-- The bundles of a run in the order in which they are met. -/
def candidates (fs : FileSystem) (s : Settings) (bundles workspaces : List Path) : List Path :=
  if bundles = [] ∧ workspaces = [] then [⟨"."⟩]
  else bundles ++ workspaces.flatMap (bundlesBelow fs s)

/-- The bundles of a run, given those named one by one and the workspaces. -/
def collectBundles (fs : FileSystem) (s : Settings) (bundles workspaces : List Path) :
    Except RootFault (List Path) :=
  match rootFault? fs bundles workspaces with
  | some fault => .error fault
  | none => .ok (Ordered.ofList Path.compare (candidates fs s bundles workspaces))

end BundleAudit
