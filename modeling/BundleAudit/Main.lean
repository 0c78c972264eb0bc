import BundleAudit.CommandLine.Run
import BundleAudit.Files.Changes

/-!
# The program

The outer layer of the command line.  It reads the files that a command can see, runs the command on
them, makes the changes that the run asks for, and prints.  What a command does is settled by
`BundleAudit.Command.run`; nothing is decided here.

## Main definitions

* `Shell.load` — the files that a command can see: those below the current directory, if bundles are
  checked, and those that its paths lead to.
* `Shell.apply` — makes changes.
* `main` — one run.
-/

namespace BundleAudit.Shell

/-- The names that lead to an absolute path of the system. -/
def namesOf (path : String) : List FileName :=
  (Path.mk path).segments.filterMap fun
    | .name n => some n
    | _ => none

/-- The absolute path that names lead to. -/
def pathOf (place : List FileName) : String := "/" ++ relativePath place

/-- What the system keeps at a place. -/
def entryAt (place : List FileName) := (fun here => here / pathOf place) <$> IO.currentDir

/-- Adds the file or the folder at a place, without what lies in the folder. -/
def loadPlace (fs : FileSystem) (place : List FileName) : IO FileSystem := do
  let entry ← entryAt place
  try
    match (← entry.metadata).type with
    | .dir => pure (fs.putFolder place)
    | .file => pure (fs.putFile place (← IO.FS.readBinFile entry))
    | _ => pure fs
  catch _ => pure fs

/-- Adds everything below the folder at a place.  Links are not followed. -/
partial def loadBelow (fs : FileSystem) (place : List FileName) : IO FileSystem := do
  let entries ← try (← entryAt place).readDir catch _ => pure #[]
  let mut fs := fs
  for entry in entries do
    if let .name n := Segment.ofText entry.fileName then
      let inside := place ++ [n]
      match (← entry.path.symlinkMetadata).type with
      | .dir => fs ← loadBelow (fs.putFolder inside) inside
      | .file => fs ← loadPlace fs inside
      | _ => pure ()
  return fs

/-- The place that a segment leads to from a place. -/
def next (place : List FileName) : Segment → List FileName
  | .stay => place
  | .up => place.dropLast
  | .name n => place ++ [n]
  | .overlong => place

/-- Adds what a path leads to, and what it passes on the way there. -/
def loadPath (whole : Bool) (fs : FileSystem) (p : Path) : IO FileSystem := do
  let mut place := if p.isAbsolute then [] else fs.here
  let mut fs ← loadPlace fs place
  for segment in p.segments do
    place := next place segment
    fs ← loadPlace fs place
  if whole then loadBelow fs place else pure fs

/-- The folders that a command searches. -/
def searched : Command → List Path
  | .check request => ⟨"."⟩ :: (request.bundles ++ request.workspaces)
  | _ => []

/-- The other files and folders that a command looks at. -/
def touched : Command → List Path
  | .check request => request.source.document.toList ++ request.out.toList
  | .codes out => out.toList
  | .config source out => source.document.toList ++ out.toList
  | .version | .help => []

/-- The files that a command can see. -/
def load (command : Command) : IO FileSystem := do
  let here := namesOf (← IO.currentDir).toString
  let fs ← (searched command).foldlM (loadPath true) (FileSystem.emptyAt here)
  (touched command).foldlM (loadPath false) fs

/-- Makes changes. -/
def apply (changes : List Change) : IO Unit := do
  for change in changes do
    let entry ← entryAt change.place
    match change.content with
    | some content => IO.FS.writeBinFile entry content
    | none => IO.FS.createDirAll entry

end BundleAudit.Shell

open BundleAudit in
/-- One run of the program. -/
def main (arguments : List String) : IO UInt32 := do
  match Command.ofArguments arguments with
  | .error e =>
    let outcome := e.outcome (FileSystem.emptyAt [])
    IO.eprint outcome.stderr
    return outcome.exitCode.toUInt32
  | .ok command =>
    let files ← Shell.load command
    let outcome := command.run files
    Shell.apply (files.root.changesFrom outcome.files.root)
    IO.print outcome.stdout
    IO.eprint outcome.stderr
    return outcome.exitCode.toUInt32
