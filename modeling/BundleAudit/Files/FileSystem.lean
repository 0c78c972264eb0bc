import BundleAudit.Files.Folder

/-!
# The file system

An audit is started in the current directory of a file system.  A path is followed segment by
segment from there, or from the root if it is absolute; two points lead to the folder above.  Every
segment needs a folder to start from, so a path that ends with a slash denotes no file.  A path that
is too long is not followed at all, and a segment that is too long for a name only as far as the
folder in front of it.

There are plain files and folders, with names that are texts, and nothing else.  Links, device files
and names that are no text are left out, and so are permissions: whatever there is can be read and
changed.

## Main definitions

* `SystemError` — why an operation on a path fails, with the text that the system has for it.
* `FileSystem` — all files and the place of the current directory.
* `FileSystem.resolve` — the place that a path denotes.
* `FileSystem.read`, `FileSystem.isFile`, `FileSystem.isFolder` — what is there.
* `FileSystem.write`, `FileSystem.makeFolder`, `FileSystem.makeFolders` — changes.
-/

namespace BundleAudit

/-- Why an operation on a path fails. -/
inductive SystemError where
  /-- There is nothing. -/
  | notFound
  /-- There is something already. -/
  | alreadyExists
  /-- A file stands where a folder is needed. -/
  | notAFolder
  /-- A folder stands where a file is needed. -/
  | isAFolder
  /-- The path, or a segment of it, is too long. -/
  | nameTooLong
  /-- The path contains the character NUL, which no name can hold. -/
  | nulInPath
deriving DecidableEq, Repr

/-- The text of a failure. -/
def SystemError.message : SystemError → String
  | .notFound => "No such file or directory (os error 2)"
  | .alreadyExists => "File exists (os error 17)"
  | .notAFolder => "Not a directory (os error 20)"
  | .isAFolder => "Is a directory (os error 21)"
  | .nameTooLong => "File name too long (os error 36)"
  | .nulInPath => "file name contained an unexpected NUL byte"

/-- All files, and the place of the current directory. -/
structure FileSystem where
  /-- The entries of the root. -/
  root : Folder
  /-- The names that lead to the current directory. -/
  here : List FileName
  /-- Every folder holds a name at most once. -/
  distinct : root.Distinct
deriving DecidableEq

namespace FileSystem

/-! ### Following paths -/

/-- The place that a segment leads to from a place. -/
def enter (root : Folder) (place : List FileName) (segment : Segment) :
    Except SystemError (List FileName) :=
  match root.nodeAt? place with
  | none => .error .notFound
  | some (.file _) => .error .notAFolder
  | some (.folder entries) =>
    match segment with
    | .stay => .ok place
    | .up => .ok place.dropLast
    | .name n => if (entries.find? n).isSome then .ok (place ++ [n]) else .error .notFound
    | .overlong => .error .nameTooLong

/-- The place that a path starts from. -/
def start (fs : FileSystem) (p : Path) : List FileName := if p.isAbsolute then [] else fs.here

/-- The place that segments lead to from the start of a path. -/
def follow (fs : FileSystem) (p : Path) (segments : List Segment) :
    Except SystemError (List FileName) :=
  segments.foldlM (enter fs.root) (fs.start p)

/-- Refuses the empty path, paths that no name can hold, and paths that are too long. -/
def checkPath (p : Path) : Except SystemError Unit :=
  if p.text = "" then .error .notFound
  else if '\x00' ∈ p.text.toList then .error .nulInPath
  else if p.isTooLong then .error .nameTooLong
  else .ok ()

/-- The place that a path denotes. -/
def resolve (fs : FileSystem) (p : Path) : Except SystemError (List FileName) := do
  checkPath p
  fs.follow p p.segments

/-- What a path denotes. -/
def node (fs : FileSystem) (p : Path) : Except SystemError Node := do
  let place ← fs.resolve p
  match fs.root.nodeAt? place with
  | some node => pure node
  | none => throw .notFound

/-! ### Looking -/

/-- Whether a path denotes a file. -/
def isFile (fs : FileSystem) (p : Path) : Bool :=
  match fs.node p with
  | .ok (.file _) => true
  | _ => false

/-- Whether a path denotes a folder. -/
def isFolder (fs : FileSystem) (p : Path) : Bool :=
  match fs.node p with
  | .ok (.folder _) => true
  | _ => false

theorem isFolder_iff {fs : FileSystem} {p : Path} :
    fs.isFolder p = true ↔ ∃ entries, fs.node p = .ok (.folder entries) := by
  rw [isFolder]
  cases fs.node p with
  | error e => simp
  | ok node => cases node <;> simp

/-- The bytes of the file that a path denotes. -/
def read (fs : FileSystem) (p : Path) : Except SystemError ByteArray := do
  match ← fs.node p with
  | .file content => pure content
  | .folder _ => throw .isAFolder

theorem read_eq_ok_iff {fs : FileSystem} {p : Path} {content : ByteArray} :
    fs.read p = .ok content ↔ fs.node p = .ok (.file content) := by
  rw [read]
  cases fs.node p with
  | error e => constructor <;> intro h <;> cases h
  | ok node =>
    cases node with
    | file => constructor <;> intro h <;> cases h <;> rfl
    | folder => constructor <;> intro h <;> cases h

/-- What can be read is a file. -/
theorem isFile_of_read_eq_ok {fs : FileSystem} {p : Path} {content : ByteArray}
    (h : fs.read p = .ok content) : fs.isFile p = true := by
  rw [isFile, read_eq_ok_iff.1 h]

/-! ### Changing -/

/-- Makes a place a file, with the folders on the way to it. -/
def putFile (fs : FileSystem) (place : List FileName) (content : ByteArray) : FileSystem where
  root := Folder.alterAt (Folder.putFile content) fs.root place
  here := fs.here
  distinct := Folder.distinct_alterAt place fs.distinct fun old _ =>
    Folder.distinct_putFile content old

/-- Makes a place a folder, with the folders on the way to it. -/
def putFolder (fs : FileSystem) (place : List FileName) : FileSystem where
  root := Folder.alterAt Folder.putFolder fs.root place
  here := fs.here
  distinct := Folder.distinct_alterAt place fs.distinct fun _ h => Folder.distinct_putFolder h

/-- Removes the file or the folder at a place. -/
def remove (fs : FileSystem) (place : List FileName) : FileSystem where
  root := fs.root.eraseAt place
  here := fs.here
  distinct := Folder.distinct_eraseAt place fs.distinct

/-- A file system with nothing but the current directory. -/
def emptyAt (here : List FileName) : FileSystem := putFolder ⟨.empty, here, trivial⟩ here

/-- The folder above the last segment of a path: its place, its entries, and the segment.  A path
without a segment denotes the root, and the error says what an operation makes of that. -/
def enclosing (fs : FileSystem) (p : Path) (atRoot : SystemError) :
    Except SystemError (List FileName × Folder × Segment) := do
  checkPath p
  match p.lastSegment? with
  | none => throw atRoot
  | some (segments, last) =>
    let place ← fs.follow p segments
    match fs.root.nodeAt? place with
    | some (.folder entries) => pure (place, entries, last)
    | _ => throw .notAFolder

/-- Writes a file.  It is made if its name does not stand for anything yet. -/
def write (fs : FileSystem) (p : Path) (content : ByteArray) : Except SystemError FileSystem := do
  let (place, entries, last) ← fs.enclosing p .isAFolder
  match last with
  | .name n =>
    -- with a slash at its end a path asks for a folder, which cannot be written
    if p.hasSlashAtEnd || ((entries.find? n).bind Node.entries?).isSome then throw .isAFolder
    else pure (fs.putFile (place ++ [n]) content)
  | .overlong => if p.hasSlashAtEnd then throw .isAFolder else throw .nameTooLong
  | .stay | .up => throw .isAFolder

/-- Makes a folder whose name does not stand for anything yet. -/
def makeFolder (fs : FileSystem) (p : Path) : Except SystemError FileSystem := do
  let (place, entries, last) ← fs.enclosing p .alreadyExists
  match last with
  | .name n =>
    if (entries.find? n).isSome then throw .alreadyExists
    else pure (fs.putFolder (place ++ [n]))
  | .overlong => throw .nameTooLong
  | .stay | .up => throw .alreadyExists

/-- Makes a folder, unless it is there already. -/
def ensureFolder (fs : FileSystem) (p : Path) : Except SystemError FileSystem :=
  match fs.makeFolder p with
  | .ok fs' => .ok fs'
  | .error e => if fs.isFolder p then .ok fs else .error e

/-- Makes a folder with those above it that are missing, given the paths above it.  Folders made on
the way stay even if a later one cannot be made, so the files are returned with the failure. -/
def makeFoldersUnder (p : Path) : List Path → FileSystem → FileSystem × Option SystemError
  | above, fs =>
    if p.text = "" then (fs, none)
    else
      match fs.ensureFolder p, above with
      | .ok fs, _ => (fs, none)
      -- what is missing is a folder above: make it first, then try again
      | .error .notFound, q :: above =>
        match makeFoldersUnder q above fs with
        | (fs, some e) => (fs, some e)
        | (fs, none) =>
          match fs.ensureFolder p with
          | .ok fs => (fs, none)
          | .error e => (fs, some e)
      | .error e, _ => (fs, some e)

/-- Makes a folder with those above it that are missing. -/
def makeFolders (fs : FileSystem) (p : Path) : FileSystem × Option SystemError :=
  makeFoldersUnder p p.above fs

end FileSystem

end BundleAudit
