import BundleAudit.Files.Folder

/-!
# Changes of files

What a run has done to the files shows in the files after it.  The changes are listed so that
whoever keeps the files can make them: each names a place, and a folder is listed before what lies
in it.

## Main definitions

* `Folder.changesFrom before after` — the files and folders that are new in `after`, or have other
  bytes.
-/

namespace BundleAudit

/-- A file to be written, or a folder to be made. -/
structure Change where
  /-- The names that lead to it. -/
  place : List FileName
  /-- The bytes of the file; a folder has none. -/
  content : Option ByteArray
deriving DecidableEq

/-- A change inside the folder of a name, seen from the folder that has the name. -/
def Change.inside (n : FileName) (c : Change) : Change := ⟨n :: c.place, c.content⟩

/-- What has to be done to a folder `before` so that it has the entries of the other one. -/
def Folder.changesFrom (before : Folder) : Folder → List Change
  | .empty => []
  | .file n content rest =>
    (if before.find? n = some (.file content) then [] else [⟨[n], some content⟩]) ++
      changesFrom before rest
  | .sub n inner rest =>
    (match before.find? n with
      | some (.folder entries) => (changesFrom entries inner).map (.inside n)
      | _ => ⟨[n], none⟩ :: (changesFrom .empty inner).map (.inside n)) ++
      changesFrom before rest

end BundleAudit
