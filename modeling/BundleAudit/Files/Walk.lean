import BundleAudit.Files.Folder
import BundleAudit.Ordered

/-!
# Walking through folders

A walk visits everything below a folder, except what lies in folders whose name is to be skipped.
The folder that the walk starts in is never skipped.

A walk that starts at a path opens each folder by its path as seen from there.  Where that path is
too long the folder stays closed: it is met, but nothing in it is.

## Main definitions

* `Folder.filesOutside skipped` — the names that lead to the files of a walk.
* `Folder.foldersOutside skipped` — the names that lead to the folders of a walk, the start
  included.
* `Folder.filesFrom p skipped`, `Folder.foldersFrom p skipped` — what the walk meets that starts at
  a path.
* `Folder.closedFrom p skipped` — the folders that it cannot open.
* `Folder.HasFile`, `Folder.HasFolder` — there is a file, or a folder, where a list of names leads.

## Main results

* `Folder.mem_filesOutside_iff`, `Folder.mem_foldersOutside_iff` — a walk visits what is there and
  lies in no folder to be skipped.
* `Folder.mem_filesFrom_iff`, `Folder.mem_foldersFrom_iff` — and, if it starts at a path, in no
  folder that stays closed.
-/

namespace BundleAudit.Folder

/-! ### Walks -/

/-- The names that lead to the files below a folder, except those in skipped folders. -/
def filesOutside (skipped : List String) : Folder → List (List FileName)
  | .empty => []
  | .file n _ rest => [n] :: rest.filesOutside skipped
  | .sub n inner rest =>
    (if n.text ∈ skipped then [] else (inner.filesOutside skipped).map (n :: ·)) ++
      rest.filesOutside skipped

/-- The names that lead to the folders below a folder, except skipped ones and those in them. -/
def subfoldersOutside (skipped : List String) : Folder → List (List FileName)
  | .empty => []
  | .file _ _ rest => rest.subfoldersOutside skipped
  | .sub n inner rest =>
    (if n.text ∈ skipped then []
      else [n] :: (inner.subfoldersOutside skipped).map (n :: ·)) ++
      rest.subfoldersOutside skipped

/-- The names that lead to the folders of a walk. -/
def foldersOutside (skipped : List String) (f : Folder) : List (List FileName) :=
  [] :: f.subfoldersOutside skipped

/-! ### Walks that start at a path -/

/-- Whether the folder that names lead to can be opened from a path. -/
def opensFrom (p : Path) (ns : List FileName) : Bool := !(p.descend ns).isTooLong

/-- The names that lead to the files that a walk meets.  A folder that can be opened lies in folders
that can, since their paths are shorter. -/
def filesFrom (p : Path) (skipped : List String) (f : Folder) : List (List FileName) :=
  (f.filesOutside skipped).filter fun ns => opensFrom p ns.dropLast

/-- The names that lead to the folders that a walk meets, its start included. -/
def foldersFrom (p : Path) (skipped : List String) (f : Folder) : List (List FileName) :=
  (f.foldersOutside skipped).filter fun ns => opensFrom p ns.dropLast

/-- The names that lead to the folders that a walk meets and cannot open, in the order in which it
meets them: by name, and what lies in a folder right after the folder. -/
def closedFrom (p : Path) (skipped : List String) (f : Folder) : List (List FileName) :=
  Ordered.ofList (List.compareLex (compareOn FileName.text))
    ((f.foldersFrom p skipped).filter fun ns => !opensFrom p ns)

/-- A folder that can be opened lies in folders that can be opened. -/
theorem opensFrom_of_append {p : Path} {ns ms : List FileName} (h : opensFrom p (ns ++ ms) = true) :
    opensFrom p ns = true := by
  unfold opensFrom at *
  rw [Path.descend, List.foldl_append] at h
  cases hp : (p.descend ns).isTooLong with
  | false => rfl
  | true => rwa [← Path.descend, ← Path.descend, Path.isTooLong_descend ms hp] at h

/-! ### What a walk can visit -/

/-- A list of names leads to a file. -/
inductive HasFile : Folder → List FileName → Prop where
  /-- The first entry is the file. -/
  | here (n : FileName) (content : ByteArray) (rest : Folder) : HasFile (.file n content rest) [n]
  /-- The file lies in the first entry. -/
  | inside {n : FileName} {inner : Folder} {ns : List FileName} (rest : Folder)
      (h : HasFile inner ns) : HasFile (.sub n inner rest) (n :: ns)
  /-- The file lies behind a first entry that is a file. -/
  | afterFile {n : FileName} {content : ByteArray} {rest : Folder} {ns : List FileName}
      (h : HasFile rest ns) : HasFile (.file n content rest) ns
  /-- The file lies behind a first entry that is a folder. -/
  | afterFolder {n : FileName} {inner rest : Folder} {ns : List FileName}
      (h : HasFile rest ns) : HasFile (.sub n inner rest) ns

/-- A list of one name or more leads to a folder. -/
inductive HasFolder : Folder → List FileName → Prop where
  /-- The first entry is the folder. -/
  | here (n : FileName) (inner rest : Folder) : HasFolder (.sub n inner rest) [n]
  /-- The folder lies in the first entry. -/
  | inside {n : FileName} {inner : Folder} {ns : List FileName} (rest : Folder)
      (h : HasFolder inner ns) : HasFolder (.sub n inner rest) (n :: ns)
  /-- The folder lies behind a first entry that is a file. -/
  | afterFile {n : FileName} {content : ByteArray} {rest : Folder} {ns : List FileName}
      (h : HasFolder rest ns) : HasFolder (.file n content rest) ns
  /-- The folder lies behind a first entry that is a folder. -/
  | afterFolder {n : FileName} {inner rest : Folder} {ns : List FileName}
      (h : HasFolder rest ns) : HasFolder (.sub n inner rest) ns

/-- None of the names is to be skipped. -/
def NoneSkipped (skipped : List String) (ns : List FileName) : Prop := ∀ n ∈ ns, n.text ∉ skipped

theorem HasFile.ne_nil {f : Folder} {ns : List FileName} (h : f.HasFile ns) : ns ≠ [] := by
  induction h <;> simp_all

/-- A walk visits the files that are there and lie in no skipped folder. -/
theorem mem_filesOutside_iff {skipped : List String} {f : Folder} {ns : List FileName} :
    ns ∈ f.filesOutside skipped ↔ f.HasFile ns ∧ NoneSkipped skipped ns.dropLast := by
  constructor
  · intro h
    induction f generalizing ns with
    | empty => simp [filesOutside] at h
    | file n c rest ih =>
      rw [filesOutside] at h
      rcases List.mem_cons.1 h with rfl | h
      · exact ⟨.here n c rest, by simp [NoneSkipped]⟩
      · exact ⟨.afterFile (ih h).1, (ih h).2⟩
    | sub n inner rest ihi ihr =>
      rw [filesOutside] at h
      rcases List.mem_append.1 h with h | h
      · split at h
        · simp at h
        · next hn =>
          obtain ⟨ms, hms, rfl⟩ := List.mem_map.1 h
          obtain ⟨hfile, hskip⟩ := ihi hms
          refine ⟨.inside rest hfile, ?_⟩
          rw [List.dropLast_cons_of_ne_nil hfile.ne_nil]
          exact List.forall_mem_cons.2 ⟨hn, hskip⟩
      · exact ⟨.afterFolder (ihr h).1, (ihr h).2⟩
  · rintro ⟨h, hskip⟩
    induction h with
    | here n c rest => exact List.mem_cons_self
    | inside rest h ih =>
      rw [List.dropLast_cons_of_ne_nil h.ne_nil] at hskip
      obtain ⟨hn, hns⟩ := List.forall_mem_cons.1 hskip
      rw [filesOutside, if_neg hn]
      exact List.mem_append_left _ (List.mem_map_of_mem (ih hns))
    | afterFile h ih => exact List.mem_cons_of_mem _ (ih hskip)
    | afterFolder h ih => exact List.mem_append_right _ (ih hskip)

/-- A walk visits the folders that are there and lie in no skipped folder. -/
theorem mem_subfoldersOutside_iff {skipped : List String} {f : Folder} {ns : List FileName} :
    ns ∈ f.subfoldersOutside skipped ↔ f.HasFolder ns ∧ NoneSkipped skipped ns := by
  constructor
  · intro h
    induction f generalizing ns with
    | empty => simp [subfoldersOutside] at h
    | file n c rest ih => exact ⟨.afterFile (ih h).1, (ih h).2⟩
    | sub n inner rest ihi ihr =>
      rw [subfoldersOutside] at h
      rcases List.mem_append.1 h with h | h
      · split at h
        · simp at h
        · next hn =>
          rcases List.mem_cons.1 h with rfl | h
          · exact ⟨.here n inner rest, by simpa [NoneSkipped] using hn⟩
          · obtain ⟨ms, hms, rfl⟩ := List.mem_map.1 h
            exact ⟨.inside rest (ihi hms).1, List.forall_mem_cons.2 ⟨hn, (ihi hms).2⟩⟩
      · exact ⟨.afterFolder (ihr h).1, (ihr h).2⟩
  · rintro ⟨h, hskip⟩
    induction h with
    | here n inner rest =>
      rw [subfoldersOutside, if_neg (hskip n List.mem_cons_self)]
      exact List.mem_append_left _ List.mem_cons_self
    | inside rest h ih =>
      obtain ⟨hn, hns⟩ := List.forall_mem_cons.1 hskip
      rw [subfoldersOutside, if_neg hn]
      exact List.mem_append_left _ (List.mem_cons_of_mem _ (List.mem_map_of_mem (ih hns)))
    | afterFile h ih => exact ih hskip
    | afterFolder h ih => exact List.mem_append_right _ (ih hskip)

/-- A walk visits its start, and the folders that are there and lie in no skipped folder. -/
theorem mem_foldersOutside_iff {skipped : List String} {f : Folder} {ns : List FileName} :
    ns ∈ f.foldersOutside skipped ↔ ns = [] ∨ (f.HasFolder ns ∧ NoneSkipped skipped ns) := by
  rw [foldersOutside, List.mem_cons, mem_subfoldersOutside_iff]

/-- A walk from a path meets the files that it would visit, but for those in closed folders. -/
theorem mem_filesFrom_iff {p : Path} {skipped : List String} {f : Folder} {ns : List FileName} :
    ns ∈ f.filesFrom p skipped ↔
      (f.HasFile ns ∧ NoneSkipped skipped ns.dropLast) ∧ opensFrom p ns.dropLast = true := by
  rw [filesFrom, List.mem_filter, mem_filesOutside_iff]

/-- A walk from a path meets the folders that it would visit, but for those in closed folders. -/
theorem mem_foldersFrom_iff {p : Path} {skipped : List String} {f : Folder} {ns : List FileName} :
    ns ∈ f.foldersFrom p skipped ↔
      (ns = [] ∨ (f.HasFolder ns ∧ NoneSkipped skipped ns)) ∧ opensFrom p ns.dropLast = true := by
  rw [foldersFrom, List.mem_filter, mem_foldersOutside_iff]

end BundleAudit.Folder
