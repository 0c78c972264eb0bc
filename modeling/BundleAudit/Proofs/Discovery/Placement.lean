import BundleAudit.Proofs.Discovery.Exactness
import BundleAudit.Settings.Validate
import Mathlib.Data.List.Basic
import Mathlib.Data.List.Induction

/-!
# Where descriptors lie

A descriptor is known by its path behind the first descriptors folder on the way to it.  The search
for that folder goes through all names of the way, and the last of them is that of the file itself.
So a file that has the name of the descriptors folder counts as a descriptor, although it lies below
no such folder, and its relative path is empty.

## Main definitions

* `FileSystem.LiesBelow fs s root d` — the descriptor lies strictly below a descriptors folder.

## Main results

* `liesBelow_iff_of_mem_files` — what does not lie below a folder has the empty path.
* `files_liesBelow_iff` — the files that make a difference.
* `discover_liesBelow_iff` — **all descriptors lie strictly below a descriptors folder unless a
  descriptor can have the name of the folder**.
-/

namespace BundleAudit

open Folder (NoneSkipped)

variable {fs : FileSystem} {s : Settings} {root : Path} {entries : Folder} {d : Descriptor}
  {names below : List FileName}

/-- A descriptor lies strictly below a descriptors folder.  The names that lead to its file pass
through a folder of that name; those behind it, and there are some, are the parts of its relative
path, and the last of them is its own name. -/
def FileSystem.LiesBelow (fs : FileSystem) (s : Settings) (root : Path) (d : Descriptor) : Prop :=
  ∃ entries front folder below, fs.node root = .ok (.folder entries) ∧
    entries.HasFile (front ++ folder :: below) ∧ entries.HasFolder (front ++ [folder]) ∧
    folder.text = s.descriptorsFolder ∧ d.relativePath ≠ "" ∧
    d.relativePath.toList.splitOn '/' = below.map (fun n => n.text.toList) ∧
    below.getLast?.map FileName.text = some d.name

/-! ### Folders on the way -/

namespace Folder

variable {f : Folder} {ns ms : List FileName}

theorem HasFolder.of_append (h : f.HasFolder (ns ++ ms)) (hns : ns ≠ []) : f.HasFolder ns := by
  induction ms using List.reverseRecOn with
  | nil => rwa [List.append_nil] at h
  | append_singleton ms n ih =>
    rw [← List.append_assoc] at h
    have habove := h.dropLast
    rw [List.dropLast_concat] at habove
    exact ih (habove (List.append_ne_nil_of_left_ne_nil hns ms))

/-- What a file lies in is a folder. -/
theorem HasFile.hasFolder_of_append (h : f.HasFile (ns ++ ms)) (hns : ns ≠ []) (hms : ms ≠ []) :
    f.HasFolder ns := by
  obtain ⟨front, n, rfl⟩ := (List.eq_nil_or_concat' ms).resolve_left hms
  rw [← List.append_assoc] at h
  have habove := h.hasFolder_dropLast
  rw [List.dropLast_concat] at habove
  exact (habove (List.append_ne_nil_of_left_ne_nil hns front)).of_append hns

end Folder

/-! ### One descriptor -/

theorem relativePath_eq_empty_iff {ns : List FileName} : relativePath ns = "" ↔ ns = [] := by
  cases ns with
  | nil => exact iff_of_true rfl rfl
  | cons n ns => exact iff_of_false relativePath_ne_empty (List.cons_ne_nil n ns)

/-- With names behind the descriptors folder the descriptor lies below it. -/
theorem Settings.IsDescriptor.liesBelow (h : s.IsDescriptor names below d)
    (hnode : fs.node root = .ok (.folder entries)) (hfile : entries.HasFile names)
    (hbelow : below ≠ []) : fs.LiesBelow s root d := by
  obtain ⟨front, folder, rfl, hfolder, -⟩ := h.folder
  have hway : entries.HasFile ((front ++ [folder]) ++ below) := by
    rwa [List.append_assoc, List.singleton_append]
  refine ⟨entries, front, folder, below, hnode, hfile,
    hway.hasFolder_of_append (List.concat_ne_nil folder front) hbelow, hfolder, ?_, ?_, ?_⟩
  · rwa [h.path, ne_eq, relativePath_eq_empty_iff]
  · rw [h.path, splitOn_relativePath hbelow]
  · obtain ⟨rest, n, rfl⟩ := (List.eq_nil_or_concat' below).resolve_left hbelow
    rw [h.name_eq, List.getLast?_concat]
    rfl

/-- What is listed lies below a descriptors folder, or it has the name of the folder and the empty
path. -/
theorem liesBelow_iff_of_mem_files (h : d ∈ (discover fs s root).files) :
    (fs.LiesBelow s root d ↔ d.relativePath ≠ "") ∧
      (d.relativePath = "" → d.name = s.descriptorsFolder) := by
  obtain ⟨entries, hnode⟩ := exists_folder_of_mem_files h
  obtain ⟨names, below, hfile, -, -, hd⟩ := (mem_files_discover_iff hnode).1 h
  constructor
  · constructor
    · rintro ⟨-, -, -, -, -, -, -, -, hne, -, -⟩
      exact hne
    · intro hne
      rw [hd.path, ne_eq, relativePath_eq_empty_iff] at hne
      exact hd.liesBelow hnode hfile hne
  · intro hempty
    rw [hd.path, relativePath_eq_empty_iff] at hempty
    rw [hd.name_eq, hempty]
    rfl

/-! ### All descriptors -/

/-- The files that make a difference are those that are found, have the extension and are the first
on the way to themselves with the name of the descriptors folder. -/
theorem files_liesBelow_iff (hnode : fs.node root = .ok (.folder entries)) :
    (∀ d ∈ (discover fs s root).files, fs.LiesBelow s root d) ↔
      ∀ front n, entries.HasFile (front ++ [n]) → NoneSkipped s.skippedFolders front →
        (root.descend front).isTooLong = false → n.text = s.descriptorsFolder →
        s.descriptorExtension.toList <:+ n.text.toList →
          ∃ m ∈ front, m.text = s.descriptorsFolder := by
  constructor
  · intro h front n hfile hskip hopens hn hextension
    by_contra hfirst
    push Not at hfirst
    have hd : s.IsDescriptor (front ++ [n]) []
        ⟨n.text, "", s.excludes (relativePath [])⟩ :=
      ⟨⟨front, n, rfl, hn, hfirst⟩, ⟨n, List.getLast?_concat, hextension, rfl⟩, rfl,
        Settings.excludes_iff⟩
    have hmem : _ ∈ (discover fs s root).files := (mem_files_discover_iff hnode).2
      ⟨front ++ [n], [], hfile, by rwa [List.dropLast_concat], by rwa [List.dropLast_concat], hd⟩
    exact (liesBelow_iff_of_mem_files hmem).1.1 (h _ hmem) rfl
  · intro h d hmem
    obtain ⟨names, below, hfile, hskip, hopens, hd⟩ := (mem_files_discover_iff hnode).1 hmem
    refine hd.liesBelow hnode hfile ?_
    rintro rfl
    obtain ⟨front, n, rfl, hn, hfirst⟩ := hd.folder
    obtain ⟨last, hlast, hextension, -⟩ := hd.file
    rw [List.getLast?_concat, Option.some.injEq] at hlast
    subst hlast
    rw [List.dropLast_concat] at hskip hopens
    obtain ⟨m, hm, hfolder⟩ := h front n hfile hskip hopens hn hextension
    exact hfirst m hm hfolder

theorem FileSystem.node_root (fs : FileSystem) : fs.node ⟨"/"⟩ = .ok (.folder fs.root) := by
  have hsegments : Path.segments ⟨"/"⟩ = [.stay, .stay] := by decide +kernel
  have habsolute : Path.isAbsolute ⟨"/"⟩ = true := by decide
  have hcheck : FileSystem.checkPath ⟨"/"⟩ = .ok () :=
    FileSystem.checkPath_eq_ok_iff.2 (by decide +kernel)
  refine node_eq_ok_iff.2 ⟨[], resolve_eq_ok_iff.2 ⟨hcheck, ?_⟩, rfl⟩
  rw [follow, start, habsolute, if_pos rfl, hsegments]
  rfl

/-- A file with the name of the folder does not lie below one if there is nothing else. -/
theorem not_liesBelow_alone {n : FileName} (hn : n.text = s.descriptorsFolder)
    (hextension : s.descriptorExtension.toList <:+ n.text.toList) :
    ¬ ∀ d ∈ (discover ((FileSystem.emptyAt []).putFile [n] ByteArray.empty) s ⟨"/"⟩).files,
      ((FileSystem.emptyAt []).putFile [n] ByteArray.empty).LiesBelow s ⟨"/"⟩ d := by
  rw [files_liesBelow_iff (FileSystem.node_root _)]
  intro h
  have hfile : ((FileSystem.emptyAt []).putFile [n] ByteArray.empty).root.HasFile ([] ++ [n]) :=
    .here n ByteArray.empty .empty
  obtain ⟨m, hm, -⟩ := h [] n hfile (fun m hm => absurd hm List.not_mem_nil)
    (by decide +kernel) hn hextension
  exact absurd hm List.not_mem_nil

/-- **Where descriptors lie.**  Settings list nothing but files strictly below a descriptors folder
exactly if no file can have both the name of the folder and the extension of descriptors.  In one
bundle it matters whether there is such a file outside all descriptors folders.  Whatever does not
lie below a folder has the name of the folder and the empty path, so at most one such file is
listed. -/
theorem discover_liesBelow_iff (s : Settings) :
    ((∀ fs root, ∀ d ∈ (discover fs s root).files, fs.LiesBelow s root d) ↔
      ¬ ∃ n : FileName, n.text = s.descriptorsFolder ∧
        s.descriptorExtension.toList <:+ n.text.toList) ∧
    (∀ fs root entries, fs.node root = .ok (.folder entries) →
      ((∀ d ∈ (discover fs s root).files, fs.LiesBelow s root d) ↔
        ∀ front n, entries.HasFile (front ++ [n]) → NoneSkipped s.skippedFolders front →
          (root.descend front).isTooLong = false → n.text = s.descriptorsFolder →
          s.descriptorExtension.toList <:+ n.text.toList →
            ∃ m ∈ front, m.text = s.descriptorsFolder)) ∧
    ∀ fs root, ∀ d ∈ (discover fs s root).files,
      fs.LiesBelow s root d ∨ d.relativePath = "" ∧ d.name = s.descriptorsFolder := by
  refine ⟨⟨?_, ?_⟩, fun fs root entries hnode => files_liesBelow_iff hnode, ?_⟩
  · rintro h ⟨n, hn, hextension⟩
    exact not_liesBelow_alone hn hextension (h _ ⟨"/"⟩)
  · intro h fs root d hd
    obtain ⟨entries, hnode⟩ := exists_folder_of_mem_files hd
    refine (files_liesBelow_iff hnode).2 ?_ d hd
    intro front n _ _ _ hn hextension
    exact absurd ⟨n, hn, hextension⟩ h
  · intro fs root d hd
    obtain ⟨hbelow, hname⟩ := liesBelow_iff_of_mem_files hd
    by_cases hpath : d.relativePath = ""
    · exact Or.inr ⟨hpath, hname hpath⟩
    · exact Or.inl (hbelow.2 hpath)

/-- Settings are accepted under which a file is itself the descriptors folder that it lies below. -/
theorem not_liesBelow_itself :
    let fs := (FileSystem.emptyAt []).putFile [⟨"m", by decide⟩, ⟨"a.xml", by decide⟩]
      ByteArray.empty
    let s : Settings := { descriptorsFolder := "a.xml" }
    s.fault? = none ∧ (discover fs s ⟨"m"⟩).files = [⟨"a.xml", "", false⟩] ∧
      ¬ ∀ d ∈ (discover fs s ⟨"m"⟩).files, fs.LiesBelow s ⟨"m"⟩ d := by
  intro fs s
  have hfiles : (discover fs s ⟨"m"⟩).files = [⟨"a.xml", "", false⟩] := by decide +kernel
  refine ⟨by decide +kernel, hfiles, fun h => ?_⟩
  have hmem : (⟨"a.xml", "", false⟩ : Descriptor) ∈ (discover fs s ⟨"m"⟩).files := by
    rw [hfiles]
    exact List.mem_cons_self
  exact (liesBelow_iff_of_mem_files hmem).1.1 (h _ hmem) rfl

end BundleAudit
