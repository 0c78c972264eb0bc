import BundleAudit.Proofs.Files.Extension

/-!
# Removing a file

Removing a file takes away what stands at its place and nothing else.  Folders above the place have
an entry less, but they are still there, and so is every other file with its bytes.  So a path that
denotes a folder denotes it afterwards too, since only folders are passed on the way to a folder.

The laws compare what stands at a place up to the entries of a folder: nothing, a folder, or a file
with certain bytes.

## Main results

* `Folder.nodeAt?_eraseAt_self`, `Folder.nodeAt?_eraseAt_of_not_prefix` — a removal, seen from every
  place.
* `FileSystem.nodeAt?_remove_eq_file_iff`, `FileSystem.exists_folder_remove_iff` — the files and
  folders that are left.
* `FileSystem.remove_extends` — putting the file back would be an extension.
* `FileSystem.node_folder_remove` — a folder has lost the file and nothing else.
-/

namespace BundleAudit

namespace Folder

variable {f g inner : Folder} {n m : FileName} {ns ms : List FileName}

/-! ### One entry -/

theorem find?_erase_self (f : Folder) (n : FileName) : (f.erase n).find? n = none := by
  induction f with
  | empty => rfl
  | file k c rest ih =>
    by_cases hk : k = n
    · rw [erase, if_pos hk, ih]
    · rw [erase, if_neg hk, find?, if_neg hk, ih]
  | sub k entries rest _ ih =>
    by_cases hk : k = n
    · rw [erase, if_pos hk, ih]
    · rw [erase, if_neg hk, find?, if_neg hk, ih]

theorem find?_erase_of_ne (h : n ≠ m) (f : Folder) : (f.erase n).find? m = f.find? m := by
  induction f with
  | empty => rfl
  | file k c rest ih =>
    by_cases hk : k = n
    · rw [erase, if_pos hk, find?, if_neg (hk ▸ h), ih]
    · rw [erase, if_neg hk, find?, find?, ih]
  | sub k entries rest _ ih =>
    by_cases hk : k = n
    · rw [erase, if_pos hk, find?, if_neg (hk ▸ h), ih]
    · rw [erase, if_neg hk, find?, find?, ih]

/-- What stands behind a name depends on what the name stands for. -/
theorem nodeAt?_congr (h : f.find? n = g.find? n) : f.nodeAt? (n :: ns) = g.nodeAt? (n :: ns) := by
  cases ns with
  | nil => exact h
  | cons k ns => rw [nodeAt?_cons_cons, nodeAt?_cons_cons, h]

/-! ### Along a list of names -/

/-- Behind a name something is removed if the name stands for a folder. -/
theorem eraseAt_cons_cases (hns : ns ≠ []) :
    (∃ inner, f.find? n = some (.folder inner) ∧
        f.eraseAt (n :: ns) = f.set n (.folder (inner.eraseAt ns))) ∨
      ((f.find? n).bind Node.entries? = none ∧ f.eraseAt (n :: ns) = f) := by
  cases ns with
  | nil => exact absurd rfl hns
  | cons m ns =>
    cases hn : f.find? n with
    | none => exact Or.inr ⟨rfl, by simp [eraseAt, hn]⟩
    | some node =>
      cases node with
      | file content => exact Or.inr ⟨rfl, by simp [eraseAt, hn]⟩
      | folder inner => exact Or.inl ⟨inner, rfl, by simp [eraseAt, hn]⟩

/-- At the place itself nothing is left. -/
theorem nodeAt?_eraseAt_self (h : ns ≠ []) : (f.eraseAt ns).nodeAt? ns = none := by
  induction ns generalizing f with
  | nil => exact absurd rfl h
  | cons n ns ih =>
    by_cases hns : ns = []
    · subst hns
      exact find?_erase_self f n
    · rw [nodeAt?_cons_of_ne_nil hns]
      rcases eraseAt_cons_cases (f := f) (n := n) hns with ⟨inner, -, herase⟩ | ⟨hn, herase⟩
      · rw [herase, find?_set_self]
        exact ih hns
      · rw [herase, hn, Option.bind_none]

/-- Every place that is neither there nor behind has what it had, but for the entries of a
folder. -/
theorem nodeAt?_eraseAt_of_not_prefix (h : ¬ ns <+: ms) :
    ((f.eraseAt ns).nodeAt? ms).map Node.content? = (f.nodeAt? ms).map Node.content? := by
  induction ns generalizing f ms with
  | nil => exact absurd List.nil_prefix h
  | cons n ns ih =>
    cases ms with
    | nil => rfl
    | cons m ms =>
      by_cases hns : ns = []
      · subst hns
        have hne : n ≠ m := fun heq => h (heq ▸ List.cons_prefix_cons.2 ⟨rfl, List.nil_prefix⟩)
        rw [eraseAt, nodeAt?_congr (find?_erase_of_ne hne f)]
      · rcases eraseAt_cons_cases (f := f) (n := n) hns with ⟨inner, hn, herase⟩ | ⟨-, herase⟩
        · rw [herase]
          by_cases hne : n = m
          · subst hne
            -- the name stands for a folder before and after, and the removal goes on in it
            by_cases hms : ms = []
            · subst hms
              rw [nodeAt?_singleton, nodeAt?_singleton, find?_set_self, hn]
              rfl
            · rw [nodeAt?_cons_of_ne_nil hms, nodeAt?_cons_of_ne_nil hms, find?_set_self, hn]
              exact ih fun hprefix => h (List.cons_prefix_cons.2 ⟨rfl, hprefix⟩)
          · rw [nodeAt?_congr (find?_set_of_ne hne f _)]
        · rw [herase]

end Folder

/-- Only a file has bytes. -/
theorem map_content?_eq_some_some_iff {node? : Option Node} {content : ByteArray} :
    node?.map Node.content? = some (some content) ↔ node? = some (.file content) := by
  cases node? with
  | none => simp
  | some node => cases node <;> simp [Node.content?]

theorem map_content?_eq_some_none_iff {node? : Option Node} :
    node?.map Node.content? = some none ↔ ∃ entries, node? = some (.folder entries) := by
  cases node? with
  | none => simp
  | some node => cases node <;> simp [Node.content?]

namespace FileSystem

variable {fs : FileSystem} {place target top : List FileName} {content c : ByteArray} {p : Path}
  {entries : Folder}

/-! ### Files and folders that are left -/

section

variable (h : fs.root.nodeAt? place = some (.file content))

include h

theorem ne_nil_of_file : place ≠ [] := by
  rintro rfl
  cases h

theorem nodeAt?_remove_self : (fs.remove place).root.nodeAt? place = none :=
  Folder.nodeAt?_eraseAt_self (ne_nil_of_file h)

/-- Everywhere else there is what was there, but for the entries of a folder. -/
theorem nodeAt?_remove_of_ne (hne : target ≠ place) :
    ((fs.remove place).root.nodeAt? target).map Node.content? =
      (fs.root.nodeAt? target).map Node.content? := by
  by_cases hprefix : place <+: target
  · -- nothing lies behind a file, nor behind nothing
    obtain ⟨below, rfl⟩ := hprefix
    have hbelow : below ≠ [] := fun hnil => hne (by rw [hnil, List.append_nil])
    rw [Folder.nodeAt?_append hbelow, Folder.nodeAt?_append hbelow, nodeAt?_remove_self h, h]
    rfl
  · exact Folder.nodeAt?_eraseAt_of_not_prefix hprefix

theorem nodeAt?_remove_eq_file_iff :
    (fs.remove place).root.nodeAt? target = some (.file c) ↔
      fs.root.nodeAt? target = some (.file c) ∧ target ≠ place := by
  by_cases hne : target = place
  · subst hne
    simp [nodeAt?_remove_self h]
  · rw [← map_content?_eq_some_some_iff, nodeAt?_remove_of_ne h hne, map_content?_eq_some_some_iff,
      and_iff_left hne]

theorem exists_folder_remove_iff :
    (∃ entries, (fs.remove place).root.nodeAt? target = some (.folder entries)) ↔
      ∃ entries, fs.root.nodeAt? target = some (.folder entries) := by
  by_cases hne : target = place
  · subst hne
    simp [nodeAt?_remove_self h, h]
  · rw [← map_content?_eq_some_none_iff, nodeAt?_remove_of_ne h hne, map_content?_eq_some_none_iff]

/-- Putting the file back would be an extension. -/
theorem remove_extends : (fs.remove place).Extends fs where
  here := rfl
  folder hfolder := (exists_folder_remove_iff h).1 ⟨_, hfolder⟩
  file hfile := ((nodeAt?_remove_eq_file_iff h).1 hfile).1

/-! ### Folders that have an entry less -/

/-- A folder has all files that it had but the one that is removed. -/
theorem hasFile_remove_iff {entries' : Folder} {ns : List FileName}
    (hfolder : fs.root.nodeAt? top = some (.folder entries))
    (hfolder' : (fs.remove place).root.nodeAt? top = some (.folder entries')) :
    entries'.HasFile ns ↔ entries.HasFile ns ∧ top ++ ns ≠ place := by
  rw [hasFile_iff_nodeAt?_root hfolder, hasFile_iff_nodeAt?_root hfolder', and_assoc]
  simp only [nodeAt?_remove_eq_file_iff h, exists_and_right]

/-- A folder has all folders that it had. -/
theorem hasFolder_remove_iff {entries' : Folder} {ns : List FileName}
    (hfolder : fs.root.nodeAt? top = some (.folder entries))
    (hfolder' : (fs.remove place).root.nodeAt? top = some (.folder entries')) :
    entries'.HasFolder ns ↔ entries.HasFolder ns := by
  rw [hasFolder_iff_nodeAt?_root hfolder, hasFolder_iff_nodeAt?_root hfolder',
    exists_folder_remove_iff h]

/-! ### Paths -/

/-- The file that a path denotes is gone. -/
theorem isFile_remove (hp : fs.resolve p = .ok place) : (fs.remove place).isFile p = false := by
  rw [isFile]
  cases hnode : (fs.remove place).node p with
  | error e => rfl
  | ok node =>
    obtain ⟨place', hplace', hfound⟩ := node_eq_ok_iff.1 hnode
    -- the path leads where it led, where nothing is left
    have hsame := (remove_extends h).keeps.resolve hplace'
    rw [hp] at hsame
    cases hsame
    rw [nodeAt?_remove_self h] at hfound
    cases hfound

/-- On the way to a folder there are folders only. -/
theorem foldlM_enter_remove {segments : List Segment} {start : List FileName}
    (hfollow : segments.foldlM (enter fs.root) start = .ok top)
    (htop : ∃ entries, fs.root.nodeAt? top = some (.folder entries)) :
    (∃ entries, fs.root.nodeAt? start = some (.folder entries)) ∧
      segments.foldlM (enter (fs.remove place).root) start = .ok top := by
  induction segments generalizing start with
  | nil =>
    cases hfollow
    exact ⟨htop, rfl⟩
  | cons segment segments ih =>
    rw [List.foldlM_cons, bind_eq_ok_iff] at hfollow ⊢
    obtain ⟨next, henter, hrest⟩ := hfollow
    obtain ⟨hnext, hrest⟩ := ih hrest
    obtain ⟨hstart, hsegment⟩ := enter_eq_ok_iff.1 henter
    refine ⟨hstart, next, enter_eq_ok_iff.2 ⟨(exists_folder_remove_iff h).2 hstart, ?_⟩, hrest⟩
    refine hsegment.imp_right (Or.imp_right ?_)
    rintro ⟨n, node, hn, -, rfl⟩
    obtain ⟨entries, hentries⟩ := (exists_folder_remove_iff h).2 hnext
    exact ⟨n, _, hn, hentries, rfl⟩

/-- Paths to folders lead where they led. -/
theorem resolve_remove (hp : fs.resolve p = .ok top)
    (htop : ∃ entries, fs.root.nodeAt? top = some (.folder entries)) :
    (fs.remove place).resolve p = .ok top := by
  obtain ⟨hcheck, hfollow⟩ := resolve_eq_ok_iff.1 hp
  exact resolve_eq_ok_iff.2 ⟨hcheck, (foldlM_enter_remove h hfollow htop).2⟩

/-- A folder that a path denotes has lost the file and nothing else. -/
theorem node_folder_remove (hp : fs.resolve p = .ok top)
    (hfolder : fs.root.nodeAt? top = some (.folder entries)) :
    ∃ entries', (fs.remove place).node p = .ok (.folder entries') ∧
      (∀ ns, entries'.HasFile ns ↔ entries.HasFile ns ∧ top ++ ns ≠ place) ∧
      ∀ ns, entries'.HasFolder ns ↔ entries.HasFolder ns := by
  obtain ⟨entries', hfolder'⟩ := (exists_folder_remove_iff h).2 ⟨entries, hfolder⟩
  have hp' := resolve_remove h hp ⟨entries, hfolder⟩
  exact ⟨entries', node_eq_ok_iff.2 ⟨top, hp', hfolder'⟩,
    fun ns => hasFile_remove_iff h hfolder hfolder',
    fun ns => hasFolder_remove_iff h hfolder hfolder'⟩

end

end FileSystem

end BundleAudit
