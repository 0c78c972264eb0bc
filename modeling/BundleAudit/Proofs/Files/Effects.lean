import BundleAudit.Proofs.Files.LongPaths
import BundleAudit.Proofs.Files.Removal
import BundleAudit.Proofs.Files.Writing
import Mathlib.Data.List.TakeWhile

/-!
# What a change leaves alone

Making a folder adds that folder, and writing a file changes what stands at one place.  Every other
place has what it had: nothing, a folder, or a file with the same bytes.  Only the entries of the
folders above have changed.

Folders that are made with those above them that are missing are folders that these paths denote
afterwards.

## Main definitions

* `FileSystem.SameAt fs fs' place` — the same stands at a place, but for the entries of a folder.
* `FileSystem.AddsFolders ps fs fs'` — nothing but folders at some of the paths has been added.

## Main results

* `Folder.map_content?_alterAt` — a change of an entry, seen from every other place.
* `FileSystem.addsFolders_makeFoldersUnder` — **making folders adds folders only**, even if it
  fails.
* `FileSystem.sameAt_of_write` — **writing a file changes one place**.
-/

namespace BundleAudit

/-- Nothing lies in a node. -/
def Node.IsLeaf : Node → Prop
  | .file _ => True
  | .folder entries => entries = .empty

/-! ### One change -/

namespace Folder

variable {f entries : Folder} {change : Option Node → Node} {n : FileName}
  {place target below : List FileName} {node : Node}

theorem nodeAt?_empty (h : below ≠ []) : empty.nodeAt? below = none := by
  obtain ⟨m, ms, rfl⟩ := List.exists_cons_of_ne_nil h
  cases ms with
  | nil => rfl
  | cons k ms =>
    rw [nodeAt?_cons_cons]
    rfl

theorem nodeAt?_below_leaf (hnode : f.nodeAt? place = some node) (hleaf : node.IsLeaf)
    (h : below ≠ []) : f.nodeAt? (place ++ below) = none := by
  rw [nodeAt?_append h, hnode]
  cases node with
  | file c => rfl
  | folder inner =>
    have hempty : inner = .empty := hleaf
    rw [hempty]
    exact nodeAt?_empty h

/-- If an entry that is no folder is changed into something that nothing lies in, every other place
has what it had, but for the entries of a folder. -/
theorem map_content?_alterAt (hplace : f.nodeAt? place = some (.folder entries))
    (hold : ∀ inner, entries.find? n ≠ some (.folder inner))
    (hleaf : (change (entries.find? n)).IsLeaf) (hne : target ≠ place ++ [n]) :
    ((alterAt change f (place ++ [n])).nodeAt? target).map Node.content? =
      (f.nodeAt? target).map Node.content? := by
  have hfind : f.nodeAt? (place ++ [n]) = entries.find? n := nodeAt?_concat hplace
  by_cases habove : target <+: place ++ [n]
  · -- a folder before and after
    obtain ⟨below, hbelow⟩ := habove
    have hne' : below ≠ [] := fun hnil => hne (by rw [← hbelow, hnil, List.append_nil])
    obtain ⟨inner, hinner⟩ := exists_folder_above hplace hne' hbelow
    obtain ⟨inner', hinner'⟩ : ∃ inner', (alterAt change f (target ++ below)).nodeAt? target =
        some (.folder inner') := nodeAt?_alterAt_above hne'
    rw [← hbelow, hinner, hinner']
    rfl
  by_cases hbelow : place ++ [n] <+: target
  · -- nothing before and after
    obtain ⟨below, rfl⟩ := hbelow
    have hne' : below ≠ [] := fun hnil => hne (by rw [hnil, List.append_nil])
    have hself : (alterAt change f (place ++ [n])).nodeAt? (place ++ [n]) =
        some (change (entries.find? n)) := by
      rw [nodeAt?_alterAt_self (List.concat_ne_nil n place), hfind]
    rw [nodeAt?_below_leaf hself hleaf hne', nodeAt?_append hne', hfind]
    cases hnode : entries.find? n with
    | none => rfl
    | some node =>
      cases node with
      | file c => rfl
      | folder inner => exact absurd hnode (hold inner)
  · rw [nodeAt?_alterAt_of_beside hbelow habove]

end Folder

/-! ### Paths of folders -/

namespace Path

variable {p : Path} {front : List Segment} {last : Segment}

/-- The paths of the folder that a path lies in and of those above it. -/
def parents (p : Path) : List Path :=
  match p.parent? with
  | none => []
  | some folder => folder :: folder.above

/-- Behind the last segment of a path there are slashes at most. -/
theorem segments_of_lastSegment? (h : p.lastSegment? = some (front, last)) :
    ∃ k, p.segments = front ++ last :: List.replicate k .stay := by
  rw [lastSegment?] at h
  split at h
  · cases h
  · next part rest hdrop =>
    obtain ⟨rfl, rfl⟩ := Prod.mk.inj (Option.some.inj h)
    obtain ⟨k, hk⟩ : ∃ k, p.parts.reverse.takeWhile (· = []) = List.replicate k [] := by
      refine ⟨_, List.eq_replicate_of_mem fun cs hcs => ?_⟩
      have hmem := List.mem_takeWhile_imp hcs
      exact of_decide_eq_true hmem
    have hsplit : List.replicate k [] ++ part :: rest = p.parts.reverse := by
      rw [← hdrop, ← hk]
      exact List.takeWhile_append_dropWhile
    have hparts : p.parts = rest.reverse ++ part :: List.replicate k [] := by
      rw [← List.reverse_reverse p.parts, ← hsplit, List.reverse_append, List.reverse_cons,
        List.reverse_replicate, List.append_assoc, List.singleton_append]
    have hpoint : Segment.ofText (String.ofList []) = .stay := by decide
    refine ⟨k, ?_⟩
    rw [segments, hparts, List.map_append, List.map_cons, List.map_replicate, hpoint]

end Path

namespace FileSystem

variable {fs fs' fs'' : FileSystem} {p q : Path} {ps qs : List Path}
  {place target : List FileName} {content : ByteArray}

/-- The same stands at a place in two file systems, but for the entries of a folder. -/
def SameAt (fs fs' : FileSystem) (place : List FileName) : Prop :=
  (fs'.root.nodeAt? place).map Node.content? = (fs.root.nodeAt? place).map Node.content?

/-- Nothing but folders has been added, and paths from a list denote them. -/
structure AddsFolders (ps : List Path) (fs fs' : FileSystem) : Prop where
  here : fs'.here = fs.here
  place (place : List FileName) : fs.SameAt fs' place ∨
    (fs.root.nodeAt? place = none ∧
      (∃ entries, fs'.root.nodeAt? place = some (.folder entries)) ∧
      ∃ p ∈ ps, fs'.resolve p = .ok place)

theorem SameAt.exists_folder_iff (h : fs.SameAt fs' place) :
    (∃ entries, fs'.root.nodeAt? place = some (.folder entries)) ↔
      ∃ entries, fs.root.nodeAt? place = some (.folder entries) := by
  rw [← map_content?_eq_some_none_iff, h, map_content?_eq_some_none_iff]

theorem SameAt.file_iff (h : fs.SameAt fs' place) :
    fs'.root.nodeAt? place = some (.file content) ↔
      fs.root.nodeAt? place = some (.file content) := by
  rw [← map_content?_eq_some_some_iff, h, map_content?_eq_some_some_iff]

theorem SameAt.none_iff (h : fs.SameAt fs' place) :
    fs'.root.nodeAt? place = none ↔ fs.root.nodeAt? place = none := by
  rw [← Option.map_eq_none_iff, h, Option.map_eq_none_iff]

namespace AddsFolders

theorem refl (ps : List Path) (fs : FileSystem) : AddsFolders ps fs fs :=
  ⟨rfl, fun _ => Or.inl rfl⟩

theorem mono (h : AddsFolders ps fs fs') (hsubset : ps ⊆ qs) : AddsFolders qs fs fs' := by
  refine ⟨h.here, fun place => (h.place place).imp_right ?_⟩
  rintro ⟨hnone, hfolder, p, hp, hresolve⟩
  exact ⟨hnone, hfolder, p, hsubset hp, hresolve⟩

theorem keeps (h : AddsFolders ps fs fs') : fs.Keeps fs' where
  here := h.here
  folder {place entries} hentries := by
    rcases h.place place with hsame | ⟨hnone, -, -⟩
    · exact hsame.exists_folder_iff.2 ⟨entries, hentries⟩
    · rw [hnone] at hentries
      cases hentries
  file {place content} hfile := by
    rcases h.place place with hsame | ⟨hnone, -, -⟩
    · exact ⟨content, hsame.file_iff.2 hfile⟩
    · rw [hnone] at hfile
      cases hfile

theorem trans (h : AddsFolders ps fs fs') (h' : AddsFolders ps fs' fs'') :
    AddsFolders ps fs fs'' := by
  refine ⟨h'.here.trans h.here, fun place => ?_⟩
  rcases h.place place with hsame | ⟨hnone, hfolder, p, hp, hresolve⟩
  · rcases h'.place place with hsame' | ⟨hnone', hnew⟩
    · exact Or.inl (hsame'.trans hsame)
    · exact Or.inr ⟨hsame.none_iff.1 hnone', hnew⟩
  · obtain ⟨entries, hentries⟩ := hfolder
    exact Or.inr ⟨hnone, h'.keeps.folder hentries, p, hp, h'.keeps.resolve hresolve⟩

end AddsFolders

/-! ### Making folders -/

section

variable {entries : Folder} {n : FileName}
  (hplace : fs.root.nodeAt? place = some (.folder entries)) (hnone : entries.find? n = none)

include hplace hnone

theorem nodeAt?_putFolder_self :
    (fs.putFolder (place ++ [n])).root.nodeAt? (place ++ [n]) = some (.folder .empty) := by
  rw [putFolder, Folder.nodeAt?_alterAt_self (List.concat_ne_nil n place),
    Folder.nodeAt?_concat hplace, hnone]
  rfl

theorem sameAt_putFolder (hne : target ≠ place ++ [n]) :
    fs.SameAt (fs.putFolder (place ++ [n])) target := by
  refine Folder.map_content?_alterAt hplace (fun inner hinner => ?_) ?_ hne
  · rw [hnone] at hinner
    cases hinner
  · rw [hnone]
    rfl

theorem keeps_putFolder : fs.Keeps (fs.putFolder (place ++ [n])) := by
  have hne : ∀ {target node}, fs.root.nodeAt? target = some node → target ≠ place ++ [n] := by
    rintro target node hnode rfl
    rw [Folder.nodeAt?_concat hplace, hnone] at hnode
    cases hnode
  refine ⟨rfl, fun {target inner} hinner => ?_, fun {target content} hfile => ?_⟩
  · exact (sameAt_putFolder hplace hnone (hne hinner)).exists_folder_iff.2 ⟨inner, hinner⟩
  · exact ⟨content, (sameAt_putFolder hplace hnone (hne hfile)).file_iff.2 hfile⟩

end

/-- A folder is made in the folder above the last name of its path, where nothing has that name. -/
theorem exists_of_makeFolder_eq_ok (h : fs.makeFolder p = .ok fs') :
    ∃ place n entries, checkPath p = .ok () ∧
      (∃ front k, p.segments = front ++ .name n :: List.replicate k .stay ∧
        fs.follow p front = .ok place) ∧
      fs.root.nodeAt? place = some (.folder entries) ∧ entries.find? n = none ∧
      fs' = fs.putFolder (place ++ [n]) := by
  rw [makeFolder, bind_eq_ok_iff] at h
  obtain ⟨⟨place, entries, last⟩, henclosing, hput⟩ := h
  obtain ⟨hcheck, front, hlast, hfollow, hplace⟩ := exists_of_enclosing_eq_ok henclosing
  obtain ⟨k, hsegments⟩ := Path.segments_of_lastSegment? hlast
  cases last with
  | stay => cases hput
  | up => cases hput
  | overlong => cases hput
  | name n =>
    dsimp only at hput
    split at hput
    · cases hput
    · next hfree =>
      cases hput
      exact ⟨place, n, entries, hcheck, ⟨front, k, hsegments, hfollow⟩, hplace,
        by simpa using hfree, rfl⟩

/-- A new folder is where its path leads. -/
theorem addsFolders_of_makeFolder (h : fs.makeFolder p = .ok fs') : AddsFolders [p] fs fs' := by
  obtain ⟨place, n, entries, hcheck, ⟨front, k, hsegments, hfollow⟩, hplace, hnone, rfl⟩ :=
    exists_of_makeFolder_eq_ok h
  have hkeeps := keeps_putFolder hplace hnone
  have hself := nodeAt?_putFolder_self hplace hnone
  have hresolve : (fs.putFolder (place ++ [n])).resolve p = .ok (place ++ [n]) := by
    obtain ⟨entries', hentries'⟩ := hkeeps.folder hplace
    have hstay := foldlM_enter_stay (k := k) [] hself
    rw [List.append_nil] at hstay
    exact resolve_of_segments hcheck hsegments (hkeeps.follow hfollow) hentries' hself hstay
  refine ⟨rfl, fun target => ?_⟩
  by_cases htarget : target = place ++ [n]
  · subst htarget
    exact Or.inr ⟨(Folder.nodeAt?_concat hplace).trans hnone, ⟨_, hself⟩, p,
      List.mem_singleton_self p, hresolve⟩
  · exact Or.inl (sameAt_putFolder hplace hnone htarget)

theorem addsFolders_of_ensureFolder (ps : List Path) (h : fs.ensureFolder p = .ok fs') :
    AddsFolders (p :: ps) fs fs' := by
  rw [ensureFolder] at h
  split at h
  · next fs₁ hmake =>
    cases h
    refine (addsFolders_of_makeFolder hmake).mono fun q hq => ?_
    rw [List.mem_singleton.1 hq]
    exact List.mem_cons_self
  · split at h
    · cases h
      exact .refl _ fs
    · cases h

/-- **Making folders adds folders only**, even if it fails. -/
theorem addsFolders_makeFoldersUnder (p : Path) (above : List Path) (fs : FileSystem) :
    AddsFolders (p :: above) fs (makeFoldersUnder p above fs).1 := by
  induction above generalizing fs p with
  | nil =>
    unfold makeFoldersUnder
    split
    · exact .refl _ fs
    · split
      · next hensure => exact addsFolders_of_ensureFolder [] hensure
      · next heq => cases heq
      · exact .refl _ fs
  | cons q above ih =>
    unfold makeFoldersUnder
    split
    · exact .refl _ fs
    · split
      · next hensure => exact addsFolders_of_ensureFolder _ hensure
      · next heq =>
        cases heq
        -- what has been made of the folders above stays, whatever comes then
        have habove : AddsFolders (p :: q :: above) fs (makeFoldersUnder q above fs).1 :=
          (ih q fs).mono (List.subset_cons_self p _)
        split
        · next fs₁ e hmake =>
          rw [hmake] at habove
          exact habove
        · next fs₁ hmake =>
          rw [hmake] at habove
          split
          · next hensure => exact habove.trans (addsFolders_of_ensureFolder _ hensure)
          · exact habove
      · exact .refl _ fs

/-! ### Writing a file -/

/-- **Writing a file changes one place**, where no folder stands. -/
theorem sameAt_of_write (h : fs.write p content = .ok fs') :
    ∃ place, fs'.resolve p = .ok place ∧ fs'.root.nodeAt? place = some (.file content) ∧
      (∀ entries, fs.root.nodeAt? place ≠ some (.folder entries)) ∧ fs.Keeps fs' ∧
      ∀ target, target ≠ place → fs.SameAt fs' target := by
  obtain ⟨place, n, entries, hplace, hfree, rfl, hkeeps, hresolve⟩ := resolve_of_write_eq_ok h
  refine ⟨place ++ [n], hresolve, nodeAt?_putFile_self (List.concat_ne_nil n place),
    fun inner hinner => ?_, hkeeps,
    fun target htarget => Folder.map_content?_alterAt hplace hfree trivial htarget⟩
  rw [Folder.nodeAt?_concat hplace] at hinner
  exact hfree inner hinner

/-- Nothing has been changed but a file, and folders above its path that were missing. -/
structure WritesFile (p : Path) (content : ByteArray) (fs fs' : FileSystem) : Prop where
  here : fs'.here = fs.here
  place : ∃ place, fs'.resolve p = .ok place ∧
    fs'.root.nodeAt? place = some (.file content) ∧
    (∀ entries, fs.root.nodeAt? place ≠ some (.folder entries)) ∧
    ∀ target, target ≠ place → fs.SameAt fs' target ∨
      (fs.root.nodeAt? target = none ∧
        (∃ entries, fs'.root.nodeAt? target = some (.folder entries)) ∧
        ∃ q ∈ p.parents, fs'.resolve q = .ok target)

theorem WritesFile.read (h : WritesFile p content fs fs') : fs'.read p = .ok content := by
  obtain ⟨place, hresolve, hself, -⟩ := h.place
  exact read_eq_ok_iff.2 (node_eq_ok_iff.2 ⟨place, hresolve, hself⟩)

/-- A file is written after folders have been made. -/
theorem writesFile_of_write (hfolders : AddsFolders p.parents fs fs')
    (h : fs'.write p content = .ok fs'') : WritesFile p content fs fs'' := by
  obtain ⟨place, hresolve, hself, hfree, hkeeps, hsame⟩ := sameAt_of_write h
  refine ⟨hkeeps.here.trans hfolders.here, place, hresolve, hself, ?_, ?_⟩
  · intro entries hentries
    obtain ⟨entries', hentries'⟩ := hfolders.keeps.folder hentries
    exact hfree entries' hentries'
  · intro target htarget
    rcases hfolders.place target with hbefore | ⟨hnone, ⟨entries, hentries⟩, q, hq, hq'⟩
    · exact Or.inl ((hsame target htarget).trans hbefore)
    · exact Or.inr ⟨hnone, hkeeps.folder hentries, q, hq, hkeeps.resolve hq'⟩

end FileSystem

end BundleAudit
