import BundleAudit.Proofs.Discovery.Descriptors
import BundleAudit.Proofs.Files.LongPaths
import BundleAudit.Proofs.Text.ByteOrder
import Mathlib.Data.List.Induction

/-!
# What a search finds

A search lists every descriptor whose folder it can open, ordered by the bytes of the relative
paths, and reports every folder that it meets and cannot open.  A folder can be opened unless its
path, as seen from where the search starts, is too long.  If all folders can be opened nothing is
reported and the result depends on nothing but the entries of the bundle.

## Main definitions

* `Folder.Visits skipped f ns` — a folder that a walk comes to if it can open all folders above.

## Main results

* `Folder.closedFrom_eq_nil_iff` — a walk opens all folders that it meets, or reports one.
* `mem_files_discover_iff`, `mem_errors_discover_iff` — what is listed, and what is reported.
* `discover_exact` — **a search lists exactly the descriptors**.
-/

namespace BundleAudit

open Folder (NoneSkipped)

namespace Folder

variable {f : Folder} {n : FileName} {ns : List FileName} {p : Path} {skipped : List String}

/-! ### Folders on the way -/

/-- Above what lies in the first entry there is that entry, and what is above it in the entry. -/
theorem hasFolder_dropLast_cons {inner : Folder} (rest : Folder) (hns : ns ≠ [])
    (h : ns.dropLast ≠ [] → inner.HasFolder ns.dropLast) :
    (sub n inner rest).HasFolder (n :: ns).dropLast := by
  rw [List.dropLast_cons_of_ne_nil hns]
  by_cases hdrop : ns.dropLast = []
  · rw [hdrop]
    exact .here n inner rest
  · exact .inside rest (h hdrop)

theorem HasFolder.dropLast (h : f.HasFolder ns) (hne : ns.dropLast ≠ []) :
    f.HasFolder ns.dropLast := by
  induction h with
  | here n inner rest => exact absurd rfl hne
  | inside rest h ih => exact hasFolder_dropLast_cons rest h.ne_nil ih
  | afterFile h ih => exact .afterFile (ih hne)
  | afterFolder h ih => exact .afterFolder (ih hne)

theorem HasFile.hasFolder_dropLast (h : f.HasFile ns) (hne : ns.dropLast ≠ []) :
    f.HasFolder ns.dropLast := by
  induction h with
  | here n content rest => exact absurd rfl hne
  | inside rest h ih => exact hasFolder_dropLast_cons rest h.ne_nil ih
  | afterFile h ih => exact .afterFile (ih hne)
  | afterFolder h ih => exact .afterFolder (ih hne)

/-- A folder that a walk comes to if it can open all folders above: its start, and the folders that
are there and lie in no skipped folder. -/
def Visits (skipped : List String) (f : Folder) (ns : List FileName) : Prop :=
  ns = [] ∨ (f.HasFolder ns ∧ NoneSkipped skipped ns)

theorem visits_of_concat (h : f.Visits skipped (ns ++ [n])) : f.Visits skipped ns := by
  by_cases hns : ns = []
  · exact Or.inl hns
  rcases h with h | ⟨hfolder, hskip⟩
  · exact absurd h (List.concat_ne_nil n ns)
  · have hdrop : (ns ++ [n]).dropLast = ns := List.dropLast_concat
    have habove := hfolder.dropLast (by rwa [hdrop])
    rw [hdrop] at habove
    exact Or.inr ⟨habove, fun m hm => hskip m (List.mem_append_left _ hm)⟩

theorem visits_of_hasFile (h : f.HasFile ns) (hskip : NoneSkipped skipped ns.dropLast) :
    f.Visits skipped ns.dropLast := by
  by_cases hns : ns.dropLast = []
  · exact Or.inl hns
  · exact Or.inr ⟨h.hasFolder_dropLast hns, hskip⟩

/-! ### Folders that cannot be opened -/

instance : Std.LawfulEqCmp (compareOn FileName.text) where
  eq_of_compare h := FileName.text_injective (Std.LawfulEqCmp.eq_of_compare h)

theorem mem_closedFrom_iff : ns ∈ f.closedFrom p skipped ↔
    (f.Visits skipped ns ∧ opensFrom p ns.dropLast = true) ∧ opensFrom p ns = false := by
  rw [closedFrom, Ordered.mem_ofList_iff, List.mem_filter, mem_foldersFrom_iff,
    Bool.not_eq_true', Visits]

/-- If a walk opens all folders that it meets it comes to all folders. -/
theorem closedFrom_eq_nil_iff (hp : p.isTooLong = false) :
    f.closedFrom p skipped = [] ↔ ∀ ns, f.Visits skipped ns → opensFrom p ns = true := by
  constructor
  · -- the first folder on the way that cannot be opened would be met
    intro h ns
    induction ns using List.reverseRecOn with
    | nil =>
      intro _
      rw [opensFrom, Path.descend, List.foldl_nil, hp, Bool.not_false]
    | append_singleton ns n ih =>
      intro hvisits
      cases hopens : opensFrom p (ns ++ [n]) with
      | true => rfl
      | false =>
        have habove : opensFrom p (ns ++ [n]).dropLast = true := by
          rw [List.dropLast_concat]
          exact ih (visits_of_concat hvisits)
        have hmem : ns ++ [n] ∈ f.closedFrom p skipped :=
          mem_closedFrom_iff.2 ⟨⟨hvisits, habove⟩, hopens⟩
        rw [h] at hmem
        exact absurd hmem List.not_mem_nil
  · intro h
    refine List.eq_nil_iff_forall_not_mem.2 fun ns hmem => ?_
    obtain ⟨⟨hvisits, -⟩, hopens⟩ := mem_closedFrom_iff.1 hmem
    rw [h ns hvisits] at hopens
    cases hopens

end Folder

/-! ### The result of a search -/

variable {fs : FileSystem} {s : Settings} {root : Path} {entries : Folder} {d : Descriptor}

theorem discover_of_folder (h : fs.node root = .ok (.folder entries)) :
    discover fs s root = ⟨s.descriptorsIn root entries, s.failuresIn root entries⟩ := by
  rw [discover, h]

/-- Descriptors are listed for folders only. -/
theorem exists_folder_of_mem_files (h : d ∈ (discover fs s root).files) :
    ∃ entries, fs.node root = .ok (.folder entries) := by
  rw [discover] at h
  split at h
  · exact absurd h List.not_mem_nil
  · exact absurd h List.not_mem_nil
  · next entries hnode => exact ⟨entries, hnode⟩

theorem not_isTooLong_of_node {node : Node} (h : fs.node root = .ok node) :
    root.isTooLong = false := by
  obtain ⟨place, hplace, -⟩ := FileSystem.node_eq_ok_iff.1 h
  exact (FileSystem.checkPath_eq_ok_iff.1 (FileSystem.resolve_eq_ok_iff.1 hplace).1).2.2

theorem opensFrom_iff {ns : List FileName} :
    Folder.opensFrom root ns = true ↔ (root.descend ns).isTooLong = false := by
  rw [Folder.opensFrom, Bool.not_eq_true']

/-- A descriptor is listed if the folder that it lies in can be opened. -/
theorem mem_files_discover_iff (h : fs.node root = .ok (.folder entries)) :
    d ∈ (discover fs s root).files ↔ ∃ names below, entries.HasFile names ∧
      NoneSkipped s.skippedFolders names.dropLast ∧
      (root.descend names.dropLast).isTooLong = false ∧ s.IsDescriptor names below d := by
  rw [discover_of_folder h, Settings.descriptorsIn, Settings.mem_ofList_descriptor?_iff]
  refine exists_congr fun names => ?_
  rw [Folder.mem_filesFrom_iff, opensFrom_iff]
  constructor
  · rintro ⟨⟨⟨hfile, hskip⟩, hopens⟩, below, hdescriptor⟩
    exact ⟨below, hfile, hskip, hopens, hdescriptor⟩
  · rintro ⟨below, hfile, hskip, hopens, hdescriptor⟩
    exact ⟨⟨⟨hfile, hskip⟩, hopens⟩, below, hdescriptor⟩

theorem errors_discover (h : fs.node root = .ok (.folder entries)) :
    (discover fs s root).errors = (entries.closedFrom root s.skippedFolders).map fun ns =>
      searchFailure (root.descend ns) .nameTooLong := by
  rw [discover_of_folder h, Settings.failuresIn]

/-- Nothing is reported if all folders can be opened. -/
theorem errors_discover_eq_nil_iff (h : fs.node root = .ok (.folder entries)) :
    (discover fs s root).errors = [] ↔
      ∀ ns, entries.Visits s.skippedFolders ns → (root.descend ns).isTooLong = false := by
  rw [errors_discover h, List.map_eq_nil_iff,
    Folder.closedFrom_eq_nil_iff (not_isTooLong_of_node h)]
  simp only [opensFrom_iff]

theorem ascending_files (fs : FileSystem) (s : Settings) (root : Path) :
    Ordered.Ascending (compareOn Descriptor.relativePath) (discover fs s root).files := by
  rw [discover]
  split
  · exact .nil
  · exact .nil
  · exact Ordered.ascending_ofList _

/-- Where all folders can be opened, the result depends on the entries of the bundle alone. -/
theorem discover_eq_of_node {fs' : FileSystem} {root' : Path}
    (h : fs.node root = .ok (.folder entries)) (h' : fs'.node root' = .ok (.folder entries))
    (herrors : (discover fs s root).errors = []) (herrors' : (discover fs' s root').errors = []) :
    discover fs' s root' = discover fs s root := by
  have hmem : ∀ d, d ∈ (discover fs' s root').files ↔ d ∈ (discover fs s root).files := by
    intro d
    rw [mem_files_discover_iff h, mem_files_discover_iff h']
    refine exists_congr fun names => exists_congr fun below =>
      and_congr_right fun hfile => and_congr_right fun hskip => and_congr_left fun _ => ?_
    -- the folder of the file can be opened from both
    have hvisits := Folder.visits_of_hasFile hfile hskip
    rw [(errors_discover_eq_nil_iff h).1 herrors _ hvisits,
      (errors_discover_eq_nil_iff h').1 herrors' _ hvisits]
  have hfiles := (ascending_files fs' s root').ext (ascending_files fs s root) hmem
  cases hfound : discover fs s root
  cases hfound' : discover fs' s root'
  rw [hfound] at herrors hfiles
  rw [hfound'] at herrors' hfiles
  cases hfiles
  cases herrors
  cases herrors'
  rfl

/-- In a bundle without entries nothing is found. -/
theorem discover_empty (h : fs.node root = .ok (.folder .empty)) :
    discover fs s root = ⟨[], []⟩ := by
  have herrors : (discover fs s root).errors = [] := by
    refine (errors_discover_eq_nil_iff h).2 fun ns hvisits => ?_
    rcases hvisits with rfl | ⟨hfolder, -⟩
    · exact not_isTooLong_of_node h
    · cases hfolder
  rw [discover_of_folder h] at herrors ⊢
  rw [Discovery.mk.injEq]
  exact ⟨rfl, herrors⟩

/-- In a bundle with one folder that cannot be opened nothing is found, and something reported. -/
theorem discover_closed {n : FileName} {inner : Folder}
    (h : fs.node root = .ok (.folder (.sub n inner .empty))) (hskip : n.text ∉ s.skippedFolders)
    (hlong : (root.descend [n]).isTooLong = true) :
    (discover fs s root).files = [] ∧ (discover fs s root).errors ≠ [] := by
  constructor
  · refine List.eq_nil_iff_forall_not_mem.2 fun d hd => ?_
    obtain ⟨names, below, hfile, -, hopens, -⟩ := (mem_files_discover_iff h).1 hd
    cases hfile with
    | @inside _ _ ns rest hfile =>
      rw [List.dropLast_cons_of_ne_nil hfile.ne_nil] at hopens
      have hbelow := Path.isTooLong_descend ns.dropLast hlong
      exact absurd (hbelow.symm.trans hopens) (by decide)
    | afterFolder hfile => cases hfile
  · intro herrors
    have hvisits : Folder.Visits s.skippedFolders (.sub n inner .empty) [n] :=
      Or.inr ⟨.here n inner .empty, List.forall_mem_singleton.2 hskip⟩
    have hopens := (errors_discover_eq_nil_iff h).1 herrors [n] hvisits
    exact absurd (hlong.symm.trans hopens) (by decide)

/-- **A search lists exactly the descriptors.**  They come in the order of the bytes of their
relative paths, each once; all that is known of one follows from its path, so the order in which a
walk meets the files does not matter.  Each folder that is met and cannot be opened is reported, and
if there is none the path of the bundle does not matter either.  A file has no descriptors. -/
theorem discover_exact (h : fs.node root = .ok (.folder entries)) :
    ((discover fs s root).files.Pairwise fun a b =>
      a.relativePath.toUTF8.data.toList < b.relativePath.toUTF8.data.toList) ∧
    (∀ d, d ∈ (discover fs s root).files ↔ ∃ names below, entries.HasFile names ∧
      NoneSkipped s.skippedFolders names.dropLast ∧
      (root.descend names.dropLast).isTooLong = false ∧ s.IsDescriptor names below d) ∧
    (∀ names below d names' below' d', s.IsDescriptor names below d →
      s.IsDescriptor names' below' d' → d.relativePath = d'.relativePath → d = d') ∧
    (∃ closed : List (List FileName), closed.Nodup ∧
      (∀ ns, ns ∈ closed ↔ (entries.Visits s.skippedFolders ns ∧
        (root.descend ns.dropLast).isTooLong = false) ∧ (root.descend ns).isTooLong = true) ∧
      (discover fs s root).errors =
        closed.map fun ns => searchFailure (root.descend ns) .nameTooLong) ∧
    ((discover fs s root).errors = [] ↔
      ∀ ns, entries.Visits s.skippedFolders ns → (root.descend ns).isTooLong = false) ∧
    (∀ walk : List (List FileName),
      (∀ names, names ∈ walk ↔ entries.HasFile names ∧
        NoneSkipped s.skippedFolders names.dropLast ∧
        (root.descend names.dropLast).isTooLong = false) →
      Ordered.ofList (compareOn Descriptor.relativePath) (walk.filterMap s.descriptor?) =
        (discover fs s root).files) ∧
    (∀ (fs' : FileSystem) (root' : Path), fs'.node root' = .ok (.folder entries) →
      (discover fs s root).errors = [] → (discover fs' s root').errors = [] →
      discover fs' s root' = discover fs s root) ∧
    (∀ (p : Path) (content : ByteArray), fs.node p = .ok (.file content) →
      discover fs s p = ⟨[], []⟩) := by
  refine ⟨?_, fun d => mem_files_discover_iff h, fun _ _ _ _ _ _ hd hd' => hd.unique hd', ?_,
    errors_discover_eq_nil_iff h, ?_, fun fs' root' h' => discover_eq_of_node h h', ?_⟩
  · refine (ascending_files fs s root).imp fun hlt => Text.bytes_lt ?_
    exact compareOfLessAndEq_eq_lt.1 hlt
  · refine ⟨entries.closedFrom root s.skippedFolders, ?_, ?_, errors_discover h⟩
    · refine (Ordered.ascending_ofList _).imp ?_
      rintro ns _ hlt rfl
      exact Std.OrientedCmp.not_lt_of_lt hlt hlt
    · intro ns
      rw [Folder.mem_closedFrom_iff, opensFrom_iff, Folder.opensFrom, Bool.not_eq_false']
  · intro walk hwalk
    refine (Ordered.ascending_ofList _).ext (ascending_files fs s root) fun d => ?_
    rw [Settings.mem_ofList_descriptor?_iff, mem_files_discover_iff h]
    constructor
    · rintro ⟨names, hnames, below, hdescriptor⟩
      obtain ⟨hfile, hskip, hopens⟩ := (hwalk names).1 hnames
      exact ⟨names, below, hfile, hskip, hopens, hdescriptor⟩
    · rintro ⟨names, below, hfile, hskip, hopens, hdescriptor⟩
      exact ⟨names, (hwalk names).2 ⟨hfile, hskip, hopens⟩, below, hdescriptor⟩
  · intro p content hp
    rw [discover, hp]

/-- The bundle has the name of a skipped folder.  Two of its files have the same relative path, and
one lies in a descriptors folder inside another one. -/
theorem discover_exact_nested :
    let fs := ((((FileSystem.emptyAt []).putFile [⟨"target", by decide⟩, ⟨"OSGI-INF", by decide⟩,
        ⟨"sub", by decide⟩, ⟨"a.xml", by decide⟩] "1".toUTF8).putFile [⟨"target", by decide⟩,
        ⟨"x", by decide⟩, ⟨"OSGI-INF", by decide⟩, ⟨"sub", by decide⟩, ⟨"a.xml", by decide⟩]
        "2".toUTF8).putFile [⟨"target", by decide⟩, ⟨"OSGI-INF", by decide⟩,
        ⟨"OSGI-INF", by decide⟩, ⟨"b.xml", by decide⟩] "".toUTF8).putFile [⟨"target", by decide⟩,
        ⟨"target", by decide⟩, ⟨"OSGI-INF", by decide⟩, ⟨"c.xml", by decide⟩] "".toUTF8
    let s : Settings := { excludedFragments := ["sub"] }
    (∃ entries, fs.node ⟨"target"⟩ = .ok (.folder entries)) ∧
      discover fs s ⟨"target"⟩ =
        ⟨[⟨"b.xml", "OSGI-INF/b.xml", false⟩, ⟨"a.xml", "sub/a.xml", true⟩], []⟩ ∧
      (discover fs s ⟨"target"⟩).files.Pairwise fun a b =>
        a.relativePath.toUTF8.data.toList < b.relativePath.toUTF8.data.toList := by
  intro fs s
  have hnode : ∃ entries, fs.node ⟨"target"⟩ = .ok (.folder entries) :=
    FileSystem.isFolder_iff.1 (by decide +kernel)
  obtain ⟨entries, h⟩ := hnode
  exact ⟨⟨entries, h⟩, by decide +kernel, (discover_exact h).1⟩

/-- If the path of the bundle is long, a search does report something and misses a descriptor: the
bundle can be opened, the descriptors folder in it cannot. -/
theorem discover_throughPoints :
    let fs := (FileSystem.emptyAt []).putFile
      [⟨"b", by decide⟩, ⟨"OSGI-INF", by decide⟩, ⟨"a.xml", by decide⟩] "".toUTF8
    let root := Path.throughPoints 2045 ⟨"b"⟩
    fs.isFolder root = true ∧ (discover fs {} root).files = [] ∧
      (discover fs {} root).errors ≠ [] := by
  intro fs root
  have hb : fs.node ⟨"b"⟩ = .ok (.folder (.sub ⟨"OSGI-INF", by decide⟩
      (.file ⟨"a.xml", by decide⟩ "".toUTF8 .empty) .empty)) :=
    FileSystem.toOption_eq_some_iff.1 (by decide +kernel)
  have hhere : fs.root.nodeAt? fs.here = some (.folder fs.root) := by decide +kernel
  have hroot := FileSystem.node_throughPoints 2045 hhere (by decide) hb (by decide +kernel)
  have hlong : (root.descend [⟨"OSGI-INF", by decide⟩]).isTooLong = true :=
    Path.isTooLong_descend_throughPoints (by decide +kernel)
  exact ⟨FileSystem.isFolder_iff.2 ⟨_, hroot⟩, discover_closed hroot (by decide) hlong⟩

end BundleAudit
