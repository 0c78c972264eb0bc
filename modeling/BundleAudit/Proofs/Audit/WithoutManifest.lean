import BundleAudit.Proofs.Audit.Growth
import BundleAudit.Proofs.Discovery.Placement
import BundleAudit.Proofs.Reconcile.IncludeAll
import Mathlib.Data.Set.Card

/-!
# Audits without a manifest

Without a manifest nothing is declared, so every descriptor that is not left out is reported.  Files
with the same relative path are one descriptor, and a file counts only if its folder can be opened.
So there may be fewer findings than files, but if there are, it is for one of these two reasons.

The files counted are those strictly below a descriptors folder.  Nothing is said here about a file
outside these folders that has the name of one.

## Main definitions

* `Folder.HasDescriptor s f names d` — the names lead to a file that is a descriptor and is not left
  out.
* `Folder.HasDescriptorBelow s f names d` — and it lies strictly below a descriptors folder.
* `Folder.NamesApart s f` — no file outside the descriptors folders could be taken for one.

## Main results

* `mem_included_iff` — which descriptors are not left out.
* `mem_below_iff` — which of them lie strictly below a descriptors folder.
* `findings_of_absent` — the findings if the manifest is absent for whatever reason.
* `audit_undeclared` — **without a manifest every descriptor is reported**, and when each file is.
-/

namespace BundleAudit

open Folder (NoneSkipped)

/-- Names lead from a bundle to a file outside skipped folders that is a descriptor and is not left
out. -/
structure Folder.HasDescriptor (s : Settings) (f : Folder) (names : List FileName)
    (d : Descriptor) : Prop where
  /-- There is a file. -/
  file : f.HasFile names
  /-- A walk passes through its folders. -/
  outside : NoneSkipped s.skippedFolders names.dropLast
  /-- It has the extension, and a descriptors folder among its names. -/
  descriptor : ∃ below, s.IsDescriptor names below d
  /-- No fragment leaves it out. -/
  included : d.excluded = false

/-- Names lead to such a file, and a folder on the way to it has the name of the descriptors
folder. -/
structure Folder.HasDescriptorBelow (s : Settings) (f : Folder) (names : List FileName)
    (d : Descriptor) : Prop extends f.HasDescriptor s names d where
  /-- There is such a folder. -/
  below : ∃ folder ∈ names.dropLast, folder.text = s.descriptorsFolder

/-- A file with the extension that has itself the name of the descriptors folder lies below such a
folder. -/
def Folder.NamesApart (s : Settings) (f : Folder) : Prop :=
  ∀ front n, f.HasFile (front ++ [n]) → NoneSkipped s.skippedFolders front →
    n.text = s.descriptorsFolder → s.descriptorExtension.toList <:+ n.text.toList →
      ∃ folder ∈ front, folder.text = s.descriptorsFolder

/-- The descriptors strictly below a descriptors folder, without those that are left out.  The
relative path of such a descriptor is not empty. -/
def Discovery.below (found : Discovery) : List Descriptor :=
  found.included.filter fun d => d.relativePath ≠ ""

/-- The finding about a descriptor where nothing is declared. -/
def Descriptor.undeclared (d : Descriptor) : Finding := ⟨0, .undeclaredService, [d.name]⟩

variable {fs : FileSystem} {s : Settings} {root p : Path} {entries : Folder} {d : Descriptor}
  {names : List FileName}

/-! ### Absent manifests -/

theorem readManifest_of_not_isFile (h : fs.isFile p = false) :
    readManifest fs s p = (.absent p, []) := by
  rw [readManifest, h, if_neg Bool.false_ne_true]

/-- If the manifest is absent, every descriptor that is not left out is undeclared. -/
theorem findings_of_absent {findings : List Finding}
    (h : readManifest fs s (s.manifestOf root) = (.absent (s.manifestOf root), findings)) :
    (audit fs s root).findings = findings ++ (readDescriptors fs s root).2 ++
      (discover fs s root).included.map Descriptor.undeclared := by
  rw [audit_findings, h, readDescriptors_fst]
  exact congrArg _ (reconcile_nil s _ none)

/-! ### Descriptors that are not left out -/

theorem mem_included_iff (h : fs.node root = .ok (.folder entries)) :
    d ∈ (discover fs s root).included ↔ ∃ names, entries.HasDescriptor s names d ∧
      (root.descend names.dropLast).isTooLong = false := by
  rw [Discovery.included, List.mem_filter, mem_files_discover_iff h, Bool.not_eq_true']
  constructor
  · rintro ⟨⟨names, below, hfile, houtside, hopens, hdescriptor⟩, hincluded⟩
    exact ⟨names, ⟨hfile, houtside, ⟨below, hdescriptor⟩, hincluded⟩, hopens⟩
  · rintro ⟨names, ⟨hfile, houtside, ⟨below, hdescriptor⟩, hincluded⟩, hopens⟩
    exact ⟨⟨names, below, hfile, houtside, hopens, hdescriptor⟩, hincluded⟩

/-- If a search reports nothing it has opened the folders of all descriptors. -/
theorem mem_included_iff_of_errors (h : fs.node root = .ok (.folder entries))
    (herrors : (discover fs s root).errors = []) :
    d ∈ (discover fs s root).included ↔ ∃ names, entries.HasDescriptor s names d := by
  rw [mem_included_iff h]
  refine exists_congr fun names => and_iff_left_of_imp fun hdescriptor => ?_
  exact (errors_discover_eq_nil_iff h).1 herrors _
    (Folder.visits_of_hasFile hdescriptor.file hdescriptor.outside)

/-! ### Descriptors below a descriptors folder -/

/-- There is a descriptors folder above the file exactly if the relative path is not empty. -/
theorem Folder.HasDescriptor.exists_folder_iff (h : entries.HasDescriptor s names d) :
    (∃ folder ∈ names.dropLast, folder.text = s.descriptorsFolder) ↔ d.relativePath ≠ "" := by
  obtain ⟨below, hd⟩ := h.descriptor
  obtain ⟨front, n, rfl, hn, hfirst⟩ := hd.folder
  rw [hd.path, ne_eq, relativePath_eq_empty_iff]
  by_cases hbelow : below = []
  · rw [hbelow, List.dropLast_concat]
    refine iff_of_false ?_ (not_not_intro rfl)
    rintro ⟨folder, hmem, hfolder⟩
    exact hfirst folder hmem hfolder
  · refine iff_of_true ⟨n, ?_, hn⟩ hbelow
    rw [List.dropLast_append_of_ne_nil (List.cons_ne_nil n below),
      List.dropLast_cons_of_ne_nil hbelow]
    exact List.mem_append_right front List.mem_cons_self

theorem mem_below_iff (h : fs.node root = .ok (.folder entries)) :
    d ∈ (discover fs s root).below ↔ ∃ names, entries.HasDescriptorBelow s names d ∧
      (root.descend names.dropLast).isTooLong = false := by
  rw [Discovery.below, List.mem_filter, mem_included_iff h, decide_eq_true_iff]
  constructor
  · rintro ⟨⟨names, hdescriptor, hopens⟩, hpath⟩
    exact ⟨names, ⟨hdescriptor, hdescriptor.exists_folder_iff.2 hpath⟩, hopens⟩
  · rintro ⟨names, ⟨hdescriptor, hbelow⟩, hopens⟩
    exact ⟨⟨names, hdescriptor, hopens⟩, hdescriptor.exists_folder_iff.1 hbelow⟩

/-- There are no others if no descriptor elsewhere has the name of the descriptors folder. -/
theorem below_eq_included (h : fs.node root = .ok (.folder entries))
    (hapart : entries.NamesApart s) :
    (discover fs s root).below = (discover fs s root).included := by
  have hall : ∀ d ∈ (discover fs s root).files, fs.LiesBelow s root d := by
    refine (files_liesBelow_iff h).2 fun front n hfile hskip _ hn hextension => ?_
    exact hapart front n hfile hskip hn hextension
  refine List.filter_eq_self.2 fun d hd => decide_eq_true ?_
  have hfile : d ∈ (discover fs s root).files := List.mem_of_mem_filter hd
  exact (liesBelow_iff_of_mem_files hfile).1.1 (hall d hfile)

/-! ### Counting -/

/-- The relative path of the descriptor that names lead to, if they lead to one. -/
def Settings.pathOf (s : Settings) (names : List FileName) : String :=
  ((s.descriptor? names).map Descriptor.relativePath).getD ""

theorem pathOf_eq (h : entries.HasDescriptorBelow s names d) : s.pathOf names = d.relativePath := by
  rw [Settings.pathOf, Settings.descriptor?_eq_some_iff.2 h.descriptor]
  rfl

/-- Elements of a list without duplicates are counted by its length. -/
theorem ncard_mem {α : Type} {xs : List α} (h : xs.Nodup) : {x | x ∈ xs}.ncard = xs.length := by
  classical
  rw [← List.coe_toFinset, Set.ncard_coe_finset, List.toFinset_card_of_nodup h]

theorem finite_descriptors (s : Settings) (entries : Folder) :
    {names | ∃ d, entries.HasDescriptorBelow s names d}.Finite := by
  refine (List.finite_toSet (entries.filesOutside s.skippedFolders)).subset ?_
  rintro names ⟨d, h⟩
  exact Folder.mem_filesOutside_iff.2 ⟨h.file, h.outside⟩

theorem ascending_below (fs : FileSystem) (s : Settings) (root : Path) :
    Ordered.Ascending (compareOn Descriptor.relativePath) (discover fs s root).below :=
  (ascending_included fs s root).sublist List.filter_sublist

/-- Descriptors in order are told apart by their relative paths. -/
theorem nodup_relativePath {ds : List Descriptor}
    (h : Ordered.Ascending (compareOn Descriptor.relativePath) ds) :
    (ds.map Descriptor.relativePath).Nodup := by
  refine List.pairwise_map.2 (h.imp ?_)
  intro a b hlt heq
  have hself : compareOn Descriptor.relativePath a b = .eq := by
    rw [compareOn, heq]
    exact Std.ReflCmp.compare_self
  rw [hself] at hlt
  cases hlt

/-- There is one descriptor for each relative path. -/
theorem length_below (h : fs.node root = .ok (.folder entries)) :
    (discover fs s root).below.length =
      {path | ∃ names d, entries.HasDescriptorBelow s names d ∧
        (root.descend names.dropLast).isTooLong = false ∧ d.relativePath = path}.ncard := by
  rw [← List.length_map (f := Descriptor.relativePath),
    ← ncard_mem (nodup_relativePath (ascending_below fs s root))]
  refine congrArg Set.ncard (Set.ext fun path => ?_)
  constructor
  · intro hpath
    obtain ⟨d, hd, rfl⟩ := List.mem_map.1 hpath
    obtain ⟨names, hdescriptor, hopens⟩ := (mem_below_iff h).1 hd
    exact ⟨names, d, hdescriptor, hopens, rfl⟩
  · rintro ⟨names, d, hdescriptor, hopens, rfl⟩
    exact List.mem_map.2 ⟨d, (mem_below_iff h).2 ⟨names, hdescriptor, hopens⟩, rfl⟩

/-- There are as many relative paths as files if all folders can be opened and no two files have the
same relative path. -/
theorem ncard_relativePath_eq_iff :
    {path | ∃ names d, entries.HasDescriptorBelow s names d ∧
        (root.descend names.dropLast).isTooLong = false ∧ d.relativePath = path}.ncard =
      {names | ∃ d, entries.HasDescriptorBelow s names d}.ncard ↔
    (∀ names d, entries.HasDescriptorBelow s names d →
        (root.descend names.dropLast).isTooLong = false) ∧
      ∀ names d names' d', entries.HasDescriptorBelow s names d →
        entries.HasDescriptorBelow s names' d' → d.relativePath = d'.relativePath →
        names = names' := by
  set files := {names | ∃ d, entries.HasDescriptorBelow s names d} with hfiles
  set opened := {names ∈ files | (root.descend names.dropLast).isTooLong = false} with hopened
  have hpaths : {path | ∃ names d, entries.HasDescriptorBelow s names d ∧
      (root.descend names.dropLast).isTooLong = false ∧ d.relativePath = path} =
        s.pathOf '' opened := by
    ext path
    constructor
    · rintro ⟨names, d, hdescriptor, hopens, rfl⟩
      exact ⟨names, ⟨⟨d, hdescriptor⟩, hopens⟩, pathOf_eq hdescriptor⟩
    · rintro ⟨names, ⟨⟨d, hdescriptor⟩, hopens⟩, rfl⟩
      exact ⟨names, d, hdescriptor, hopens, (pathOf_eq hdescriptor).symm⟩
  have hfinite : files.Finite := finite_descriptors s entries
  have hsubset : opened ⊆ files := fun names h => h.1
  have hopenedFinite : opened.Finite := hfinite.subset hsubset
  rw [hpaths]
  constructor
  · intro hcount
    -- neither step from the paths to all files may lose anything
    have himage : (s.pathOf '' opened).ncard ≤ opened.ncard := Set.ncard_image_le hopenedFinite
    have hle : opened.ncard ≤ files.ncard := Set.ncard_le_ncard hsubset hfinite
    have hall : opened = files :=
      Set.eq_of_subset_of_ncard_le hsubset (hcount ▸ himage) hfinite
    have hinj : Set.InjOn s.pathOf opened := by
      rw [← Set.ncard_image_iff hopenedFinite]
      omega
    rw [hall] at hinj
    constructor
    · intro names d hdescriptor
      have hmem : names ∈ opened := hall ▸ ⟨d, hdescriptor⟩
      exact hmem.2
    · intro names d names' d' hdescriptor hdescriptor' hpath
      refine hinj ⟨d, hdescriptor⟩ ⟨d', hdescriptor'⟩ ?_
      rw [pathOf_eq hdescriptor, pathOf_eq hdescriptor', hpath]
  · rintro ⟨hopens, hdistinct⟩
    have hall : opened = files :=
      Set.Subset.antisymm hsubset fun names ⟨d, hdescriptor⟩ =>
        ⟨⟨d, hdescriptor⟩, hopens names d hdescriptor⟩
    have hinj : Set.InjOn s.pathOf opened := by
      rintro names ⟨⟨d, hdescriptor⟩, -⟩ names' ⟨⟨d', hdescriptor'⟩, -⟩ hpath
      rw [pathOf_eq hdescriptor, pathOf_eq hdescriptor'] at hpath
      exact hdistinct names d names' d' hdescriptor hdescriptor' hpath
    rw [hinj.ncard_image, hall]

/-! ### No manifest -/

theorem countP_undeclared (ds : List Descriptor) :
    (ds.map Descriptor.undeclared).countP (fun f => f.kind = .undeclaredService) = ds.length := by
  rw [← List.length_map (f := Descriptor.undeclared), List.countP_eq_length]
  intro f hf
  obtain ⟨d, -, rfl⟩ := List.mem_map.1 hf
  rfl

theorem countP_readDescriptors (fs : FileSystem) (s : Settings) (root : Path) :
    (readDescriptors fs s root).2.countP (fun f => f.kind = .undeclaredService) = 0 := by
  refine List.countP_eq_zero.2 fun f hf => ?_
  obtain ⟨p, message, rfl⟩ := isUnreadable_of_mem_readDescriptors hf
  exact Bool.false_ne_true

/-- **Without a manifest every descriptor is reported.**  Those strictly below a descriptors folder
are reported at line 0, in the order of their relative paths.  Files with the same relative path are
one descriptor, so as many are reported as there are relative paths of files in folders that can be
opened.  These are as many as there are files exactly if all folders of such files can be opened and
no two of the files have the same relative path.  Unless a file outside the descriptors folders has
the name of one, nothing comes before these findings but one about the first folder that cannot be
opened. -/
theorem audit_undeclared (h : fs.node root = .ok (.folder entries))
    (hmanifest : fs.isFile (s.manifestOf root) = false) :
    ∃ reported : List Descriptor,
      Ordered.Ascending (compareOn Descriptor.relativePath) reported ∧
      (∀ d, d ∈ reported ↔ ∃ names, entries.HasDescriptorBelow s names d ∧
        (root.descend names.dropLast).isTooLong = false) ∧
      reported.length = {path | ∃ names d, entries.HasDescriptorBelow s names d ∧
        (root.descend names.dropLast).isTooLong = false ∧ d.relativePath = path}.ncard ∧
      (reported.length = {names | ∃ d, entries.HasDescriptorBelow s names d}.ncard ↔
        (∀ names d, entries.HasDescriptorBelow s names d →
            (root.descend names.dropLast).isTooLong = false) ∧
          ∀ names d names' d', entries.HasDescriptorBelow s names d →
            entries.HasDescriptorBelow s names' d' → d.relativePath = d'.relativePath →
            names = names') ∧
      (reported.map fun d => ⟨0, .undeclaredService, [d.name]⟩).Sublist
        (audit fs s root).findings ∧
      (entries.NamesApart s →
        (audit fs s root).findings =
            ((discover fs s root).errors.head?.toList.map fun e => unreadable e.1 e.2) ++
              reported.map (fun d => ⟨0, .undeclaredService, [d.name]⟩) ∧
          (audit fs s root).findings.countP (fun f => f.kind = .undeclaredService) =
            reported.length) := by
  have hfindings := findings_of_absent (readManifest_of_not_isFile hmanifest)
  rw [List.nil_append] at hfindings
  refine ⟨(discover fs s root).below, ascending_below fs s root, fun d => mem_below_iff h,
    length_below h, ?_, ?_, fun hapart => ?_⟩
  · rw [length_below h]
    exact ncard_relativePath_eq_iff
  · have hsub : ((discover fs s root).below.map Descriptor.undeclared).Sublist
        ((discover fs s root).included.map Descriptor.undeclared) := List.filter_sublist.map _
    rw [hfindings]
    exact hsub.trans (List.sublist_append_right _ _)
  · rw [below_eq_included h hapart]
    constructor
    · rw [hfindings, readDescriptors_of_isFolder (FileSystem.isFolder_iff.2 ⟨entries, h⟩)]
      rfl
    · rw [hfindings, List.countP_append, countP_readDescriptors, countP_undeclared, Nat.zero_add]

/-- Of four files, one is in a skipped folder, one is left out, and two are reported. -/
theorem audit_undeclared_two :
    let fs := ((((FileSystem.emptyAt []).putFile [⟨"OSGI-INF", by decide⟩, ⟨"b.xml", by decide⟩]
        "".toUTF8).putFile [⟨"x", by decide⟩, ⟨"OSGI-INF", by decide⟩, ⟨"sub", by decide⟩,
        ⟨"a.xml", by decide⟩] "".toUTF8).putFile [⟨"target", by decide⟩, ⟨"OSGI-INF", by decide⟩,
        ⟨"c.xml", by decide⟩] "".toUTF8).putFile [⟨"OSGI-INF", by decide⟩, ⟨"old", by decide⟩,
        ⟨"d.xml", by decide⟩] "".toUTF8
    let s : Settings := { excludedFragments := ["old"] }
    ∃ entries, fs.node ⟨"."⟩ = .ok (.folder entries) ∧ fs.isFile (s.manifestOf ⟨"."⟩) = false ∧
      entries.NamesApart s ∧
      (audit fs s ⟨"."⟩).findings =
        [⟨0, .undeclaredService, ["b.xml"]⟩, ⟨0, .undeclaredService, ["a.xml"]⟩] ∧
      {path | ∃ names d, entries.HasDescriptorBelow s names d ∧
        (Path.descend ⟨"."⟩ names.dropLast).isTooLong = false ∧
        d.relativePath = path}.ncard = 2 := by
  intro fs s
  obtain ⟨entries, h⟩ : ∃ entries, fs.node ⟨"."⟩ = .ok (.folder entries) :=
    FileSystem.isFolder_iff.1 (by decide +kernel)
  have hmanifest : fs.isFile (s.manifestOf ⟨"."⟩) = false := by decide +kernel
  have hapart : entries.NamesApart s := by
    intro front n _ _ hn hextension
    rw [hn] at hextension
    exact absurd hextension (by decide)
  have hfindings : (audit fs s ⟨"."⟩).findings =
      [⟨0, .undeclaredService, ["b.xml"]⟩, ⟨0, .undeclaredService, ["a.xml"]⟩] := by
    decide +kernel
  obtain ⟨reported, -, -, hpaths, -, -, hall⟩ := audit_undeclared h hmanifest
  refine ⟨entries, h, hmanifest, hapart, hfindings, ?_⟩
  rw [← hpaths, ← (hall hapart).2, hfindings]
  rfl

/-- If the one folder of a bundle cannot be opened, there is nothing else to report. -/
theorem kinds_audit_of_closed {n : FileName} {inner : Folder}
    (h : fs.node root = .ok (.folder (.sub n inner .empty))) (hskip : n.text ∉ s.skippedFolders)
    (hlong : (root.descend [n]).isTooLong = true)
    (hmanifest : fs.isFile (s.manifestOf root) = false) :
    (audit fs s root).findings.map Finding.kind = [.unreadableFile] := by
  obtain ⟨hfiles, herrors⟩ := discover_closed h hskip hlong
  obtain ⟨e, es, hes⟩ := List.exists_cons_of_ne_nil herrors
  rw [findings_of_absent (readManifest_of_not_isFile hmanifest),
    readDescriptors_of_isFolder (FileSystem.isFolder_iff.2 ⟨_, h⟩), Discovery.included, hfiles, hes]
  rfl

/-- A file is not reported if another one has the same relative path, nor if the path of its folder
is too long. -/
theorem audit_undeclared_shared :
    let twice := ((FileSystem.emptyAt []).putFile [⟨"a", by decide⟩, ⟨"OSGI-INF", by decide⟩,
      ⟨"x.xml", by decide⟩] "".toUTF8).putFile [⟨"b", by decide⟩, ⟨"OSGI-INF", by decide⟩,
      ⟨"x.xml", by decide⟩] "".toUTF8
    let deep := (FileSystem.emptyAt []).putFile
      [⟨"b", by decide⟩, ⟨"OSGI-INF", by decide⟩, ⟨"a.xml", by decide⟩] "".toUTF8
    let root := Path.throughPoints 2045 ⟨"b"⟩
    (twice.node ⟨"."⟩ = .ok (.folder twice.root) ∧
        twice.isFile (({} : Settings).manifestOf ⟨"."⟩) = false ∧
        (audit twice {} ⟨"."⟩).findings = [⟨0, .undeclaredService, ["x.xml"]⟩] ∧
        1 < {names | ∃ d, twice.root.HasDescriptorBelow {} names d}.ncard) ∧
      ∃ entries, deep.node root = .ok (.folder entries) ∧
        deep.isFile (({} : Settings).manifestOf root) = false ∧
        (audit deep {} root).findings.map Finding.kind = [.unreadableFile] ∧
        0 < {names | ∃ d, entries.HasDescriptorBelow {} names d}.ncard := by
  intro twice deep root
  refine ⟨⟨FileSystem.toOption_eq_some_iff.1 (by decide +kernel), by decide +kernel,
    by decide +kernel, ?_⟩, ?_⟩
  · have hfirst : twice.root.HasDescriptorBelow {}
        [⟨"a", by decide⟩, ⟨"OSGI-INF", by decide⟩, ⟨"x.xml", by decide⟩]
        ⟨"x.xml", "x.xml", false⟩ :=
      ⟨⟨(Folder.hasFile_iff_nodeAt? twice.distinct).2 ⟨"".toUTF8, by decide +kernel⟩,
        by unfold NoneSkipped; decide, Settings.descriptor?_eq_some_iff.1 (by decide +kernel), rfl⟩,
        by decide⟩
    have hsecond : twice.root.HasDescriptorBelow {}
        [⟨"b", by decide⟩, ⟨"OSGI-INF", by decide⟩, ⟨"x.xml", by decide⟩]
        ⟨"x.xml", "x.xml", false⟩ :=
      ⟨⟨(Folder.hasFile_iff_nodeAt? twice.distinct).2 ⟨"".toUTF8, by decide +kernel⟩,
        by unfold NoneSkipped; decide, Settings.descriptor?_eq_some_iff.1 (by decide +kernel), rfl⟩,
        by decide⟩
    exact (Set.one_lt_ncard (finite_descriptors _ _)).2
      ⟨_, ⟨_, hfirst⟩, _, ⟨_, hsecond⟩, by decide⟩
  · have hb : deep.node ⟨"b"⟩ = .ok (.folder (.sub ⟨"OSGI-INF", by decide⟩
        (.file ⟨"a.xml", by decide⟩ "".toUTF8 .empty) .empty)) :=
      FileSystem.toOption_eq_some_iff.1 (by decide +kernel)
    have hhere : deep.root.nodeAt? deep.here = some (.folder deep.root) := by decide +kernel
    have hroot := FileSystem.node_throughPoints 2045 hhere (by decide) hb (by decide +kernel)
    have hlong : (root.descend [⟨"OSGI-INF", by decide⟩]).isTooLong = true :=
      Path.isTooLong_descend_throughPoints (by decide +kernel)
    -- the path of the manifest is too long as well
    have hunread : (deep.read (({} : Settings).manifestOf root)).toOption = none :=
      read_of_isTooLong (Path.isTooLong_join_throughPoints rfl (by decide +kernel))
    have hmanifest : deep.isFile (({} : Settings).manifestOf root) = false := by
      rw [isFile_eq_isSome_read, hunread]
      rfl
    have hdescriptor : Folder.HasDescriptorBelow {} (.sub ⟨"OSGI-INF", by decide⟩
        (.file ⟨"a.xml", by decide⟩ "".toUTF8 .empty) .empty)
        [⟨"OSGI-INF", by decide⟩, ⟨"a.xml", by decide⟩] ⟨"a.xml", "a.xml", false⟩ :=
      ⟨⟨.inside _ (.here _ _ _), by unfold NoneSkipped; decide,
        Settings.descriptor?_eq_some_iff.1 (by decide +kernel), rfl⟩, by decide⟩
    exact ⟨_, hroot, hmanifest, kinds_audit_of_closed hroot (by decide) hlong hmanifest,
      (Set.ncard_pos (finite_descriptors _ _)).2 ⟨_, _, hdescriptor⟩⟩

end BundleAudit
