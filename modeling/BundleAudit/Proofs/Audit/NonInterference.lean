import BundleAudit.Proofs.Audit.Anchoring
import BundleAudit.Proofs.Discovery.Exactness

/-!
# What an audit depends on

An audit looks at the bytes of the manifest, at the relative paths of the descriptors that are not
left out, and at the first folder that cannot be opened.  Nothing else in the files has a part in
the report: not what is in the descriptors, not how many lead to one relative path, not what is left
out.

## Main results

* `readManifest_congr` — a manifest is read from its bytes.
* `included_eq_of_paths` — the descriptors that are not left out follow from their relative paths.
* `audit_eq_iff_of_included` — **an audit depends on nothing but what it sees**.
-/

namespace BundleAudit

variable {fs fs' : FileSystem} {s : Settings} {p root root' : Path} {d : Descriptor}

/-! ### The manifest -/

theorem isFile_eq_isSome_read : fs.isFile p = (fs.read p).toOption.isSome := by
  rw [FileSystem.isFile, FileSystem.read]
  cases fs.node p with
  | error e => rfl
  | ok node => cases node <;> rfl

theorem read_of_isTooLong (h : p.isTooLong = true) : (fs.read p).toOption = none := by
  refine Option.eq_none_iff_forall_ne_some.2 fun bytes hbytes => ?_
  have hshort := not_isTooLong_of_node
    (FileSystem.read_eq_ok_iff.1 (FileSystem.toOption_eq_some_iff.1 hbytes))
  exact absurd (h.symm.trans hshort) (by decide)

/-- A manifest is read from its bytes. -/
theorem readManifest_congr (h : (fs.read p).toOption = (fs'.read p).toOption) :
    readManifest fs s p = readManifest fs' s p := by
  have hfile : fs.isFile p = fs'.isFile p := by
    rw [isFile_eq_isSome_read, isFile_eq_isSome_read, h]
  rw [readManifest, readManifest, ← hfile]
  split
  · next hread =>
    rw [isFile_eq_isSome_read, Option.isSome_iff_exists] at hread
    obtain ⟨bytes, hbytes⟩ := hread
    have hbytes' : (fs'.read p).toOption = some bytes := h ▸ hbytes
    rw [Manifest.load, Manifest.load, FileSystem.toOption_eq_some_iff.1 hbytes,
      FileSystem.toOption_eq_some_iff.1 hbytes']
  · rfl

/-! ### The descriptors -/

/-- Whatever a search lists is a descriptor. -/
theorem exists_isDescriptor_of_mem (h : d ∈ (discover fs s root).files) :
    ∃ names below, s.IsDescriptor names below d := by
  obtain ⟨entries, hnode⟩ := exists_folder_of_mem_files h
  obtain ⟨names, below, -, -, -, hdescriptor⟩ := (mem_files_discover_iff hnode).1 h
  exact ⟨names, below, hdescriptor⟩

theorem mem_included_of_path (h : d ∈ (discover fs s root).included)
    (hpath : d.relativePath ∈ (discover fs' s root').included.map Descriptor.relativePath) :
    d ∈ (discover fs' s root').included := by
  obtain ⟨d', hd', heq⟩ := List.mem_map.1 hpath
  obtain ⟨names, below, hdescriptor⟩ := exists_isDescriptor_of_mem (List.mem_filter.1 h).1
  obtain ⟨names', below', hdescriptor'⟩ := exists_isDescriptor_of_mem (List.mem_filter.1 hd').1
  rwa [hdescriptor.unique hdescriptor' heq.symm]

theorem ascending_included (fs : FileSystem) (s : Settings) (root : Path) :
    Ordered.Ascending (compareOn Descriptor.relativePath) (discover fs s root).included :=
  (ascending_files fs s root).filter _

/-- The descriptors that are not left out follow from their relative paths. -/
theorem included_eq_of_paths
    (h : ∀ path, path ∈ (discover fs s root).included.map Descriptor.relativePath ↔
      path ∈ (discover fs' s root').included.map Descriptor.relativePath) :
    (discover fs s root).included = (discover fs' s root').included := by
  refine (ascending_included fs s root).ext (ascending_included fs' s root') fun d => ?_
  constructor
  · exact fun hd => mem_included_of_path hd ((h _).1 (List.mem_map_of_mem hd))
  · exact fun hd => mem_included_of_path hd ((h _).2 (List.mem_map_of_mem hd))

theorem includedNames_files (found : Discovery) :
    includedNames found.files = found.included.map Descriptor.name := rfl

/-- The balance is drawn over the descriptors that are not left out. -/
theorem reconcile_congr {files files' : List Descriptor} (ds : List Declaration)
    (headerLine : Option Nat) (h : includedNames files = includedNames files') :
    reconcile s ds files headerLine = reconcile s ds files' headerLine := by
  rw [reconcile, reconcile, h]

/-! ### The report -/

theorem readDescriptors_of_isFolder (h : fs.isFolder root = true) :
    readDescriptors fs s root = ((discover fs s root).files,
      (discover fs s root).errors.head?.toList.map fun e => unreadable e.1 e.2) := by
  rw [readDescriptors, if_pos h, ← List.take_one]

theorem unreadable_injective {e e' : Path × String}
    (h : unreadable e.1 e.2 = unreadable e'.1 e'.2) : e = e' := by
  obtain ⟨⟨text⟩, message⟩ := e
  obtain ⟨⟨text'⟩, message'⟩ := e'
  cases h
  rfl

/-- **An audit depends on nothing but what it sees.**  Of two file systems with the same bytes of
the manifest, or none, and the same relative paths of descriptors that are not left out, an audit
reports the same unless the first folder that it cannot open differs. -/
theorem audit_eq_iff_of_included (hfolder : fs.isFolder root = true)
    (hfolder' : fs'.isFolder root = true)
    (hmanifest : (fs.read (s.manifestOf root)).toOption = (fs'.read (s.manifestOf root)).toOption)
    (hincluded : ∀ path, path ∈ (discover fs s root).included.map Descriptor.relativePath ↔
      path ∈ (discover fs' s root).included.map Descriptor.relativePath) :
    audit fs s root = audit fs' s root ↔
      (discover fs s root).errors.head? = (discover fs' s root).errors.head? := by
  have hnames : includedNames (discover fs s root).files =
      includedNames (discover fs' s root).files := by
    rw [includedNames_files, includedNames_files, included_eq_of_paths hincluded]
  rw [audit, audit, readManifest_congr hmanifest, readDescriptors_of_isFolder hfolder,
    readDescriptors_of_isFolder hfolder']
  dsimp only
  rw [reconcile_congr _ _ hnames]
  constructor
  · intro h
    have hfindings := List.append_cancel_left
      (List.append_cancel_right (congrArg BundleReport.findings h))
    have herrors := (List.map_inj_right fun e e' => unreadable_injective).1 hfindings
    simpa using congrArg List.head? herrors
  · intro h
    rw [h]

/-- Another descriptor that leads to the same path, another one left out, and a text beside them. -/
theorem audit_eq_iff_of_included_other :
    let manifest := [⟨"META-INF", by decide⟩, ⟨"MANIFEST.MF", by decide⟩]
    let declared := (FileSystem.emptyAt []).putFile manifest
      "Service-Component: OSGI-INF/b.xml".toUTF8
    let fs := (declared.putFile [⟨"OSGI-INF", by decide⟩, ⟨"a.xml", by decide⟩] "1".toUTF8).putFile
      [⟨"OSGI-INF", by decide⟩, ⟨"old", by decide⟩, ⟨"b.xml", by decide⟩] "".toUTF8
    let fs' := (declared.putFile [⟨"x", by decide⟩, ⟨"OSGI-INF", by decide⟩, ⟨"a.xml", by decide⟩]
      "2".toUTF8).putFile [⟨"OSGI-INF", by decide⟩, ⟨"note.txt", by decide⟩] "".toUTF8
    let s : Settings := { excludedFragments := ["old"] }
    (audit fs s ⟨"."⟩).findings.map Finding.kind =
        [.includeAllAdvised, .missingService, .undeclaredService] ∧
      audit fs s ⟨"."⟩ = audit fs' s ⟨"."⟩ := by
  intro manifest declared fs fs' s
  have hpaths : (discover fs s ⟨"."⟩).included.map Descriptor.relativePath =
      (discover fs' s ⟨"."⟩).included.map Descriptor.relativePath := by decide +kernel
  refine ⟨by decide +kernel, (audit_eq_iff_of_included (by decide +kernel) (by decide +kernel)
    (by decide +kernel) (fun path => ?_)).2 (by decide +kernel)⟩
  rw [hpaths]

/-- A folder that holds no descriptors is reported in a bundle that has a long path. -/
theorem audit_ne_of_throughPoints :
    let fs := (FileSystem.emptyAt []).putFolder [⟨"b", by decide⟩]
    let fs' := fs.putFile
      [⟨"b", by decide⟩, ⟨"OSGI-INF2", by decide⟩, ⟨"a.txt", by decide⟩] "".toUTF8
    let root := Path.throughPoints 2045 ⟨"b"⟩
    fs.isFolder root = true ∧ fs'.isFolder root = true ∧
      (fs.read (({} : Settings).manifestOf root)).toOption =
        (fs'.read (({} : Settings).manifestOf root)).toOption ∧
      (∀ path, path ∈ (discover fs {} root).included.map Descriptor.relativePath ↔
        path ∈ (discover fs' {} root).included.map Descriptor.relativePath) ∧
      audit fs {} root ≠ audit fs' {} root := by
  intro fs fs' root
  have hb : fs.node ⟨"b"⟩ = .ok (.folder .empty) :=
    FileSystem.toOption_eq_some_iff.1 (by decide +kernel)
  have hb' : fs'.node ⟨"b"⟩ = .ok (.folder (.sub ⟨"OSGI-INF2", by decide⟩
      (.file ⟨"a.txt", by decide⟩ "".toUTF8 .empty) .empty)) :=
    FileSystem.toOption_eq_some_iff.1 (by decide +kernel)
  have hhere : fs.root.nodeAt? fs.here = some (.folder fs.root) := by decide +kernel
  have hhere' : fs'.root.nodeAt? fs'.here = some (.folder fs'.root) := by decide +kernel
  have hroot := FileSystem.node_throughPoints 2045 hhere (by decide) hb (by decide +kernel)
  have hroot' := FileSystem.node_throughPoints 2045 hhere' (by decide) hb' (by decide +kernel)
  have hlong : (root.descend [⟨"OSGI-INF2", by decide⟩]).isTooLong = true :=
    Path.isTooLong_descend_throughPoints (by decide +kernel)
  have hfolder := FileSystem.isFolder_iff.2 ⟨_, hroot⟩
  have hfolder' := FileSystem.isFolder_iff.2 ⟨_, hroot'⟩
  -- the path of the manifest is too long as well
  have hmanifest : ∀ files : FileSystem,
      (files.read (({} : Settings).manifestOf root)).toOption = none := fun files =>
    read_of_isTooLong (Path.isTooLong_join_throughPoints rfl (by decide +kernel))
  have hfound : discover fs {} root = ⟨[], []⟩ := discover_empty hroot
  obtain ⟨hfiles', herrors'⟩ := discover_closed hroot' (s := {}) (by decide) hlong
  refine ⟨hfolder, hfolder', (hmanifest fs).trans (hmanifest fs').symm, fun path => ?_, ?_⟩
  · rw [Discovery.included, Discovery.included, hfound, hfiles']
  · intro haudit
    have hnone : (audit fs {} root).findings = [] := by
      rw [audit_findings, readManifest, isFile_eq_isSome_read, hmanifest,
        readDescriptors_of_isFolder hfolder, hfound]
      rfl
    rw [haudit, audit_findings, readDescriptors_of_isFolder hfolder'] at hnone
    have hsearch := (List.append_eq_nil_iff.1 (List.append_eq_nil_iff.1 hnone).1).2
    dsimp only at hsearch
    rw [List.map_eq_nil_iff, Option.toList_eq_nil_iff, List.head?_eq_none_iff] at hsearch
    exact herrors' hsearch

end BundleAudit
