import BundleAudit.Proofs.Audit.WithoutManifest
import BundleAudit.Proofs.Files.Removal

/-!
# Audits with a broken manifest

A manifest that cannot be read is no manifest.  Whatever could be read of it has no part in the
report: there is one finding about the manifest, and the others are those of an audit of the same
files without it.

The manifest may be a descriptor too, if it lies where descriptors are.  Then it is reported as one,
so the comparison needs another file that is the same descriptor, unless the manifest is none or is
left out.

## Main definitions

* `Manifest.IsBroken bytes e` — the bytes are no manifest.
* `FileSystem.HasDescriptor fs s root place d` — at a place there is a file that is a descriptor of
  the bundle and is not left out.

## Main results

* `Manifest.ofBytes_eq_error_iff` — exactly broken bytes are refused.
* `included_remove` — the descriptors after a file has been removed.
* `audit_isBroken` — **a broken manifest is as good as none**.
-/

namespace BundleAudit

/-- Bytes are no manifest, and why. -/
inductive Manifest.IsBroken (bytes : ByteArray) : ManifestError → Prop where
  /-- They are no text. -/
  | notUtf8 (h : String.fromUTF8? bytes = none) : IsBroken bytes .notUtf8
  /-- A line of the main section neither opens a header nor continues one. -/
  | malformed {text : String} {line : MalformedLine} (h : String.fromUTF8? bytes = some text)
      (hline : Attributes.ofText text.toList = .error line) : IsBroken bytes (.malformed line)

/-- At a place below a bundle there is a file that is a descriptor and is not left out. -/
def FileSystem.HasDescriptor (fs : FileSystem) (s : Settings) (root : Path) (place : List FileName)
    (d : Descriptor) : Prop :=
  ∃ top entries names, fs.resolve root = .ok top ∧ fs.root.nodeAt? top = some (.folder entries) ∧
    place = top ++ names ∧ entries.HasDescriptor s names d

variable {fs : FileSystem} {s : Settings} {root p : Path} {entries : Folder} {d : Descriptor}
  {bytes : ByteArray} {e : ManifestError} {place : List FileName}

/-! ### Reading a broken manifest -/

/-- Exactly broken bytes give no manifest, whatever header is asked for. -/
theorem Manifest.ofBytes_eq_error_iff : ofBytes s p bytes = .error e ↔ IsBroken bytes e := by
  rw [ofBytes]
  constructor
  · intro h
    split at h
    · next htext =>
      cases h
      exact .notUtf8 htext
    · next text htext =>
      rw [ofText] at h
      split at h
      · next line hline =>
        cases h
        exact .malformed htext hline
      · cases h
  · rintro (htext | ⟨htext, hline⟩)
    · rw [htext]
    · rw [htext]
      dsimp only
      rw [ofText, hline]

/-- What is broken is absent, with one finding. -/
theorem readManifest_of_isBroken (hread : fs.read p = .ok bytes) (h : Manifest.IsBroken bytes e) :
    readManifest fs s p = (.absent p, [unreadable p (e.message p)]) := by
  rw [readManifest, if_pos (FileSystem.isFile_of_read_eq_ok hread), Manifest.load, hread]
  dsimp only
  rw [Manifest.ofBytes_eq_error_iff.2 h]

/-! ### Descriptors that are left -/

/-- What is at the place of a descriptor has the extension. -/
theorem FileSystem.HasDescriptor.hasExtension (h : fs.HasDescriptor s root place d) :
    ∃ last, place.getLast? = some last ∧
      s.descriptorExtension.toList <:+ last.text.toList := by
  obtain ⟨top, entries, names, -, -, rfl, hdescriptor⟩ := h
  obtain ⟨below, hbelow⟩ := hdescriptor.descriptor
  obtain ⟨last, hlast, hextension, -⟩ := hbelow.file
  refine ⟨last, ?_, hextension⟩
  rw [List.getLast?_append, hlast, Option.some_or]

/-- Removing a file takes no folder away, so all folders can still be opened. -/
theorem errors_discover_remove (hfile : fs.root.nodeAt? place = some (.file bytes))
    (hfolder : fs.isFolder root = true) (herrors : (discover fs s root).errors = []) :
    (discover (fs.remove place) s root).errors = [] := by
  obtain ⟨entries, hnode⟩ := FileSystem.isFolder_iff.1 hfolder
  obtain ⟨top, htop, hentries⟩ := FileSystem.node_eq_ok_iff.1 hnode
  obtain ⟨entries', hnode', -, hfolders⟩ := FileSystem.node_folder_remove hfile htop hentries
  refine (errors_discover_eq_nil_iff hnode').2 fun ns hvisits => ?_
  refine (errors_discover_eq_nil_iff hnode).1 herrors ns ?_
  exact hvisits.imp_right (And.imp_left (hfolders ns).1)

/-- The same descriptors are left if the file that is removed is none, or there is another file for
it. -/
theorem included_remove (hfile : fs.root.nodeAt? place = some (.file bytes))
    (hfolder : fs.isFolder root = true) (herrors : (discover fs s root).errors = [])
    (hother : ∀ d, fs.HasDescriptor s root place d →
      ∃ other, other ≠ place ∧ fs.HasDescriptor s root other d) :
    (discover (fs.remove place) s root).included = (discover fs s root).included := by
  have herrors' := errors_discover_remove hfile hfolder herrors
  obtain ⟨entries, hnode⟩ := FileSystem.isFolder_iff.1 hfolder
  obtain ⟨top, htop, hentries⟩ := FileSystem.node_eq_ok_iff.1 hnode
  obtain ⟨entries', hnode', hfiles, -⟩ := FileSystem.node_folder_remove hfile htop hentries
  refine (ascending_included _ s root).ext (ascending_included fs s root) fun d => ?_
  rw [mem_included_iff_of_errors hnode herrors, mem_included_iff_of_errors hnode' herrors']
  have hkept {names : List FileName} (h : entries.HasDescriptor s names d)
      (hne : top ++ names ≠ place) : ∃ names, entries'.HasDescriptor s names d :=
    ⟨names, (hfiles names).2 ⟨h.file, hne⟩, h.outside, h.descriptor, h.included⟩
  constructor
  · rintro ⟨names, h⟩
    exact ⟨names, ((hfiles names).1 h.file).1, h.outside, h.descriptor, h.included⟩
  · rintro ⟨names, h⟩
    by_cases hplace : top ++ names = place
    · obtain ⟨other, hne, top', inner, names', htop', hinner, rfl, h'⟩ :=
        hother d ⟨top, entries, names, htop, hentries, hplace.symm, h⟩
      -- both are seen from the one bundle
      rw [htop] at htop'
      cases htop'
      rw [hentries] at hinner
      cases hinner
      exact hkept h' hne
    · exact hkept h hplace

/-! ### The report -/

/-- **A broken manifest is as good as none.**  The first finding is about the manifest; the rest is
the report on the files without it, which has every descriptor that is not left out, in the order of
the relative paths.  The bundle passes. -/
theorem audit_isBroken (hplace : fs.resolve (s.manifestOf root) = .ok place)
    (hfile : fs.root.nodeAt? place = some (.file bytes)) (hbroken : Manifest.IsBroken bytes e)
    (hfolder : fs.isFolder root = true) (herrors : (discover fs s root).errors = [])
    (hother : ∀ d, fs.HasDescriptor s root place d →
      ∃ other, other ≠ place ∧ fs.HasDescriptor s root other d) :
    audit fs s root =
        { audit (fs.remove place) s root with
          findings := ⟨0, .unreadableFile,
            [(s.manifestOf root).text, e.message (s.manifestOf root)]⟩ ::
              (audit (fs.remove place) s root).findings } ∧
      (audit (fs.remove place) s root).findings =
        (discover fs s root).included.map (fun d => ⟨0, .undeclaredService, [d.name]⟩) ∧
      ((discover fs s root).included.Pairwise fun a b =>
        a.relativePath.toUTF8.data.toList < b.relativePath.toUTF8.data.toList) ∧
      (audit fs s root).passes = true := by
  have hread : fs.read (s.manifestOf root) = .ok bytes :=
    FileSystem.read_eq_ok_iff.2 (FileSystem.node_eq_ok_iff.2 ⟨place, hplace, hfile⟩)
  have hbefore : (audit fs s root).findings =
      unreadable (s.manifestOf root) (e.message (s.manifestOf root)) ::
        (discover fs s root).included.map Descriptor.undeclared := by
    rw [findings_of_absent (readManifest_of_isBroken hread hbroken),
      readDescriptors_findings_eq_nil fun _ => herrors]
    rfl
  have hafter : (audit (fs.remove place) s root).findings =
      (discover fs s root).included.map Descriptor.undeclared := by
    rw [findings_of_absent (readManifest_of_not_isFile (FileSystem.isFile_remove hfile hplace)),
      readDescriptors_findings_eq_nil fun _ => errors_discover_remove hfile hfolder herrors,
      included_remove hfile hfolder herrors hother]
    rfl
  refine ⟨?_, hafter, ?_, ?_⟩
  · rw [hafter]
    exact congrArg (BundleReport.mk root (s.manifestOf root)) hbefore
  · refine (ascending_included fs s root).imp fun hlt => Text.bytes_lt ?_
    exact compareOfLessAndEq_eq_lt.1 hlt
  · rw [BundleReport.passes, hbefore, List.all_eq_true]
    intro f hf
    rcases List.mem_cons.1 hf with rfl | hf
    · rfl
    · obtain ⟨d, -, rfl⟩ := List.mem_map.1 hf
      rfl

/-- The line behind the one that declares everything is malformed, so nothing is declared. -/
theorem audit_isBroken_late :
    let place := [⟨"META-INF", by decide⟩, ⟨"MANIFEST.MF", by decide⟩]
    let bytes := "Service-Component: OSGI-INF/*.xml\nbroken".toUTF8
    let fs := ((FileSystem.emptyAt []).putFile place bytes).putFile
      [⟨"OSGI-INF", by decide⟩, ⟨"a.xml", by decide⟩] "".toUTF8
    fs.resolve (({} : Settings).manifestOf ⟨"."⟩) = .ok place ∧
      fs.root.nodeAt? place = some (.file bytes) ∧
      Manifest.IsBroken bytes (.malformed ⟨2, "broken"⟩) ∧ fs.isFolder ⟨"."⟩ = true ∧
      (discover fs {} ⟨"."⟩).errors = [] ∧ (∀ d, ¬ fs.HasDescriptor {} ⟨"."⟩ place d) ∧
      (audit fs {} ⟨"."⟩).findings =
        [⟨0, .unreadableFile, ["./META-INF/MANIFEST.MF",
          "invalid manifest header at line 2: \"broken\""]⟩,
          ⟨0, .undeclaredService, ["a.xml"]⟩] := by
  intro place bytes fs
  have hplace : fs.resolve (({} : Settings).manifestOf ⟨"."⟩) = .ok place :=
    FileSystem.toOption_eq_some_iff.1 (by decide +kernel)
  have hfile : fs.root.nodeAt? place = some (.file bytes) := by decide +kernel
  have htext : String.fromUTF8? bytes = some "Service-Component: OSGI-INF/*.xml\nbroken" := by
    decide +kernel
  have hbroken : Manifest.IsBroken bytes (.malformed ⟨2, "broken"⟩) :=
    .malformed htext (by decide +kernel)
  have hfolder : fs.isFolder ⟨"."⟩ = true := by decide +kernel
  have herrors : (discover fs {} ⟨"."⟩).errors = [] := by decide +kernel
  have hnone : ∀ d, ¬ fs.HasDescriptor {} ⟨"."⟩ place d := by
    intro d h
    obtain ⟨last, hlast, hextension⟩ := h.hasExtension
    cases hlast
    exact absurd hextension (by decide)
  refine ⟨hplace, hfile, hbroken, hfolder, herrors, hnone, ?_⟩
  have haudit := (audit_isBroken hplace hfile hbroken hfolder herrors
    fun d h => absurd h (hnone d)).1
  exact (congrArg BundleReport.findings haudit).trans (by decide +kernel)

end BundleAudit
