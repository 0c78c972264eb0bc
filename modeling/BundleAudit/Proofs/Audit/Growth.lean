import BundleAudit.Proofs.Audit.NonInterference
import BundleAudit.Proofs.Reconcile.Overlap
import Mathlib.Data.List.Flatten

/-!
# Adding files to a bundle

Descriptors that are added can take away errors and cannot bring any.  A wildcard that had something
left to match still has it, and a declared file that was there is still there.  What is wrong with a
declaration by itself stays wrong.

## Main definitions

* `Finding.IsLack f` — the finding that there is no file for a declaration.

## Main results

* `filter_isError_reconcile_sublist` — with more descriptors there are no more errors.
* `files_discover_subset` — with more files there are more descriptors.
* `audit_extends` — **added files bring no errors**.
-/

namespace BundleAudit

/-- The finding that there is no file for a declaration. -/
def Finding.IsLack (f : Finding) : Prop := f.kind = .matchesNothing ∨ f.kind = .missingService

instance (f : Finding) : Decidable f.IsLack := inferInstanceAs (Decidable (_ ∨ _))

/-! ### More descriptors -/

section

variable {s : Settings} {files files' : List Descriptor} {line : Nat} {ds before : List Declaration}
  {d : Declaration} {headerLine : Option Nat}

theorem Declaration.HasNothingLeft.of_subset (hsub : ∀ f ∈ files, f ∈ files')
    (h : d.HasNothingLeft s files' before) : d.HasNothingLeft s files before :=
  ⟨h.1, fun f hf => h.2 f (hsub f hf)⟩

theorem faults_sublist (hsub : ∀ f ∈ files, f ∈ files') :
    (faults s files' line before d).Sublist (faults s files line before d) := by
  rw [faults, faults]
  refine (List.Sublist.refl _).append ?_
  split
  · next h => rw [if_pos (h.of_subset hsub)]
  · exact List.nil_sublist _

theorem missingFindings_sublist (hsub : ∀ f ∈ files, f ∈ files') :
    (missingFindings ds files' line).Sublist (missingFindings ds files line) := by
  refine (List.monotone_filter_right _ fun name hmissing => ?_).map _
  rw [decide_eq_true_iff] at hmissing ⊢
  rintro ⟨f, hf, hexcluded, hname⟩
  exact hmissing ⟨f, hsub f hf, hexcluded, hname⟩

theorem closingFaults_sublist (hsub : ∀ f ∈ files, f ∈ files') :
    (closingFaults s files' line ds).Sublist (closingFaults s files line ds) := by
  rw [closingFaults, closingFaults]
  split
  · exact missingFindings_sublist hsub
  · exact List.Sublist.refl _

/-- With more descriptors there are no more errors. -/
theorem filter_isError_reconcile_sublist (hsub : ∀ f ∈ files, f ∈ files') :
    ((reconcile s ds files' headerLine).filter Finding.isError).Sublist
      ((reconcile s ds files headerLine).filter Finding.isError) := by
  rw [filter_isError_reconcile, filter_isError_reconcile]
  exact (List.Sublist.flatMap_right _ fun p _ => faults_sublist hsub).append
    (closingFaults_sublist hsub)

/-! ### Errors that are no lack -/

theorem filter_faults : (faults s files line before d).filter (fun f => ¬ f.IsLack) =
    (folderRemarks s line d ++ if d.hasExtension then ([] : List Finding)
      else [⟨line, .wrongExtension, [d.baseName]⟩]).filter (fun f => ¬ f.IsLack) := by
  -- only the last part looks at the descriptors
  have hlack : (if d.HasNothingLeft s files before then [⟨line, .matchesNothing, [d.raw]⟩]
      else ([] : List Finding)).filter (fun f => ¬ f.IsLack) = [] := by
    split <;> rfl
  rw [faults, List.filter_append, hlack, List.append_nil]

theorem filter_missingFindings :
    (missingFindings ds files line).filter (fun f => ¬ f.IsLack) = [] := by
  refine List.filter_eq_nil_iff.2 fun f hf => ?_
  rw [decide_eq_true_iff, not_not]
  exact Or.inr (kind_of_mem_missingFindings hf)

theorem filter_closingFaults (files' : List Descriptor) :
    (closingFaults s files line ds).filter (fun f => ¬ f.IsLack) =
      (closingFaults s files' line ds).filter (fun f => ¬ f.IsLack) := by
  rw [closingFaults, closingFaults]
  split
  · rw [filter_missingFindings, filter_missingFindings]
  · rfl

/-- Which descriptors there are has no part in the other errors. -/
theorem filter_not_isLack_reconcile :
    ((reconcile s ds files headerLine).filter Finding.isError).filter (fun f => ¬ f.IsLack) =
      ((reconcile s ds files' headerLine).filter Finding.isError).filter (fun f => ¬ f.IsLack) := by
  rw [filter_isError_reconcile, filter_isError_reconcile, List.filter_append, List.filter_append,
    List.filter_flatMap, List.filter_flatMap, filter_closingFaults files']
  simp only [filter_faults]

end

/-! ### More files -/

section

variable {fs fs' : FileSystem} {s : Settings} {root : Path} {f : Finding}

/-- With more files there are more descriptors. -/
theorem files_discover_subset (h : fs.Extends fs') :
    ∀ d ∈ (discover fs s root).files, d ∈ (discover fs' s root).files := by
  intro d hd
  obtain ⟨entries, hnode⟩ := exists_folder_of_mem_files hd
  obtain ⟨entries', hnode', hfiles⟩ := h.node_folder hnode
  obtain ⟨names, below, hfile, hrest⟩ := (mem_files_discover_iff hnode).1 hd
  exact (mem_files_discover_iff hnode').2 ⟨names, below, hfiles names hfile, hrest⟩

theorem readDescriptors_fst : (readDescriptors fs s root).1 = (discover fs s root).files := by
  rw [readDescriptors]
  split
  · rfl
  · next hfolder =>
    refine (List.eq_nil_iff_forall_not_mem.2 fun d hd => ?_).symm
    exact hfolder (FileSystem.isFolder_iff.2 (exists_folder_of_mem_files hd))

/-! ### The errors of an audit -/

theorem isError_eq_false_of_isUnreadable (h : f.IsUnreadable) : f.isError = false := by
  obtain ⟨p, message, rfl⟩ := h
  rfl

/-- What cannot be read is no error. -/
theorem filter_isError_audit (fs : FileSystem) (s : Settings) (root : Path) :
    (audit fs s root).findings.filter Finding.isError =
      (reconcile s (declarationsOf s (readManifest fs s (s.manifestOf root)).1.headerValue)
        (discover fs s root).files
        (readManifest fs s (s.manifestOf root)).1.headerLine).filter Finding.isError := by
  have hmanifest : (readManifest fs s (s.manifestOf root)).2.filter Finding.isError = [] := by
    refine List.filter_eq_nil_iff.2 fun f hf => ?_
    rcases readManifest_cases fs s (s.manifestOf root) with ⟨m, -, hread⟩ | ⟨-, hfindings⟩
    · rw [hread] at hf
      exact absurd hf List.not_mem_nil
    · simp [isError_eq_false_of_isUnreadable (hfindings f hf)]
  have hsearch : (readDescriptors fs s root).2.filter Finding.isError = [] := by
    refine List.filter_eq_nil_iff.2 fun f hf => ?_
    simp [isError_eq_false_of_isUnreadable (isUnreadable_of_mem_readDescriptors hf)]
  rw [audit_findings, List.filter_append, List.filter_append, hmanifest, hsearch,
    readDescriptors_fst]
  rfl

theorem passes_of_sublist {r r' : BundleReport}
    (h : (r'.findings.filter Finding.isError).Sublist (r.findings.filter Finding.isError))
    (hpasses : r.passes = true) : r'.passes = true := by
  cases hfails : r'.passes with
  | true => rfl
  | false =>
    obtain ⟨f, hf, herror⟩ := BundleReport.passes_eq_false_iff.1 hfails
    have hmem := List.mem_filter.1 (h.subset (List.mem_filter.2 ⟨hf, herror⟩))
    rw [BundleReport.passes_eq_false_iff.2 ⟨f, hmem⟩] at hpasses
    cases hpasses

/-- **Added files bring no errors.**  If all files and folders stay and the manifest is read as
before, the errors that an audit reports are among those that it reported, none more often.  The
ones that are gone were about declarations without a file.  A bundle that passed passes. -/
theorem audit_extends (h : fs.Extends fs')
    (hmanifest : (fs.read (s.manifestOf root)).toOption = (fs'.read (s.manifestOf root)).toOption) :
    ((audit fs' s root).findings.filter Finding.isError).Sublist
        ((audit fs s root).findings.filter Finding.isError) ∧
      (∀ f : Finding, f.isError = true →
        (audit fs' s root).findings.count f ≤ (audit fs s root).findings.count f) ∧
      (∀ f : Finding, f.isError = true → ¬ f.IsLack →
        (audit fs' s root).findings.count f = (audit fs s root).findings.count f) ∧
      ((audit fs s root).passes = true → (audit fs' s root).passes = true) := by
  have hsublist : ((audit fs' s root).findings.filter Finding.isError).Sublist
      ((audit fs s root).findings.filter Finding.isError) := by
    rw [filter_isError_audit, filter_isError_audit, readManifest_congr hmanifest]
    exact filter_isError_reconcile_sublist (files_discover_subset h)
  refine ⟨hsublist, fun f hf => ?_, fun f hf hlack => ?_, passes_of_sublist hsublist⟩
  · rw [← List.count_filter hf, ← List.count_filter hf (l := (audit fs s root).findings)]
    exact hsublist.count_le f
  · have hother : ∀ findings : List Finding,
        (findings.filter fun f => ¬ f.IsLack).count f = findings.count f := fun findings =>
      List.count_filter (decide_eq_true hlack)
    -- counted among the errors, and among those that are no lack
    rw [← List.count_filter hf, ← List.count_filter hf (l := (audit fs s root).findings),
      filter_isError_audit, filter_isError_audit, readManifest_congr hmanifest, ← hother,
      filter_not_isLack_reconcile, hother]

end

/-- Of two files that are added, one is declared and one has an earlier wildcard match. -/
theorem audit_extends_twice :
    let fs := (FileSystem.emptyAt []).putFile [⟨"META-INF", by decide⟩, ⟨"MANIFEST.MF", by decide⟩]
      "Service-Component: OSGI-INF/a*.xml,OSGI-INF/b.xml,web/c.xml".toUTF8
    let fs₁ := fs.putFile [⟨"OSGI-INF", by decide⟩, ⟨"ab.xml", by decide⟩] "".toUTF8
    let fs₂ := fs₁.putFile [⟨"OSGI-INF", by decide⟩, ⟨"b.xml", by decide⟩] "".toUTF8
    ((audit fs {} ⟨"."⟩).findings.filter Finding.isError).map Finding.kind =
        [.matchesNothing, .wrongDirectory, .missingService, .missingService] ∧
      ((audit fs₂ {} ⟨"."⟩).findings.filter Finding.isError).map Finding.kind =
        [.wrongDirectory, .missingService] ∧
      ((audit fs₂ {} ⟨"."⟩).findings.filter Finding.isError).Sublist
        ((audit fs {} ⟨"."⟩).findings.filter Finding.isError) := by
  intro fs fs₁ fs₂
  have hfirst : fs.Extends fs₁ := FileSystem.extends_putFile (by decide +kernel) "".toUTF8
  have hsecond : fs₁.Extends fs₂ := FileSystem.extends_putFile (by decide +kernel) "".toUTF8
  exact ⟨by decide +kernel, by decide +kernel,
    (audit_extends (hfirst.trans hsecond) (by decide +kernel)).1⟩

end BundleAudit
