import BundleAudit.Proofs.Reconcile.Findings
import BundleAudit.Report.Basic
import Mathlib.Data.List.Perm.Basic
import Mathlib.Data.List.TakeWhile

/-!
# Wildcards that overlap

A wildcard is held against the files that the wildcards before it have left over.  So it is an error
not only if it covers no file at all, but also if others before it cover all of its files, and which
of two overlapping wildcards is the error depends on their order.  This is all that the order of
declarations has to do with errors: where every wildcard has a file to itself, a bundle passes or
fails with its declarations in any order.

* `Declaration.HasNothingLeft s files before d` — a wildcard whose files others before it cover.
* `Declaration.HasOwnFile s files ds d` — one of the files is covered by this declaration alone.
* `faults s files line before d` — the errors about a declaration that stands after others.
* `filter_isError_reconcile` — the errors as a whole, for any declarations.
* `perm_errors_reconcile` — the order of declarations does not matter to the errors if every
  wildcard has a file to itself.
-/

namespace BundleAudit

/-- A wildcard all of whose files are covered by the wildcards before it. -/
def Declaration.HasNothingLeft (s : Settings) (files : List Descriptor) (before : List Declaration)
    (d : Declaration) : Prop :=
  d.isPartial ∧ ∀ f ∈ files, f.excluded = false → d.Covers s f.name →
    ∃ e ∈ before, e.isPartial ∧ e.Covers s f.name

instance (s : Settings) (files : List Descriptor) (before : List Declaration) (d : Declaration) :
    Decidable (d.HasNothingLeft s files before) :=
  inferInstanceAs (Decidable (_ ∧ _))

/-- A file is covered by a declaration and by no other wildcard among declarations. -/
def Declaration.HasOwnFile (s : Settings) (files : List Descriptor) (ds : List Declaration)
    (d : Declaration) : Prop :=
  ∃ f ∈ files, f.excluded = false ∧ d.Covers s f.name ∧
    ∀ e ∈ ds.erase d, e.isPartial → ¬ e.Covers s f.name

instance (s : Settings) (files : List Descriptor) (ds : List Declaration) (d : Declaration) :
    Decidable (d.HasOwnFile s files ds) :=
  inferInstanceAs (Decidable (∃ f ∈ files, f.excluded = false ∧ d.Covers s f.name ∧
    ∀ e ∈ ds.erase d, e.isPartial → ¬ e.Covers s f.name))

/-- The declarations that come before one for everything. -/
def beforeAll (ds : List Declaration) : List Declaration := ds.takeWhile fun d => !d.endsPass

section Definitions

variable (s : Settings) (files : List Descriptor) (line : Nat)

/-- The errors about a declaration that stands after others. -/
def faults (before : List Declaration) (d : Declaration) : List Finding :=
  folderRemarks s line d ++
    (if d.hasExtension then [] else [⟨line, .wrongExtension, [d.baseName]⟩]) ++
    (if d.HasNothingLeft s files before then [⟨line, .matchesNothing, [d.raw]⟩] else [])

/-- What is found at the end of a pass: the balance, or what a declaration for everything adds. -/
def closing (ds : List Declaration) : List Finding :=
  match ds.find? Declaration.endsPass with
  | none => missingFindings ds files line ++ undeclaredFindings s ds files line
  | some g => folderRemarks s line g ++
      if 1 < ds.length then [⟨line, .repeatedService, []⟩] else []

/-- The errors among what is found at the end of a pass. -/
def closingFaults (ds : List Declaration) : List Finding :=
  match ds.find? Declaration.endsPass with
  | none => missingFindings ds files line
  | some g => folderRemarks s line g

end Definitions

section

variable {s : Settings} {files : List Descriptor} {line : Nat} {ds ds' before : List Declaration}
  {d : Declaration} {f : Finding} {headerLine : Option Nat}

/-! ### The findings as a whole -/

theorem beforeAll_eq_self (h : ds.find? Declaration.endsPass = none) : beforeAll ds = ds := by
  rw [beforeAll, List.takeWhile_eq_self_iff]
  intro d hd
  simpa using List.find?_eq_none.1 h d hd

theorem not_endsPass_of_mem_beforeAll (h : d ∈ beforeAll ds) : d.endsPass = false := by
  have hd := List.mem_takeWhile_imp h
  rwa [Bool.not_eq_true'] at hd

/-- **The findings for any declarations.**  Up to a declaration for everything they are those about
the declarations one by one. -/
theorem reconcile_eq_remarks_append (s : Settings) (ds : List Declaration)
    (files : List Descriptor) (headerLine : Option Nat) :
    reconcile s ds files headerLine =
      remarks s (includedNames files) (headerLine.getD 0) (beforeAll ds) ++
        closing s files (headerLine.getD 0) ds := by
  have hends : ∀ d ∈ beforeAll ds, d.endsPass = false := fun d => not_endsPass_of_mem_beforeAll
  cases h : ds.find? Declaration.endsPass with
  | none =>
    rw [beforeAll_eq_self h] at hends ⊢
    rw [reconcile_eq hends, closing, h]
  | some g =>
    obtain ⟨hg, before, after, rfl, hbefore⟩ := List.find?_eq_some_iff_append.1 h
    have hcut : beforeAll (before ++ g :: after) = before := by
      rw [beforeAll, List.takeWhile_append_of_pos hbefore,
        List.takeWhile_cons_of_neg (by rw [hg]; decide), List.append_nil]
    rw [hcut] at hends ⊢
    rw [reconcile_append_cons hends hg, closing, h]

/-! ### Wildcards with nothing left -/

theorem hasNothingLeft_iff : d.HasNothingLeft s files before ↔
    d.isPartial ∧ ¬ ∃ name ∈ uncoveredNames s (includedNames files) before, d.Covers s name := by
  rw [Declaration.HasNothingLeft]
  refine and_congr_right fun _ => ?_
  constructor
  · rintro h ⟨name, hname, hcov⟩
    obtain ⟨hin, hout⟩ := mem_uncoveredNames.1 hname
    obtain ⟨f, hf, hexc, rfl⟩ := mem_includedNames.1 hin
    obtain ⟨e, he, hpart, hecov⟩ := h f hf hexc hcov
    exact hout e he hpart hecov
  · intro h f hf hexc hcov
    by_contra hnone
    push Not at hnone
    exact h ⟨f.name, mem_uncoveredNames.2 ⟨mem_includedNames.2 ⟨f, hf, hexc, rfl⟩, hnone⟩, hcov⟩

/-- What is found about a declaration is its faults, and the advice perhaps. -/
theorem remarksOn_eq_faults_append :
    remarksOn s (includedNames files) line before d = faults s files line before d ++
      if d.InvitesAdvice s (includedNames files) ∧
          ¬ ∃ e ∈ before, e.InvitesAdvice s (includedNames files) then
        [⟨line, .includeAllAdvised, []⟩] else [] := by
  simp only [remarksOn, faults, hasNothingLeft_iff]

theorem isError_of_mem_folderRemarks (h : f ∈ folderRemarks s line d) : f.isError = true :=
  Finding.isError_iff.2 (Or.inl (kind_of_mem_folderRemarks h))

theorem isError_of_mem_faults (h : f ∈ faults s files line before d) : f.isError = true := by
  simp only [faults, List.mem_append, List.mem_ite_nil_left, List.mem_ite_nil_right,
    List.mem_singleton] at h
  rcases h with (h | ⟨-, rfl⟩) | ⟨-, rfl⟩
  · exact isError_of_mem_folderRemarks h
  · rfl
  · rfl

/-- The advice is no error. -/
theorem filter_isError_remarksOn :
    (remarksOn s (includedNames files) line before d).filter Finding.isError =
      faults s files line before d := by
  rw [remarksOn_eq_faults_append, List.filter_append,
    List.filter_eq_self.2 fun f hf => isError_of_mem_faults hf, List.append_right_eq_self]
  split <;> rfl

theorem filter_matchesNothing_remarksOn :
    (remarksOn s (includedNames files) line before d).filter (fun f => f.kind = .matchesNothing) =
      if d.HasNothingLeft s files before then [⟨line, .matchesNothing, [d.raw]⟩] else [] := by
  have hfolder : (folderRemarks s line d).filter (fun f => f.kind = .matchesNothing) = [] := by
    refine List.filter_eq_nil_iff.2 fun f hf => ?_
    rw [kind_of_mem_folderRemarks hf]
    decide
  rw [remarksOn_eq_faults_append, faults]
  simp only [List.filter_append, hfolder, List.nil_append]
  split <;> split <;> split <;> rfl

theorem not_matchesNothing_of_mem_closing (h : f ∈ closing s files line ds) :
    f.kind ≠ .matchesNothing := by
  rw [closing] at h
  split at h
  · rcases isBalance_of_mem_balance h with hkind | hkind <;> simp [hkind]
  · rcases List.mem_append.1 h with h | h
    · simp [kind_of_mem_folderRemarks h]
    · rw [List.mem_ite_nil_right, List.mem_singleton] at h
      simp [h.2]

theorem filter_matchesNothing_reconcile (s : Settings) (ds : List Declaration)
    (files : List Descriptor) (headerLine : Option Nat) :
    (reconcile s ds files headerLine).filter (fun f => f.kind = .matchesNothing) =
      (beforeAll ds).zipIdx.flatMap fun p =>
        if p.1.HasNothingLeft s files ((beforeAll ds).take p.2) then
          [⟨headerLine.getD 0, .matchesNothing, [p.1.raw]⟩] else [] := by
  have hclosing : (closing s files (headerLine.getD 0) ds).filter
      (fun f => f.kind = .matchesNothing) = [] := by
    refine List.filter_eq_nil_iff.2 fun f hf => ?_
    simpa using not_matchesNothing_of_mem_closing hf
  rw [reconcile_eq_remarks_append, List.filter_append, hclosing, List.append_nil, remarks,
    List.filter_flatMap]
  simp only [filter_matchesNothing_remarksOn]

/-! ### The errors as a whole -/

theorem isError_of_mem_missingFindings (h : f ∈ missingFindings ds files line) :
    f.isError = true :=
  Finding.isError_iff.2 (Or.inr (Or.inr (Or.inr (kind_of_mem_missingFindings h))))

theorem filter_isError_closing :
    (closing s files line ds).filter Finding.isError = closingFaults s files line ds := by
  rw [closing, closingFaults]
  split
  · have hundeclared : (undeclaredFindings s ds files line).filter Finding.isError = [] := by
      refine List.filter_eq_nil_iff.2 fun f hf => ?_
      rw [Finding.isError_iff, kind_of_mem_undeclaredFindings hf]
      decide
    rw [List.filter_append, hundeclared, List.append_nil,
      List.filter_eq_self.2 fun f hf => isError_of_mem_missingFindings hf]
  · rw [List.filter_append, List.filter_eq_self.2 fun f hf => isError_of_mem_folderRemarks hf,
      List.append_right_eq_self]
    split <;> rfl

/-- **The errors.**  They are the faults of the declarations up to one for everything, each held
against those before it, and what the end of the pass adds. -/
theorem filter_isError_reconcile :
    (reconcile s ds files headerLine).filter Finding.isError =
      ((beforeAll ds).zipIdx.flatMap fun p =>
        faults s files (headerLine.getD 0) ((beforeAll ds).take p.2) p.1) ++
      closingFaults s files (headerLine.getD 0) ds := by
  rw [reconcile_eq_remarks_append, List.filter_append, filter_isError_closing, remarks,
    List.filter_flatMap]
  simp only [filter_isError_remarksOn]

/-! ### Declarations in another order -/

theorem hasNothingLeft_mono {others : List Declaration} (hsub : ∀ e ∈ before, e ∈ others)
    (h : d.HasNothingLeft s files before) : d.HasNothingLeft s files others := by
  refine ⟨h.1, fun f hf hexc hcov => ?_⟩
  obtain ⟨e, he, hecov⟩ := h.2 f hf hexc hcov
  exact ⟨e, hsub e he, hecov⟩

theorem not_hasNothingLeft_erase (h : d.HasOwnFile s files ds) :
    ¬ d.HasNothingLeft s files (ds.erase d) := by
  obtain ⟨f, hf, hexc, hcov, hown⟩ := h
  intro hleft
  obtain ⟨e, he, hpart, hecov⟩ := hleft.2 f hf hexc hcov
  exact hown e he hpart hecov

theorem Declaration.HasOwnFile.perm (h : d.HasOwnFile s files ds) (hperm : ds.Perm ds') :
    d.HasOwnFile s files ds' := by
  obtain ⟨f, hf, hexc, hcov, hown⟩ := h
  exact ⟨f, hf, hexc, hcov, fun e he => hown e ((hperm.erase d).mem_iff.2 he)⟩

/-- What stands before a declaration is among the others. -/
theorem mem_erase_of_mem_take {i : Nat} (hi : ds[i]? = some d) {e : Declaration}
    (he : e ∈ ds.take i) : e ∈ ds.erase d := by
  obtain ⟨hlt, rfl⟩ := List.getElem?_eq_some_iff.1 hi
  have hperm : ds.Perm (ds[i] :: (ds.take i ++ ds.drop (i + 1))) := by
    conv_lhs => rw [← List.take_append_drop i ds, List.drop_eq_getElem_cons hlt]
    exact List.perm_middle
  have herase := hperm.erase ds[i]
  rw [List.erase_cons_head] at herase
  exact herase.mem_iff.2 (List.mem_append_left _ he)

/-- A wildcard with a file to itself is no error wherever it stands, and one that covers no file is
an error everywhere. -/
theorem faults_eq_faults_nil {i : Nat} (hi : ds[i]? = some d)
    (hown : d.isPartial → d.HasNothingLeft s files [] ∨ d.HasOwnFile s files ds) :
    faults s files line (ds.take i) d = faults s files line [] d := by
  have hiff : d.HasNothingLeft s files (ds.take i) ↔ d.HasNothingLeft s files [] := by
    constructor
    · intro h
      refine (hown h.1).resolve_right fun howns => ?_
      exact not_hasNothingLeft_erase howns
        (hasNothingLeft_mono (fun e he => mem_erase_of_mem_take hi he) h)
    · exact hasNothingLeft_mono fun e he => absurd he List.not_mem_nil
  simp only [faults, hiff]

theorem flatMap_faults
    (hown : ∀ d ∈ ds, d.isPartial → d.HasNothingLeft s files [] ∨ d.HasOwnFile s files ds) :
    (ds.zipIdx.flatMap fun p => faults s files line (ds.take p.2) p.1) =
      ds.flatMap (faults s files line []) := by
  calc (ds.zipIdx.flatMap fun p => faults s files line (ds.take p.2) p.1)
      = ds.zipIdx.flatMap fun p => faults s files line [] p.1 := by
        refine List.flatMap_congr fun p hp => ?_
        have hi : ds[p.2]? = some p.1 := List.mem_zipIdx_iff_getElem?.1 hp
        exact faults_eq_faults_nil hi (hown p.1 (List.mem_of_getElem? hi))
    _ = (ds.zipIdx.map Prod.fst).flatMap (faults s files line []) := by
        rw [List.flatMap_map]
    _ = ds.flatMap (faults s files line []) := by
        rw [List.zipIdx_map_fst]

theorem perm_declaredNames (h : ds.Perm ds') : (declaredNames ds).Perm (declaredNames ds') := by
  refine (List.perm_ext_iff_of_nodup (nodup_declaredNames ds) (nodup_declaredNames ds')).2 ?_
  intro name
  simp only [mem_declaredNames, h.mem_iff]

theorem perm_closingFaults (hperm : (beforeAll ds).Perm (beforeAll ds'))
    (hfind : ds.find? Declaration.endsPass = ds'.find? Declaration.endsPass) :
    (closingFaults s files line ds).Perm (closingFaults s files line ds') := by
  rw [closingFaults, closingFaults, ← hfind]
  cases h : ds.find? Declaration.endsPass with
  | none =>
    rw [beforeAll_eq_self h, beforeAll_eq_self (hfind.symm.trans h)] at hperm
    exact ((perm_declaredNames hperm).filter _).map _
  | some g => exact List.Perm.refl _

/-- **Errors in any order.**  If every wildcard that covers a file has one to itself, declarations
in another order lead to the same errors. -/
theorem perm_errors_reconcile
    (hown : ∀ d ∈ beforeAll ds, d.isPartial →
      d.HasNothingLeft s files [] ∨ d.HasOwnFile s files (beforeAll ds))
    (hperm : (beforeAll ds).Perm (beforeAll ds'))
    (hfind : ds.find? Declaration.endsPass = ds'.find? Declaration.endsPass) :
    ((reconcile s ds files headerLine).filter Finding.isError).Perm
      ((reconcile s ds' files headerLine).filter Finding.isError) := by
  have hown' : ∀ d ∈ beforeAll ds', d.isPartial →
      d.HasNothingLeft s files [] ∨ d.HasOwnFile s files (beforeAll ds') := by
    intro d hd hpart
    exact (hown d (hperm.mem_iff.2 hd) hpart).imp_right fun h => h.perm hperm
  rw [filter_isError_reconcile, filter_isError_reconcile, flatMap_faults hown, flatMap_faults hown']
  exact (hperm.flatMap_right _).append (perm_closingFaults hperm hfind)

theorem passes_append_eq {findings findings' : List Finding}
    (h : (findings.filter Finding.isError).Perm (findings'.filter Finding.isError))
    (bundle manifest : Path) (others : List Finding) :
    (BundleReport.mk bundle manifest (others ++ findings)).passes =
      (BundleReport.mk bundle manifest (others ++ findings')).passes := by
  have hmem : ∀ f, (f ∈ findings ∧ f.isError = true) ↔ (f ∈ findings' ∧ f.isError = true) := by
    intro f
    rw [← List.mem_filter, ← List.mem_filter, h.mem_iff]
  refine Bool.eq_iff_iff.2 (not_iff_not.1 ?_)
  simp only [Bool.not_eq_true, BundleReport.passes_eq_false_iff, List.mem_append, or_and_right,
    hmem]

/-- **Wildcards without a match.**  They are the wildcards with nothing left, those that cover no
file among them.  If every wildcard that covers a file has one to itself, a bundle passes or fails
with its declarations in any order. -/
theorem reconcile_matchesNothing (s : Settings) (ds : List Declaration) (files : List Descriptor)
    (headerLine : Option Nat) :
    ((reconcile s ds files headerLine).filter (fun f => f.kind = .matchesNothing) =
      (beforeAll ds).zipIdx.flatMap fun p =>
        if p.1.HasNothingLeft s files ((beforeAll ds).take p.2) then
          [⟨headerLine.getD 0, .matchesNothing, [p.1.raw]⟩] else []) ∧
    (∀ f ∈ reconcile s ds files headerLine, f.kind = .matchesNothing →
      ∃ d ∈ ds, d.isPartial ∧ f.message s =
        "The service component " ++ d.raw ++ " does not match any of the existing services.") ∧
    ((∀ d ∈ beforeAll ds, d.isPartial →
        (∃ f ∈ files, f.excluded = false ∧ d.Covers s f.name) →
        d.HasOwnFile s files (beforeAll ds)) →
      ∀ ds', (beforeAll ds).Perm (beforeAll ds') →
        ds.find? Declaration.endsPass = ds'.find? Declaration.endsPass →
        ∀ bundle manifest others,
          (BundleReport.mk bundle manifest (others ++ reconcile s ds files headerLine)).passes =
            (BundleReport.mk bundle manifest
              (others ++ reconcile s ds' files headerLine)).passes) := by
  have hfilter := filter_matchesNothing_reconcile s ds files headerLine
  refine ⟨hfilter, ?_, ?_⟩
  · intro f hf hkind
    have hmem : f ∈ (reconcile s ds files headerLine).filter fun f => f.kind = .matchesNothing :=
      List.mem_filter.2 ⟨hf, decide_eq_true hkind⟩
    rw [hfilter] at hmem
    obtain ⟨p, hp, hfp⟩ := List.mem_flatMap.1 hmem
    have hpds : p.1 ∈ ds := (List.takeWhile_sublist _).subset (List.fst_mem_of_mem_zipIdx hp)
    rw [List.mem_ite_nil_right, List.mem_singleton] at hfp
    obtain ⟨hleft, rfl⟩ := hfp
    exact ⟨p.1, hpds, hleft.1, rfl⟩
  · intro hown ds' hperm hfind bundle manifest others
    refine passes_append_eq (perm_errors_reconcile ?_ hperm hfind) bundle manifest others
    intro d hd hpart
    by_cases hcov : ∃ f ∈ files, f.excluded = false ∧ d.Covers s f.name
    · exact Or.inr (hown d hd hpart hcov)
    · exact Or.inl ⟨hpart, fun f hf hexc hf' => absurd ⟨f, hf, hexc, hf'⟩ hcov⟩

/-- Two wildcards that share a file, each with another to itself. -/
theorem reconcile_matchesNothing_reversed :
    let ds := declarations {} "OSGI-INF/a*.xml,OSGI-INF/*b.xml"
    let files : List Descriptor :=
      [⟨"a.xml", "a.xml", false⟩, ⟨"ab.xml", "ab.xml", false⟩, ⟨"b.xml", "b.xml", false⟩]
    ∀ bundle manifest others,
      (BundleReport.mk bundle manifest (others ++ reconcile {} ds files none)).passes =
        (BundleReport.mk bundle manifest
          (others ++ reconcile {} ds.reverse files none)).passes := by
  intro ds files
  have hown : ∀ d ∈ beforeAll ds, d.isPartial →
      (∃ f ∈ files, f.excluded = false ∧ d.Covers {} f.name) →
      d.HasOwnFile {} files (beforeAll ds) := by
    decide +kernel
  have hperm : (beforeAll ds).Perm (beforeAll ds.reverse) := by decide +kernel
  have hfind : ds.find? Declaration.endsPass = ds.reverse.find? Declaration.endsPass := by
    decide +kernel
  exact (reconcile_matchesNothing {} ds files none).2.2 hown ds.reverse hperm hfind

/-- A wildcard whose only file another has taken is an error, and in the other order neither is. -/
theorem reconcile_matchesNothing_covered :
    let ds := declarations {} "OSGI-INF/a*.xml,OSGI-INF/ab*.xml"
    let files : List Descriptor := [⟨"ab.xml", "ab.xml", false⟩, ⟨"ax.xml", "ax.xml", false⟩]
    (∃ f ∈ reconcile {} ds files (some 3), f.kind = .matchesNothing ∧
      f.message {} = "The service component OSGI-INF/ab*.xml " ++
        "does not match any of the existing services." ∧
      ∃ d ∈ ds, f.params = [d.raw] ∧ d.isPartial ∧ d.Covers {} "ab.xml") ∧
    ds.reverse = declarations {} "OSGI-INF/ab*.xml,OSGI-INF/a*.xml" ∧
    (reconcile {} ds files (some 3)).any Finding.isError = true ∧
    (reconcile {} ds.reverse files (some 3)).any Finding.isError = false := by
  decide +kernel

end

end BundleAudit
