import BundleAudit.Proofs.Reconcile.Summary
import Mathlib.Data.List.Nodup

/-!
# What reconciling finds

A pass goes over the declarations once and takes files away as it goes.  Its findings are described
here without the pass.  First come the findings about the declarations one by one, then the balance:
the declared descriptors that are missing, and the files that are not declared.  A declaration for
everything puts an end to this, and there is no balance then.

## Main definitions

* `IsAccountedFor s ds name` — a declaration covers files of a name.
* `missingFindings`, `undeclaredFindings` — the two parts of the balance.

## Main results

* `reconcile_eq` — the findings as a whole, when no declaration is for everything.
* `reconcile_append_cons` — the findings as a whole, when one is.

From these follow the exact lists of undeclared files and of missing descriptors, that no finding
contradicts another, the findings about single declarations with the one advice among them, and how
a declaration for everything cuts the findings off.
-/

namespace BundleAudit

/-! ### The balance -/

/-- A finding that is made only when all declarations have been gone through. -/
def Finding.IsBalance (f : Finding) : Prop :=
  f.kind = .missingService ∨ f.kind = .undeclaredService

instance (f : Finding) : Decidable f.IsBalance := inferInstanceAs (Decidable (_ ∨ _))

/-- A declaration of just this name, or of a wildcard that covers it. -/
def IsAccountedFor (s : Settings) (ds : List Declaration) (name : String) : Prop :=
  (∃ d ∈ ds, d.isExplicit ∧ d.baseName = name) ∨ ∃ d ∈ ds, d.isPartial ∧ d.Covers s name

instance (s : Settings) (ds : List Declaration) (name : String) :
    Decidable (IsAccountedFor s ds name) :=
  inferInstanceAs (Decidable (_ ∨ _))

section Balance

variable (s : Settings) (ds : List Declaration) (files : List Descriptor) (line : Nat)

/-- The declared base names that no file has, left-out files apart. -/
def missingFindings : List Finding :=
  ((declaredNames ds).filter fun name => ¬ ∃ f ∈ files, f.excluded = false ∧ f.name = name).map
    fun name => ⟨line, .missingService, [name]⟩

/-- The files that no declaration accounts for, left-out files apart. -/
def undeclaredFindings : List Finding :=
  (files.filter fun f => f.excluded = false ∧ ¬ IsAccountedFor s ds f.name).map
    fun f => ⟨line, .undeclaredService, [f.name]⟩

end Balance

section

variable {s : Settings} {names : List String} {line : Nat} {ds : List Declaration}
  {files : List Descriptor} {d : Declaration} {f : Finding}

theorem mem_includedNames {name : String} :
    name ∈ includedNames files ↔ ∃ f ∈ files, f.excluded = false ∧ f.name = name := by
  simp only [includedNames, List.mem_map, List.mem_filter, Bool.not_eq_true', and_assoc]

theorem nodup_declaredNames (ds : List Declaration) : (declaredNames ds).Nodup := by
  induction ds using List.reverseRecOn with
  | nil => exact List.nodup_nil
  | append_singleton ds d ih =>
    cases h : d.isExplicit with
    | false => rwa [declaredNames_concat_of_not_isExplicit h]
    | true =>
      rw [declaredNames_concat_of_isExplicit h]
      split
      · exact ih
      · next hout =>
        rw [← List.concat_eq_append]
        exact List.Nodup.concat hout ih

theorem isAccountedFor_iff {name : String} (hname : name ∈ names) :
    IsAccountedFor s ds name ↔ name ∈ declaredNames ds ∨ name ∉ uncoveredNames s names ds := by
  rw [IsAccountedFor, mem_declaredNames, mem_uncoveredNames]
  refine or_congr_right ?_
  simp only [hname, true_and, not_forall, not_not, exists_prop]

theorem kind_of_mem_missingFindings (h : f ∈ missingFindings ds files line) :
    f.kind = .missingService := by
  obtain ⟨name, -, rfl⟩ := List.mem_map.1 h
  rfl

theorem kind_of_mem_undeclaredFindings (h : f ∈ undeclaredFindings s ds files line) :
    f.kind = .undeclaredService := by
  obtain ⟨g, -, rfl⟩ := List.mem_map.1 h
  rfl

theorem kind_of_mem_folderRemarks (h : f ∈ folderRemarks s line d) : f.kind = .wrongDirectory := by
  rw [folderRemarks] at h
  split at h
  · exact absurd h List.not_mem_nil
  · rw [List.mem_singleton.1 h]

theorem kind_of_mem_remarksOn (h : f ∈ remarksOn s names line ds d) :
    f.kind = .wrongDirectory ∨ f.kind = .wrongExtension ∨ f.kind = .matchesNothing ∨
      f.kind = .includeAllAdvised := by
  simp only [remarksOn, List.mem_append] at h
  rcases h with ((h | h) | h) | h
  · exact Or.inl (kind_of_mem_folderRemarks h)
  · split at h <;> simp_all
  · split at h <;> simp_all
  · split at h <;> simp_all

/-- The four kinds of findings about single declarations. -/
theorem kind_of_mem_remarks (h : f ∈ remarks s names line ds) :
    f.kind = .wrongDirectory ∨ f.kind = .wrongExtension ∨ f.kind = .matchesNothing ∨
      f.kind = .includeAllAdvised := by
  obtain ⟨p, -, hf⟩ := List.mem_flatMap.1 h
  exact kind_of_mem_remarksOn hf

theorem not_isBalance_of_mem_remarks (h : f ∈ remarks s names line ds) : ¬ f.IsBalance := by
  rcases kind_of_mem_remarks h with hf | hf | hf | hf <;> simp [Finding.IsBalance, hf]

end

/-! ### The findings as a whole -/

section

variable {r : Reconciliation} {s : Settings} {ds : List Declaration} {files : List Descriptor}

theorem Reconciliation.undeclaredLine_eq (r : Reconciliation) : r.undeclaredLine = r.line := by
  unfold undeclaredLine line
  cases r.headerLine <;> rfl

theorem Reconciliation.missing_summary (hex : r.existing = includedNames files) :
    r.missing (summary s (includedNames files) ds) = missingFindings ds files r.line := by
  simp only [missing, summary, missingFindings, hex, mem_includedNames, finding]

/-- What is left uncovered and not declared is what no declaration accounts for. -/
theorem Reconciliation.undeclared_summary :
    r.undeclared (summary s (includedNames files) ds) = undeclaredFindings s ds files r.line := by
  have hfilter : (uncoveredNames s (includedNames files) ds).filter (fun name =>
      name ∉ declaredNames ds) = (files.filter fun f =>
      f.excluded = false ∧ ¬ IsAccountedFor s ds f.name).map Descriptor.name := by
    rw [uncoveredNames, List.filter_filter, includedNames, List.filter_map, List.filter_filter]
    refine congrArg (List.map Descriptor.name) (List.filter_congr fun f hf => ?_)
    by_cases hexc : f.excluded = false
    · have hname : f.name ∈ includedNames files := mem_includedNames.2 ⟨f, hf, hexc, rfl⟩
      simp [hexc, isAccountedFor_iff hname, mem_uncoveredNames, hname]
    · simp [hexc]
  calc r.undeclared (summary s (includedNames files) ds)
      = ((uncoveredNames s (includedNames files) ds).filter fun name =>
          name ∉ declaredNames ds).map fun name => ⟨r.line, .undeclaredService, [name]⟩ := by
        rw [undeclared, undeclaredLine_eq]
        rfl
    _ = undeclaredFindings s ds files r.line := by
        rw [hfilter, List.map_map]
        rfl

/-- The findings about some declarations come before all that the others lead to. -/
theorem reconcile_append {before : List Declaration} (h : ∀ d ∈ before, d.endsPass = false)
    (after : List Declaration) (files : List Descriptor) (headerLine : Option Nat) :
    reconcile s (before ++ after) files headerLine =
      remarks s (includedNames files) (headerLine.getD 0) before ++
        Reconciliation.pass ⟨s, headerLine, includedNames files, (before ++ after).length⟩
          (summary s (includedNames files) before) after :=
  Reconciliation.pass_append h after

/-- **The findings without the pass.**  If no declaration is for everything, the findings about the
declarations come first, then the missing descriptors, then the undeclared files. -/
theorem reconcile_eq (h : ∀ d ∈ ds, d.endsPass = false) (files : List Descriptor)
    (headerLine : Option Nat) :
    reconcile s ds files headerLine =
      remarks s (includedNames files) (headerLine.getD 0) ds ++
        (missingFindings ds files (headerLine.getD 0) ++
          undeclaredFindings s ds files (headerLine.getD 0)) := by
  have happend := reconcile_append h [] files headerLine (s := s)
  rw [List.append_nil, Reconciliation.pass_nil, Reconciliation.missing_summary rfl,
    Reconciliation.undeclared_summary] at happend
  exact happend

/-- The number of declarations matters only to a declaration for everything. -/
theorem Reconciliation.pass_count (h : ∀ d ∈ ds, d.endsPass = false) (p : Progress) (n : Nat) :
    ({ r with count := n } : Reconciliation).pass p ds = r.pass p ds := by
  induction ds generalizing p with
  | nil => rfl
  | cons d ds ih =>
    have ih' := ih fun e he => h e (List.mem_cons_of_mem _ he)
    have hd : d.endsPass = false := h d List.mem_cons_self
    simp only [pass, ih']
    cases hext : d.hasExtension with
    | false => rfl
    | true =>
      -- the number is looked at in the branch that is not taken
      have hall : d.includesAll = false := by simpa [Declaration.endsPass, hext] using hd
      rw [hall]
      rfl

end

/-! ### Undeclared files -/

section

variable {s : Settings} {names : List String} {line : Nat} {ds before after : List Declaration}
  {d : Declaration}

/-- **Undeclared files.**  The findings end with the files that are not left out and that no
declaration anywhere in the list accounts for, one finding for each file, in the order of the
files; nothing before them reports an undeclared file. -/
theorem reconcile_undeclared (h : ∀ d ∈ ds, d.endsPass = false) (files : List Descriptor)
    (headerLine : Option Nat) :
    ∃ front, (∀ f ∈ front, f.kind ≠ .undeclaredService) ∧
      reconcile s ds files headerLine = front ++
        (files.filter fun f => f.excluded = false ∧ ¬ IsAccountedFor s ds f.name).map fun f =>
          ⟨headerLine.getD 0, .undeclaredService, [f.name]⟩ := by
  refine ⟨remarks s (includedNames files) (headerLine.getD 0) ds ++
    missingFindings ds files (headerLine.getD 0), ?_, ?_⟩
  · intro f hf hkind
    rcases List.mem_append.1 hf with hf | hf
    · exact not_isBalance_of_mem_remarks hf (Or.inr hkind)
    · rw [kind_of_mem_missingFindings hf] at hkind
      exact absurd hkind (by decide)
  · rw [reconcile_eq h, List.append_assoc]
    rfl

/-- Two wildcards that overlap, a declared file, a left-out file, and two files of one name. -/
theorem reconcile_undeclared_twice :
    (∀ d ∈ declarations {} "OSGI-INF/a*.xml,web/*b.xml,OSGI-INF/c.xml", d.endsPass = false) ∧
      ∃ front, (∀ f ∈ front, f.kind ≠ .undeclaredService) ∧
        reconcile {} (declarations {} "OSGI-INF/a*.xml,web/*b.xml,OSGI-INF/c.xml")
            [⟨"d.xml", "d.xml", false⟩, ⟨"ab.xml", "ab.xml", false⟩, ⟨"c.xml", "c.xml", false⟩,
              ⟨"e.xml", "old/e.xml", true⟩, ⟨"d.xml", "old/d.xml", false⟩] (some 3) =
          front ++ [⟨3, .undeclaredService, ["d.xml"]⟩, ⟨3, .undeclaredService, ["d.xml"]⟩] := by
  have h : ∀ d ∈ declarations {} "OSGI-INF/a*.xml,web/*b.xml,OSGI-INF/c.xml",
      d.endsPass = false := by decide
  obtain ⟨front, hfront, heq⟩ := reconcile_undeclared h
    [⟨"d.xml", "d.xml", false⟩, ⟨"ab.xml", "ab.xml", false⟩, ⟨"c.xml", "c.xml", false⟩,
      ⟨"e.xml", "old/e.xml", true⟩, ⟨"d.xml", "old/d.xml", false⟩] (some 3)
  exact ⟨h, front, hfront, heq.trans (congrArg (front ++ ·) (by decide))⟩

/-! ### Findings about single declarations -/

theorem countP_remarksOn :
    (remarksOn s names line before d).countP (fun f => f.kind = .includeAllAdvised) =
      if d.InvitesAdvice s names ∧ ¬ ∃ e ∈ before, e.InvitesAdvice s names then 1 else 0 := by
  have hfolder : (folderRemarks s line d).countP (fun f => f.kind = .includeAllAdvised) = 0 := by
    refine List.countP_eq_zero.2 fun f hf => ?_
    rw [kind_of_mem_folderRemarks hf]
    decide
  rw [remarksOn, List.countP_append, List.countP_append, List.countP_append, hfolder]
  have hext : (if d.hasExtension then ([] : List Finding)
      else [⟨line, .wrongExtension, [d.baseName]⟩]).countP
        (fun f => f.kind = .includeAllAdvised) = 0 := by
    split <;> rfl
  have hnone : (if d.isPartial ∧ ¬ ∃ name ∈ uncoveredNames s names before, d.Covers s name then
      ([⟨line, .matchesNothing, [d.raw]⟩] : List Finding) else []).countP
        (fun f => f.kind = .includeAllAdvised) = 0 := by
    split <;> rfl
  rw [hext, hnone]
  split <;> rfl

/-- The advice is given once, by the first declaration that invites it. -/
theorem countP_remarks :
    (remarks s names line ds).countP (fun f => f.kind = .includeAllAdvised) =
      if ∃ d ∈ ds, d.InvitesAdvice s names then 1 else 0 := by
  induction ds using List.reverseRecOn with
  | nil => rfl
  | append_singleton ds d ih =>
    rw [remarks_concat, List.countP_append, ih, countP_remarksOn]
    by_cases hds : ∃ e ∈ ds, e.InvitesAdvice s names
    · simp only [exists_mem_concat, hds, true_or, if_true, not_true_eq_false, and_false, if_false]
    · simp only [exists_mem_concat, hds, false_or, if_false, not_false_eq_true, and_true,
        Nat.zero_add]

theorem isBalance_of_mem_balance {files : List Descriptor} {f : Finding}
    (hf : f ∈ missingFindings ds files line ++ undeclaredFindings s ds files line) :
    f.IsBalance := by
  rcases List.mem_append.1 hf with hf | hf
  · exact Or.inl (kind_of_mem_missingFindings hf)
  · exact Or.inr (kind_of_mem_undeclaredFindings hf)

/-- A declaration without the descriptor extension has two findings at most, and no others are due
to it. -/
theorem reconcile_insert_of_not_hasExtension (hbefore : ∀ e ∈ before, e.endsPass = false)
    (hafter : ∀ e ∈ after, e.endsPass = false) (hext : d.hasExtension = false)
    (files : List Descriptor) (headerLine : Option Nat) :
    ∃ front back, reconcile s (before ++ after) files headerLine = front ++ back ∧
      reconcile s (before ++ d :: after) files headerLine =
        front ++ (folderRemarks s (headerLine.getD 0) d ++
          [⟨headerLine.getD 0, .wrongExtension, [d.baseName]⟩]) ++ back := by
  refine ⟨remarks s (includedNames files) (headerLine.getD 0) before,
    Reconciliation.pass ⟨s, headerLine, includedNames files, (before ++ after).length⟩
      (summary s (includedNames files) before) after, reconcile_append hbefore after _ _, ?_⟩
  have hcount := Reconciliation.pass_count
    (r := ⟨s, headerLine, includedNames files, (before ++ after).length⟩) hafter
    (summary s (includedNames files) before) (before ++ d :: after).length
  rw [reconcile_append hbefore, Reconciliation.pass_of_not_hasExtension hext,
    Reconciliation.folderFindings_eq, List.append_assoc, List.append_assoc, ← hcount]
  rfl

/-- **Findings about single declarations.**  They come first, in the order of the declarations, and
each declaration is held against those before it.  A file that an earlier wildcard covers does not
count as a match.  The advice is given once if any declaration invites it, and the first to do so
is no wildcard that has come too late. -/
theorem reconcile_remarks (h : ∀ d ∈ ds, d.endsPass = false) (files : List Descriptor)
    (headerLine : Option Nat) :
    (∃ balance, reconcile s ds files headerLine =
        (ds.zipIdx.flatMap fun p =>
          remarksOn s (includedNames files) (headerLine.getD 0) (ds.take p.2) p.1) ++ balance ∧
      (∀ f ∈ remarks s (includedNames files) (headerLine.getD 0) ds, ¬ f.IsBalance) ∧
      ∀ f ∈ balance, f.IsBalance) ∧
    (reconcile s ds files headerLine).countP (fun f => f.kind = .includeAllAdvised) =
      (if ∃ d ∈ ds, d.InvitesAdvice s (includedNames files) then 1 else 0) ∧
    (∀ before d after, ds = before ++ d :: after → d.isPartial →
      d.InvitesAdvice s (includedNames files) →
      (¬ ∃ e ∈ before, e.InvitesAdvice s (includedNames files)) →
      ∃ name ∈ uncoveredNames s (includedNames files) before, d.Covers s name) ∧
    ∀ before d after, ds = before ++ d :: after → d.hasExtension = false →
      ∃ front back, reconcile s (before ++ after) files headerLine = front ++ back ∧
        reconcile s ds files headerLine =
          front ++ (folderRemarks s (headerLine.getD 0) d ++
            [⟨headerLine.getD 0, .wrongExtension, [d.baseName]⟩]) ++ back := by
  refine ⟨⟨_, reconcile_eq h files headerLine, fun f hf => not_isBalance_of_mem_remarks hf,
    fun f hf => isBalance_of_mem_balance hf⟩, ?_, ?_, ?_⟩
  · have hbalance : (missingFindings ds files (headerLine.getD 0) ++
        undeclaredFindings s ds files (headerLine.getD 0)).countP
          (fun f => f.kind = .includeAllAdvised) = 0 := by
      refine List.countP_eq_zero.2 fun f hf => ?_
      rcases isBalance_of_mem_balance hf with hkind | hkind <;> simp [hkind]
    rw [reconcile_eq h, List.countP_append, hbalance, countP_remarks, Nat.add_zero]
  · intro before d after _ hpart hadv hfirst
    by_contra hnone
    exact hfirst (exists_invitesAdvice_before hpart hadv hnone)
  · rintro before d after rfl hext
    exact reconcile_insert_of_not_hasExtension (fun e he => h e (by simp [he]))
      (fun e he => h e (by simp [he])) hext files headerLine

/-- The second wildcard comes too late for its file, and the last entry has two faults. -/
theorem reconcile_remarks_late :
    (∀ d ∈ declarations {} "OSGI-INF/a*.xml,OSGI-INF/*b.xml,web/c.txt", d.endsPass = false) ∧
      ∃ balance, reconcile {} (declarations {} "OSGI-INF/a*.xml,OSGI-INF/*b.xml,web/c.txt")
          [⟨"ab.xml", "ab.xml", false⟩] (some 3) =
        [⟨3, .includeAllAdvised, []⟩, ⟨3, .matchesNothing, ["OSGI-INF/*b.xml"]⟩,
          ⟨3, .wrongDirectory, ["web"]⟩, ⟨3, .wrongExtension, ["c.txt"]⟩] ++ balance ∧
        ∀ f ∈ balance, f.IsBalance := by
  have h : ∀ d ∈ declarations {} "OSGI-INF/a*.xml,OSGI-INF/*b.xml,web/c.txt",
      d.endsPass = false := by decide
  obtain ⟨⟨balance, heq, -, hbalance⟩, -, -⟩ :=
    reconcile_remarks h [⟨"ab.xml", "ab.xml", false⟩] (some 3)
  exact ⟨h, balance, heq.trans (congrArg (· ++ balance) (by decide)), hbalance⟩

/-! ### Missing descriptors -/

theorem filter_missing_reconcile (h : ∀ d ∈ ds, d.endsPass = false) (files : List Descriptor)
    (headerLine : Option Nat) :
    (reconcile s ds files headerLine).filter (fun f => f.kind = .missingService) =
      missingFindings ds files (headerLine.getD 0) := by
  have hremarks : (remarks s (includedNames files) (headerLine.getD 0) ds).filter
      (fun f => f.kind = .missingService) = [] := by
    refine List.filter_eq_nil_iff.2 fun f hf hkind => ?_
    exact not_isBalance_of_mem_remarks hf (Or.inl (of_decide_eq_true hkind))
  have hmissing : (missingFindings ds files (headerLine.getD 0)).filter
      (fun f => f.kind = .missingService) = missingFindings ds files (headerLine.getD 0) := by
    refine List.filter_eq_self.2 fun f hf => ?_
    rw [kind_of_mem_missingFindings hf]
    rfl
  have hundeclared : (undeclaredFindings s ds files (headerLine.getD 0)).filter
      (fun f => f.kind = .missingService) = [] := by
    refine List.filter_eq_nil_iff.2 fun f hf => ?_
    rw [kind_of_mem_undeclaredFindings hf]
    decide
  rw [reconcile_eq h, List.filter_append, List.filter_append, hremarks, hmissing, hundeclared,
    List.nil_append, List.append_nil]

theorem nodup_params_missingFindings (files : List Descriptor) :
    ((missingFindings ds files line).map Finding.params).Nodup := by
  rw [missingFindings, List.map_map]
  refine ((nodup_declaredNames ds).filter _).map fun a b hab => ?_
  exact (List.cons.inj hab).1

/-- **Missing descriptors.**  They are the base names declared one by one that no file has, each
reported once and just before the undeclared files, and it does not matter which files wildcards
cover.  No name is reported both as missing and as undeclared. -/
theorem reconcile_missing (h : ∀ d ∈ ds, d.endsPass = false) (files : List Descriptor)
    (headerLine : Option Nat) :
    (∃ front undeclared, reconcile s ds files headerLine = front ++
        (((declaredNames ds).filter fun name =>
          ¬ ∃ f ∈ files, f.excluded = false ∧ f.name = name).map fun name =>
            ⟨headerLine.getD 0, .missingService, [name]⟩) ++ undeclared ∧
      (∀ f ∈ front, ¬ f.IsBalance) ∧ ∀ f ∈ undeclared, f.kind = .undeclaredService) ∧
    (((reconcile s ds files headerLine).filter fun f => f.kind = .missingService).map
      Finding.params).Nodup ∧
    ∀ f ∈ reconcile s ds files headerLine, ∀ g ∈ reconcile s ds files headerLine,
      f.kind = .missingService → g.kind = .undeclaredService → f.params ≠ g.params := by
  refine ⟨⟨remarks s (includedNames files) (headerLine.getD 0) ds,
    undeclaredFindings s ds files (headerLine.getD 0), ?_,
    fun f hf => not_isBalance_of_mem_remarks hf,
    fun f hf => kind_of_mem_undeclaredFindings hf⟩, ?_, ?_⟩
  · rw [reconcile_eq h, ← List.append_assoc]
    rfl
  · rw [filter_missing_reconcile h]
    exact nodup_params_missingFindings files
  · intro f hf g hg hfkind hgkind hparams
    have hfmem : f ∈ missingFindings ds files (headerLine.getD 0) := by
      rw [← filter_missing_reconcile h (s := s)]
      exact List.mem_filter.2 ⟨hf, decide_eq_true hfkind⟩
    obtain ⟨name, hname, rfl⟩ := List.mem_map.1 hfmem
    have habsent := of_decide_eq_true (List.mem_filter.1 hname).2
    rw [reconcile_eq h, List.mem_append, List.mem_append] at hg
    rcases hg with hg | hg | hg
    · exact not_isBalance_of_mem_remarks hg (Or.inr hgkind)
    · rw [kind_of_mem_missingFindings hg] at hgkind
      exact absurd hgkind (by decide)
    · -- an undeclared file is there, so its name is not missing
      obtain ⟨file, hfile, rfl⟩ := List.mem_map.1 hg
      obtain ⟨hmem, hcond⟩ := List.mem_filter.1 hfile
      have hincluded := (of_decide_eq_true hcond).1
      exact habsent ⟨file, hmem, hincluded, (List.cons.inj hparams).1.symm⟩

/-- A declared file that a wildcard covers is not missing, and an absent one is missing once. -/
theorem reconcile_missing_once :
    (∀ d ∈ declarations {} "OSGI-INF/ab*.xml,OSGI-INF/abc.xml,OSGI-INF/x.xml,web/x.xml",
      d.endsPass = false) ∧
      ∃ front undeclared,
        reconcile {} (declarations {} "OSGI-INF/ab*.xml,OSGI-INF/abc.xml,OSGI-INF/x.xml,web/x.xml")
            [⟨"abc.xml", "abc.xml", false⟩, ⟨"x.xml", "old/x.xml", true⟩] none =
          front ++ [⟨0, .missingService, ["x.xml"]⟩] ++ undeclared ∧
        (∀ f ∈ front, ¬ f.IsBalance) ∧ ∀ f ∈ undeclared, f.kind = .undeclaredService := by
  have h : ∀ d ∈ declarations {} "OSGI-INF/ab*.xml,OSGI-INF/abc.xml,OSGI-INF/x.xml,web/x.xml",
      d.endsPass = false := by decide
  obtain ⟨⟨front, undeclared, heq, hrest⟩, -, -⟩ := reconcile_missing h
    [⟨"abc.xml", "abc.xml", false⟩, ⟨"x.xml", "old/x.xml", true⟩] none
  refine ⟨h, front, undeclared, heq.trans ?_, hrest⟩
  exact congrArg (fun missing => front ++ missing ++ undeclared) (by decide +kernel)

end

/-! ### A declaration for everything -/

section

variable {s : Settings} {names : List String} {line : Nat} {before : List Declaration}
  {g : Declaration} {f : Finding}

/-- What is found up to a declaration for everything is all that is found. -/
theorem reconcile_append_cons (hbefore : ∀ d ∈ before, d.endsPass = false) (hg : g.endsPass)
    (after : List Declaration) (files : List Descriptor) (headerLine : Option Nat) :
    reconcile s (before ++ g :: after) files headerLine =
      remarks s (includedNames files) (headerLine.getD 0) before ++
        (folderRemarks s (headerLine.getD 0) g ++
          if 1 < (before ++ g :: after).length then
            [⟨headerLine.getD 0, .repeatedService, []⟩] else []) := by
  rw [Declaration.endsPass, Bool.and_eq_true] at hg
  rw [reconcile_append hbefore, Reconciliation.pass_of_includesAll hg.1 hg.2,
    Reconciliation.folderFindings_eq]
  rfl

theorem kind_ne_repeated_of_mem (hf : f ∈ remarks s names line before ++ folderRemarks s line g) :
    f.kind ≠ .repeatedService ∧ ¬ f.IsBalance := by
  rcases List.mem_append.1 hf with hf | hf
  · rcases kind_of_mem_remarks hf with hkind | hkind | hkind | hkind <;>
      simp [Finding.IsBalance, hkind]
  · simp [Finding.IsBalance, kind_of_mem_folderRemarks hf]

/-- **A declaration for everything cuts the findings off.**  What is found before it is what the
declarations before it lead to on their own, without the balance.  It adds a finding about its own
folder, and one that ends the list if it is not alone.  Nothing is missing or undeclared, and what
stands after it does not matter, but for whether it is alone. -/
theorem reconcile_endsPass (hbefore : ∀ d ∈ before, d.endsPass = false) (hg : g.endsPass)
    (after : List Declaration) (files : List Descriptor) (headerLine : Option Nat) :
    (∃ own balance, reconcile s before files headerLine = own ++ balance ∧
      (∀ f ∈ own, ¬ f.IsBalance) ∧ (∀ f ∈ balance, f.IsBalance) ∧
      own = remarks s (includedNames files) (headerLine.getD 0) before ∧
      reconcile s (before ++ g :: after) files headerLine =
        own ++ (if g.parentDirectory = s.descriptorsFolder then []
          else [⟨headerLine.getD 0, .wrongDirectory, [g.parentDirectory]⟩]) ++
        if 1 < (before ++ g :: after).length then
          [⟨headerLine.getD 0, .repeatedService, []⟩] else []) ∧
    (reconcile s (before ++ g :: after) files headerLine).countP
      (fun f => f.kind = .repeatedService) =
        (if 1 < (before ++ g :: after).length then 1 else 0) ∧
    (∀ f ∈ reconcile s (before ++ g :: after) files headerLine, f.kind = .repeatedService →
      (reconcile s (before ++ g :: after) files headerLine).getLast? = some f) ∧
    (∀ f ∈ reconcile s (before ++ g :: after) files headerLine, ¬ f.IsBalance) ∧
    ∀ others, ((before ++ g :: others).length = 1 ↔ (before ++ g :: after).length = 1) →
      reconcile s (before ++ g :: others) files headerLine =
        reconcile s (before ++ g :: after) files headerLine := by
  have heq := reconcile_append_cons hbefore hg after files headerLine (s := s)
  rw [← List.append_assoc] at heq
  refine ⟨⟨_, _, reconcile_eq hbefore files headerLine,
    fun f hf => not_isBalance_of_mem_remarks hf, fun f hf => isBalance_of_mem_balance hf, rfl, heq⟩,
    ?_, ?_, ?_, ?_⟩
  · have hfront : (remarks s (includedNames files) (headerLine.getD 0) before ++
        folderRemarks s (headerLine.getD 0) g).countP (fun f => f.kind = .repeatedService) = 0 :=
      List.countP_eq_zero.2 fun f hf => by simp [(kind_ne_repeated_of_mem hf).1]
    rw [heq, List.countP_append, hfront, Nat.zero_add]
    split <;> rfl
  · intro f hf hkind
    rw [heq] at hf ⊢
    rcases List.mem_append.1 hf with hf | hf
    · exact absurd hkind (kind_ne_repeated_of_mem hf).1
    · split at hf
      · next hlong => rw [if_pos hlong, List.getLast?_concat, List.mem_singleton.1 hf]
      · exact absurd hf List.not_mem_nil
  · intro f hf
    rw [heq] at hf
    rcases List.mem_append.1 hf with hf | hf
    · exact (kind_ne_repeated_of_mem hf).2
    · split at hf
      · rw [List.mem_singleton.1 hf]
        simp [Finding.IsBalance]
      · exact absurd hf List.not_mem_nil
  · intro others hlength
    -- the declaration for everything is there, so the lists are not empty
    have hlong : 1 < (before ++ g :: others).length ↔ 1 < (before ++ g :: after).length := by
      simp only [List.length_append, List.length_cons] at hlength ⊢
      omega
    rw [reconcile_append_cons hbefore hg others, reconcile_append_cons hbefore hg after]
    simp only [hlong]

/-- A missing descriptor and a file in the wrong folder beside a declaration for everything. -/
theorem reconcile_endsPass_between :
    (∀ d ∈ declarations {} "OSGI-INF/x.xml", d.endsPass = false) ∧
      (Declaration.ofText {} "web/*.xml").endsPass ∧
      reconcile {} (declarations {} "OSGI-INF/x.xml" ++ Declaration.ofText {} "web/*.xml" ::
          declarations {} "web/y.txt,OSGI-INF/*.xml") [⟨"a.xml", "a.xml", false⟩] (some 3) =
        [⟨3, .includeAllAdvised, []⟩, ⟨3, .wrongDirectory, ["web"]⟩,
          ⟨3, .repeatedService, []⟩] := by
  have hbefore : ∀ d ∈ declarations {} "OSGI-INF/x.xml", d.endsPass = false := by decide
  have hg : (Declaration.ofText {} "web/*.xml").endsPass := by decide
  obtain ⟨⟨own, balance, -, -, -, hown, heq⟩, -⟩ := reconcile_endsPass hbefore hg
    (declarations {} "web/y.txt,OSGI-INF/*.xml") [⟨"a.xml", "a.xml", false⟩] (some 3)
  refine ⟨hbefore, hg, ?_⟩
  rw [heq, hown]
  decide +kernel

end

end BundleAudit
