import BundleAudit.Reconcile
import Mathlib.Data.List.Basic
import Mathlib.Data.List.Induction

/-!
# What a pass over declarations remembers

A pass changes what it remembers with every declaration: a wildcard takes files away, a declaration
of one descriptor adds a base name.  Yet what it remembers after some declarations can be read off
them at once, without going through them.  A file is uncovered if none of their wildcards covers it,
and this does not depend on which of two wildcards comes first or on the declarations between them.

The findings about a declaration follow from what is remembered before it, so they too are said in
terms of the declarations before it as a whole.

## Main definitions

* `Declaration.Covers s d name` — the wildcard of a declaration matches a file name.
* `Declaration.endsPass d` — the declaration stands for every descriptor.
* `Declaration.InvitesAdvice s names d` — the declaration would better be one for everything.
* `summary s names ds` — what is remembered after declarations.
* `remarks s names line ds` — what is found about declarations one by one.

## Main results

* `Reconciliation.pass_summary_cons` — what one declaration does to a pass.
* `Reconciliation.pass_append` — what a run of declarations does to a pass.
-/

namespace BundleAudit

namespace Declaration

variable {s : Settings} {names : List String} {d : Declaration}

/-! ### Kinds of declarations -/

/-- A declaration with the descriptor extension that stands for every descriptor. -/
def endsPass (d : Declaration) : Bool := d.hasExtension && d.includesAll

/-- The wildcard of a declaration is not too large, and it matches a file name without the
descriptor extension. -/
def Covers (s : Settings) (d : Declaration) (name : String) : Prop :=
  (d.wildcard s).isTooLarge = false ∧ (d.wildcard s).Matches (s.stem name).toList

theorem covers_iff {name : String} : d.covers s name = true ↔ d.Covers s name := by
  rw [covers, Bool.and_eq_true, Bool.not_eq_true', Wildcard.accepts_iff, Covers]

instance (s : Settings) (d : Declaration) (name : String) : Decidable (d.Covers s name) :=
  decidable_of_iff _ covers_iff

/-- A declaration of one descriptor, or of a wildcard that covers one of the names. -/
def InvitesAdvice (s : Settings) (names : List String) (d : Declaration) : Prop :=
  d.isExplicit ∨ d.isPartial ∧ ∃ name ∈ names, d.Covers s name

instance (s : Settings) (names : List String) (d : Declaration) :
    Decidable (d.InvitesAdvice s names) :=
  inferInstanceAs (Decidable (_ ∨ _))

theorem isPartial_of_isExplicit (h : d.isExplicit) : d.isPartial = false := by
  simp only [isExplicit, Bool.and_eq_true, Bool.not_eq_true'] at h
  simp [isPartial, h.2]

theorem isExplicit_of_isPartial (h : d.isPartial) : d.isExplicit = false := by
  simp only [isPartial, Bool.and_eq_true] at h
  simp [isExplicit, h.2]

theorem hasExtension_of_isExplicit (h : d.isExplicit) : d.hasExtension = true := by
  simp only [isExplicit, Bool.and_eq_true] at h
  exact h.1.1

theorem hasExtension_of_isPartial (h : d.isPartial) : d.hasExtension = true := by
  simp only [isPartial, Bool.and_eq_true] at h
  exact h.1.1

/-- A declaration that does not end a pass is one of three. -/
theorem kinds_of_not_endsPass (h : d.endsPass = false) :
    d.hasExtension = false ∨ d.isExplicit ∨ d.isPartial := by
  cases hext : d.hasExtension with
  | false => exact Or.inl rfl
  | true =>
    have hall : d.includesAll = false := by simpa [endsPass, hext] using h
    cases hw : d.hasWildcard with
    | false => exact Or.inr (Or.inl (by simp [isExplicit, hext, hall, hw]))
    | true => exact Or.inr (Or.inr (by simp [isPartial, hext, hall, hw]))

theorem not_invitesAdvice_of_not_hasExtension (s : Settings) (names : List String)
    (h : d.hasExtension = false) : ¬ d.InvitesAdvice s names := by
  rintro (hexp | ⟨hpart, -⟩)
  · rw [hasExtension_of_isExplicit hexp] at h
    exact absurd h (by decide)
  · rw [hasExtension_of_isPartial hpart] at h
    exact absurd h (by decide)

end Declaration

/-! ### Declarations as a whole -/

section Whole

variable (s : Settings) (names : List String) (ds : List Declaration)

/-- The names that no wildcard among declarations covers. -/
def uncoveredNames : List String :=
  names.filter fun name => ∀ d ∈ ds, d.isPartial → ¬ d.Covers s name

/-- The base names that are declared one by one, each where it comes first. -/
def declaredNames : List String :=
  ((ds.filter Declaration.isExplicit).map Declaration.baseName).eraseDups

/-- What is remembered once declarations have been gone through. -/
def summary : Progress where
  uncovered := uncoveredNames s names ds
  declared := declaredNames ds
  advised := decide (∃ d ∈ ds, d.InvitesAdvice s names)

end Whole

section

variable {s : Settings} {names : List String} {ds : List Declaration} {d : Declaration}

theorem mem_uncoveredNames {name : String} : name ∈ uncoveredNames s names ds ↔
    name ∈ names ∧ ∀ d ∈ ds, d.isPartial → ¬ d.Covers s name := by
  rw [uncoveredNames, List.mem_filter, decide_eq_true_eq]

theorem mem_declaredNames {name : String} :
    name ∈ declaredNames ds ↔ ∃ d ∈ ds, d.isExplicit ∧ d.baseName = name := by
  simp only [declaredNames, List.mem_eraseDups, List.mem_map, List.mem_filter, and_assoc]

theorem uncoveredNames_concat : uncoveredNames s names (ds ++ [d]) =
    (uncoveredNames s names ds).filter fun name => d.isPartial → ¬ d.Covers s name := by
  rw [uncoveredNames, uncoveredNames, List.filter_filter]
  refine List.filter_congr fun name _ => ?_
  rw [← Bool.decide_and]
  refine decide_eq_decide.2 ?_
  rw [List.forall_mem_append, List.forall_mem_singleton, and_comm]

theorem uncoveredNames_concat_of_not_isPartial (h : d.isPartial = false) :
    uncoveredNames s names (ds ++ [d]) = uncoveredNames s names ds := by
  rw [uncoveredNames_concat, List.filter_eq_self]
  simp [h]

theorem declaredNames_concat_of_not_isExplicit (h : d.isExplicit = false) :
    declaredNames (ds ++ [d]) = declaredNames ds := by
  simp [declaredNames, h]

/-- A base name is new if it is not among those declared before. -/
theorem declaredNames_concat_of_isExplicit (h : d.isExplicit) :
    declaredNames (ds ++ [d]) =
      if d.baseName ∈ declaredNames ds then declaredNames ds
      else declaredNames ds ++ [d.baseName] := by
  have hmem : d.baseName ∈ declaredNames ds ↔
      d.baseName ∈ (ds.filter Declaration.isExplicit).map Declaration.baseName := by
    rw [declaredNames, List.mem_eraseDups]
  rw [declaredNames, List.filter_append, List.map_append, List.eraseDups_append, ← declaredNames]
  split
  · next hin => simp [h, List.removeAll, hmem.1 hin]
  · next hout => simp [h, List.removeAll, mt hmem.2 hout, List.eraseDups_cons]

/-- A name that is not left over was covered, and the wildcard that covers it invites the advice. -/
theorem exists_invitesAdvice_of_not_mem_uncoveredNames {name : String} (hname : name ∈ names)
    (hout : name ∉ uncoveredNames s names ds) : ∃ d ∈ ds, d.InvitesAdvice s names := by
  rw [mem_uncoveredNames, not_and] at hout
  have hcov := hout hname
  push Not at hcov
  obtain ⟨d, hd, hpart, hcov⟩ := hcov
  exact ⟨d, hd, Or.inr ⟨hpart, name, hname, hcov⟩⟩

/-- A wildcard that comes too late for its files does not bring up the advice: it has been given. -/
theorem exists_invitesAdvice_before (hpart : d.isPartial) (h : d.InvitesAdvice s names)
    (hnone : ¬ ∃ name ∈ uncoveredNames s names ds, d.Covers s name) :
    ∃ e ∈ ds, e.InvitesAdvice s names := by
  rcases h with hexp | ⟨-, name, hname, hcov⟩
  · rw [Declaration.isExplicit_of_isPartial hpart] at hexp
    exact absurd hexp (by decide)
  · exact exists_invitesAdvice_of_not_mem_uncoveredNames hname fun hin => hnone ⟨name, hin, hcov⟩

theorem any_summary_uncovered : (summary s names ds).uncovered.any (d.covers s) = true ↔
    ∃ name ∈ uncoveredNames s names ds, d.Covers s name := by
  simp only [summary, List.any_eq_true, Declaration.covers_iff]

/-! ### One more declaration -/

theorem summary_nil : summary s names [] = { uncovered := names } := by
  simp [summary, uncoveredNames, declaredNames]

theorem exists_mem_concat {p : Declaration → Prop} :
    (∃ e ∈ ds ++ [d], p e) ↔ (∃ e ∈ ds, p e) ∨ p d := by
  simp only [List.mem_append, List.mem_singleton, or_and_right, exists_or, exists_eq_left]

theorem summary_concat_of_not_hasExtension (h : d.hasExtension = false) :
    summary s names (ds ++ [d]) = summary s names ds := by
  have hexp : d.isExplicit = false := by simp [Declaration.isExplicit, h]
  have hpart : d.isPartial = false := by simp [Declaration.isPartial, h]
  have hadv := Declaration.not_invitesAdvice_of_not_hasExtension s names h
  simp only [summary, uncoveredNames_concat_of_not_isPartial hpart,
    declaredNames_concat_of_not_isExplicit hexp, exists_mem_concat, hadv, or_false]

theorem summary_concat_of_isExplicit (h : d.isExplicit) :
    summary s names (ds ++ [d]) = (summary s names ds).declare d.baseName := by
  have hadv : d.InvitesAdvice s names := Or.inl h
  simp only [summary, Progress.declare, declaredNames_concat_of_isExplicit h, exists_mem_concat,
    uncoveredNames_concat_of_not_isPartial (Declaration.isPartial_of_isExplicit h), hadv, or_true,
    decide_true]
  rfl

theorem summary_concat_of_isPartial (h : d.isPartial)
    (hcov : ∃ name ∈ uncoveredNames s names ds, d.Covers s name) :
    summary s names (ds ++ [d]) = (summary s names ds).cover (d.covers s) := by
  obtain ⟨name, hname, hcov⟩ := hcov
  have hadv : d.InvitesAdvice s names :=
    Or.inr ⟨h, name, (mem_uncoveredNames.1 hname).1, hcov⟩
  have hfilter : uncoveredNames s names (ds ++ [d]) =
      (uncoveredNames s names ds).filter fun name => !d.covers s name := by
    rw [uncoveredNames_concat]
    refine List.filter_congr fun name _ => ?_
    simp [h, ← Declaration.covers_iff]
  simp only [summary, Progress.cover, hfilter, exists_mem_concat, hadv, or_true, decide_true,
    declaredNames_concat_of_not_isExplicit (Declaration.isExplicit_of_isPartial h)]

theorem summary_concat_of_covers_none (h : d.isPartial)
    (hnone : ¬ ∃ name ∈ uncoveredNames s names ds, d.Covers s name) :
    summary s names (ds ++ [d]) = summary s names ds := by
  have hfilter : uncoveredNames s names (ds ++ [d]) = uncoveredNames s names ds := by
    rw [uncoveredNames_concat, List.filter_eq_self]
    intro name hname
    have hnot : ¬ d.Covers s name := fun hcov => hnone ⟨name, hname, hcov⟩
    simp [hnot]
  -- the advice was due before if it is due at all
  have hadv : (∃ e ∈ ds ++ [d], e.InvitesAdvice s names) ↔ ∃ e ∈ ds, e.InvitesAdvice s names := by
    rw [exists_mem_concat, or_iff_left_iff_imp]
    exact fun hd => exists_invitesAdvice_before h hd hnone
  simp only [summary, hfilter, hadv,
    declaredNames_concat_of_not_isExplicit (Declaration.isExplicit_of_isPartial h)]

end

/-! ### Findings about declarations -/

section Remarks

variable (s : Settings) (names : List String) (line : Nat)

/-- What is found about the folder of a declaration. -/
def folderRemarks (d : Declaration) : List Finding :=
  if d.parentDirectory = s.descriptorsFolder then []
  else [⟨line, .wrongDirectory, [d.parentDirectory]⟩]

/-- What is found about a declaration that stands after others. -/
def remarksOn (before : List Declaration) (d : Declaration) : List Finding :=
  folderRemarks s line d ++
    (if d.hasExtension then [] else [⟨line, .wrongExtension, [d.baseName]⟩]) ++
    (if d.isPartial ∧ ¬ ∃ name ∈ uncoveredNames s names before, d.Covers s name then
      [⟨line, .matchesNothing, [d.raw]⟩] else []) ++
    (if d.InvitesAdvice s names ∧ ¬ ∃ e ∈ before, e.InvitesAdvice s names then
      [⟨line, .includeAllAdvised, []⟩] else [])

/-- What is found about declarations, each held against those before it. -/
def remarks (ds : List Declaration) : List Finding :=
  ds.zipIdx.flatMap fun p => remarksOn s names line (ds.take p.2) p.1

end Remarks

section

variable {s : Settings} {names : List String} {line : Nat} {before : List Declaration}
  {d : Declaration}

@[simp] theorem remarks_nil : remarks s names line [] = [] := rfl

theorem remarks_concat : remarks s names line (before ++ [d]) =
    remarks s names line before ++ remarksOn s names line before d := by
  rw [remarks, List.zipIdx_append, List.flatMap_append, Nat.zero_add, List.zipIdx_singleton,
    List.flatMap_singleton, List.take_left, remarks]
  congr 1
  refine List.flatMap_congr fun p hp => ?_
  have hlt : p.2 < before.length := by simpa using List.snd_lt_of_mem_zipIdx hp
  rw [List.take_append_of_le_length (Nat.le_of_lt hlt)]

end

namespace Reconciliation

variable {r : Reconciliation} {names : List String} {before : List Declaration} {d : Declaration}

theorem folderFindings_eq (r : Reconciliation) (d : Declaration) :
    r.folderFindings d = folderRemarks r.settings r.line d := by
  simp only [folderFindings, folderRemarks, Declaration.inDescriptorsFolder, beq_iff_eq, finding]

theorem advice_summary (hadv : d.InvitesAdvice r.settings names) :
    r.advice (summary r.settings names before) =
      if d.InvitesAdvice r.settings names ∧ ¬ ∃ e ∈ before, e.InvitesAdvice r.settings names then
        [⟨r.line, .includeAllAdvised, []⟩] else [] := by
  by_cases h : ∃ e ∈ before, e.InvitesAdvice r.settings names
  · simp only [advice, summary, h, decide_true, if_true, not_true_eq_false, and_false, if_false]
  · simp only [advice, summary, h, decide_false, Bool.false_eq_true, if_false, hadv,
      not_false_eq_true, and_self, if_true, finding]

/-- **One declaration in a pass**: its findings are those said by the declarations before it, and
what is remembered takes it in. -/
theorem pass_summary_cons (h : d.endsPass = false) (ds : List Declaration) :
    r.pass (summary r.settings names before) (d :: ds) =
      remarksOn r.settings names r.line before d ++
        r.pass (summary r.settings names (before ++ [d])) ds := by
  rcases Declaration.kinds_of_not_endsPass h with hext | hexp | hpart
  · have hpart : d.isPartial = false := by simp [Declaration.isPartial, hext]
    have hadv := Declaration.not_invitesAdvice_of_not_hasExtension r.settings names hext
    rw [pass_of_not_hasExtension hext, summary_concat_of_not_hasExtension hext, folderFindings_eq]
    simp [remarksOn, hext, hpart, hadv, finding]
  · have hext := Declaration.hasExtension_of_isExplicit hexp
    have hpart := Declaration.isPartial_of_isExplicit hexp
    rw [pass_of_isExplicit hexp, summary_concat_of_isExplicit hexp, folderFindings_eq,
      advice_summary (d := d) (Or.inl hexp)]
    simp [remarksOn, hext, hpart]
  · have hext := Declaration.hasExtension_of_isPartial hpart
    by_cases hcov : ∃ name ∈ uncoveredNames r.settings names before, d.Covers r.settings name
    · obtain ⟨name, hname, hcovers⟩ := id hcov
      have hadv : d.InvitesAdvice r.settings names :=
        Or.inr ⟨hpart, name, (mem_uncoveredNames.1 hname).1, hcovers⟩
      rw [pass_of_isPartial hpart (any_summary_uncovered.2 hcov),
        summary_concat_of_isPartial hpart hcov, folderFindings_eq, advice_summary hadv]
      simp [remarksOn, hext, hcov]
    · have hany : (summary r.settings names before).uncovered.any (d.covers r.settings) = false :=
        Bool.eq_false_iff.2 (mt any_summary_uncovered.1 hcov)
      -- an earlier wildcard took the files, and the advice was given there
      have hadv : ¬ (d.InvitesAdvice r.settings names ∧
          ¬ ∃ e ∈ before, e.InvitesAdvice r.settings names) :=
        fun hd => hd.2 (exists_invitesAdvice_before hpart hd.1 hcov)
      rw [pass_of_isPartial_of_covers_none hpart hany, summary_concat_of_covers_none hpart hcov,
        folderFindings_eq]
      simp only [remarksOn, hext, hpart, hcov, hadv, if_true, if_false, not_false_eq_true, and_self,
        List.append_nil, List.append_assoc, List.singleton_append, finding]

/-- **A run of declarations in a pass**: their findings come first, and the pass goes on with what
they leave. -/
theorem pass_append {before : List Declaration} (h : ∀ d ∈ before, d.endsPass = false)
    (ds : List Declaration) :
    r.pass { uncovered := names } (before ++ ds) =
      remarks r.settings names r.line before ++ r.pass (summary r.settings names before) ds := by
  induction before using List.reverseRecOn generalizing ds with
  | nil => rw [summary_nil, remarks_nil, List.nil_append, List.nil_append]
  | append_singleton before d ih =>
    have hd : d.endsPass = false := h d (by simp)
    have hbefore : ∀ e ∈ before, e.endsPass = false := fun e he => h e (by simp [he])
    rw [List.append_assoc, List.singleton_append, ih hbefore (d :: ds), pass_summary_cons hd,
      remarks_concat, List.append_assoc]

end Reconciliation

end BundleAudit
