import BundleAudit.Proofs.Declarations.Parts
import BundleAudit.Proofs.Declarations.Spacing
import BundleAudit.Proofs.Reconcile.Overlap
import BundleAudit.Report.Message
import BundleAudit.Settings.Validate

/-!
# Declarations for everything

A declaration for everything is known by its base name.  One that names a wrong folder is reported
for that, but it counts as any other: no file is missing then, even if nothing else in the list
would cover the declared names.

If there is something to declare, there is only one way to have nothing found: the declaration for
everything, in the descriptors folder and alone.  It is also the one that messages recommend.  As
long as the header can carry it, following that advice leaves nothing to find.  It cannot be carried
if it has a comma or white space at its ends, or if its base name has a slash.

## Main definitions

* `Declaration.LacksFile files d` — a declaration of one descriptor that is not there.
* `Settings.CanDeclareAll s` — a header can carry the declaration for everything.

## Main results

* `missing_mem_reconcile_iff` — which names are reported as missing.
* `reconcile_eq_nil_iff` — **when nothing is found**.
* `declarations_includeAll_of_canDeclareAll`, `canDeclareAll_of_declarations` — what is read from
  the recommended header.
* `following_advice_iff` — **following the advice leaves nothing to find**, if it can be followed.
* `reports_lacking_iff` — **a declaration for everything hides what is missing**.
-/

namespace BundleAudit

open Text

/-- A declaration of one descriptor, where no file has its base name, left-out files apart. -/
def Declaration.LacksFile (files : List Descriptor) (d : Declaration) : Prop :=
  d.isExplicit ∧ ¬ ∃ f ∈ files, f.excluded = false ∧ f.name = d.baseName

instance (files : List Descriptor) (d : Declaration) : Decidable (d.LacksFile files) :=
  inferInstanceAs (Decidable (_ ∧ _))

/-- What a header has to be able to carry for the declaration of everything: it is cut at commas and
trimmed, and the base name of a declaration ends at a slash. -/
structure Settings.CanDeclareAll (s : Settings) : Prop where
  /-- The descriptors folder is not cut. -/
  folderComma : ',' ∉ s.descriptorsFolder.toList
  /-- Its start is not trimmed away. -/
  folderStart : ∀ c, s.descriptorsFolder.toList.head? = some c → ¬ isBlank c
  /-- The base name for everything is not cut. -/
  tokenComma : ',' ∉ s.includeAllToken.toList
  /-- It is a single name. -/
  tokenSlash : '/' ∉ s.includeAllToken.toList
  /-- Its end is not trimmed away. -/
  tokenEnd : ∀ c, s.includeAllToken.toList.getLast? = some c → ¬ isBlank c

/-! ### Misplaced declarations -/

section

variable {s : Settings} {ds : List Declaration} {d : Declaration} {files : List Descriptor}
  {headerLine : Option Nat}

/-- A name is reported as missing if it is declared, no file has it, and no declaration is for
everything. -/
theorem missing_mem_reconcile_iff {name : String} :
    (⟨headerLine.getD 0, .missingService, [name]⟩ : Finding) ∈ reconcile s ds files headerLine ↔
      (∀ e ∈ ds, e.endsPass = false) ∧ (∃ d ∈ ds, d.isExplicit ∧ d.baseName = name) ∧
        ¬ ∃ f ∈ files, f.excluded = false ∧ f.name = name := by
  constructor
  · intro h
    have hends : ∀ e ∈ ds, e.endsPass = false := by
      intro e he
      cases hall : e.endsPass with
      | false => rfl
      | true =>
        -- up to a declaration for everything there is no balance, nor is there at its place
        have hfind : (ds.find? Declaration.endsPass).isSome := List.find?_isSome.2 ⟨e, he, hall⟩
        obtain ⟨g, hg⟩ := Option.isSome_iff_exists.1 hfind
        rw [reconcile_eq_remarks_append, closing, hg] at h
        rcases List.mem_append.1 h with h | h
        · exact absurd (Or.inl rfl) (not_isBalance_of_mem_remarks h)
        rcases List.mem_append.1 h with h | h
        · cases kind_of_mem_folderRemarks h
        · rw [List.mem_ite_nil_right, List.mem_singleton] at h
          cases h.2
    have hmem : (⟨headerLine.getD 0, .missingService, [name]⟩ : Finding) ∈
        (reconcile s ds files headerLine).filter fun f => f.kind = .missingService :=
      List.mem_filter.2 ⟨h, decide_eq_true rfl⟩
    rw [filter_missing_reconcile hends, missingFindings, List.mem_map] at hmem
    obtain ⟨name', hname', heq⟩ := hmem
    cases heq
    obtain ⟨hdeclared, habsent⟩ := List.mem_filter.1 hname'
    exact ⟨hends, mem_declaredNames.1 hdeclared, of_decide_eq_true habsent⟩
  · rintro ⟨hends, hdeclared, habsent⟩
    rw [reconcile_eq hends]
    refine List.mem_append_right _ (List.mem_append_left _ (List.mem_map.2 ⟨name, ?_, rfl⟩))
    exact List.mem_filter.2 ⟨mem_declaredNames.2 hdeclared, decide_eq_true habsent⟩

/-- **A declaration for everything hides what is missing, wherever it points.**  All declared files
that are not there are reported if no declaration is for everything, be it in the descriptors folder
or in a wrong one.  If there is one they are not, unless there are none. -/
theorem reports_lacking_iff (s : Settings) (ds : List Declaration) (files : List Descriptor)
    (headerLine : Option Nat) :
    (∀ d ∈ ds, d.LacksFile files → ⟨headerLine.getD 0, .missingService, [d.baseName]⟩ ∈
        reconcile s ds files headerLine) ↔
      (∀ e ∈ ds, e.endsPass = false) ∨ ∀ d ∈ ds, ¬ d.LacksFile files := by
  constructor
  · intro h
    by_cases hlack : ∃ d ∈ ds, d.LacksFile files
    · obtain ⟨d, hd, hlacks⟩ := hlack
      exact Or.inl (missing_mem_reconcile_iff.1 (h d hd hlacks)).1
    · exact Or.inr fun d hd hlacks => hlack ⟨d, hd, hlacks⟩
  · rintro (hends | hnone) d hd hlacks
    · exact missing_mem_reconcile_iff.2 ⟨hends, ⟨d, hd, hlacks.1, rfl⟩, hlacks.2⟩
    · exact absurd hlacks (hnone d hd)

/-- A misplaced declaration for everything keeps quiet about a file that is missing. -/
theorem reports_lacking_misplaced :
    let ds := declarations {} "wrong/*.xml,OSGI-INF/missing.xml"
    (∀ e ∈ ds, ¬ (e.includesAll = true ∧ e.inDescriptorsFolder {} = true)) ∧
      (∃ d ∈ ds, d.LacksFile [] ∧ d.baseName = "missing.xml") ∧
      reconcile {} ds [] (some 3) =
        [⟨3, .wrongDirectory, ["wrong"]⟩, ⟨3, .repeatedService, []⟩] := by
  decide +kernel

/-! ### Nothing to find -/

/-- Any declaration that is not for everything leads to a finding. -/
theorem Reconciliation.pass_cons_ne_nil {r : Reconciliation} {p : Progress}
    (hadvised : p.advised = false) (hends : d.endsPass = false) (ds : List Declaration) :
    r.pass p (d :: ds) ≠ [] := by
  have hadvice : r.advice p ≠ [] := by
    rw [advice, hadvised]
    exact List.cons_ne_nil _ _
  rcases Declaration.kinds_of_not_endsPass hends with hext | hexp | hpart
  · rw [pass_of_not_hasExtension hext]
    exact List.append_ne_nil_of_right_ne_nil _ (List.cons_ne_nil _ _)
  · rw [pass_of_isExplicit hexp]
    exact List.append_ne_nil_of_right_ne_nil _ (List.append_ne_nil_of_left_ne_nil hadvice _)
  · cases hcov : p.uncovered.any (d.covers r.settings) with
    | true =>
      rw [pass_of_isPartial hpart hcov]
      exact List.append_ne_nil_of_right_ne_nil _ (List.append_ne_nil_of_left_ne_nil hadvice _)
    | false =>
      rw [pass_of_isPartial_of_covers_none hpart hcov]
      exact List.append_ne_nil_of_right_ne_nil _ (List.cons_ne_nil _ _)

theorem folderRemarks_eq_nil_iff {line : Nat} :
    folderRemarks s line d = [] ↔ d.parentDirectory = s.descriptorsFolder := by
  rw [folderRemarks]
  split
  · next h => simp [h]
  · next h => simp [h]

/-- Without declarations the files are reported, left-out files apart. -/
theorem reconcile_nil (s : Settings) (files : List Descriptor) (headerLine : Option Nat) :
    reconcile s [] files headerLine = (files.filter fun f => !f.excluded).map fun f =>
      ⟨headerLine.getD 0, .undeclaredService, [f.name]⟩ := by
  have hends : ∀ e ∈ ([] : List Declaration), e.endsPass = false := fun e he =>
    absurd he List.not_mem_nil
  have hmissing : missingFindings [] files (headerLine.getD 0) = [] := rfl
  rw [reconcile_eq hends, remarks_nil, hmissing, List.nil_append, List.nil_append,
    undeclaredFindings]
  refine congrArg (List.map _) (List.filter_congr fun f _ => ?_)
  simp [IsAccountedFor]

/-- **Nothing is found** if the only declaration is one for everything in the descriptors folder, or
if nothing is declared and nothing is there. -/
theorem reconcile_eq_nil_iff : reconcile s ds files headerLine = [] ↔
    (∃ d, ds = [d] ∧ d.endsPass = true ∧ d.parentDirectory = s.descriptorsFolder) ∨
      (ds = [] ∧ ∀ f ∈ files, f.excluded = true) := by
  cases ds with
  | nil =>
    rw [reconcile_nil, List.map_eq_nil_iff, List.filter_eq_nil_iff]
    simp
  | cons d ds =>
    cases hends : d.endsPass with
    | false =>
      have hne : reconcile s (d :: ds) files headerLine ≠ [] :=
        Reconciliation.pass_cons_ne_nil rfl hends ds
      constructor
      · exact fun h => absurd h hne
      · rintro (⟨g, hg, hall, -⟩ | ⟨h, -⟩)
        · cases hg
          rw [hends] at hall
          cases hall
        · cases h
    | true =>
      have hall := hends
      rw [Declaration.endsPass, Bool.and_eq_true] at hall
      have heq : reconcile s (d :: ds) files headerLine =
          folderRemarks s (headerLine.getD 0) d ++
            if 1 < (d :: ds).length then [⟨headerLine.getD 0, .repeatedService, []⟩] else [] :=
        reconcile_append_cons (fun e (he : e ∈ ([] : List Declaration)) =>
          absurd he List.not_mem_nil) hends ds _ _
      rw [heq, List.append_eq_nil_iff, folderRemarks_eq_nil_iff]
      constructor
      · rintro ⟨hfolder, hrepeated⟩
        have halone : ds = [] := by
          by_contra hds
          have hlong : 1 < (d :: ds).length := Nat.succ_lt_succ (List.length_pos_iff.2 hds)
          rw [if_pos hlong] at hrepeated
          cases hrepeated
        exact Or.inl ⟨d, by rw [halone], hends, hfolder⟩
      · rintro (⟨g, hg, -, hfolder⟩ | ⟨h, -⟩)
        · cases hg
          exact ⟨hfolder, if_neg (lt_irrefl 1)⟩
        · cases h

end

/-! ### The declaration that is recommended -/

/-- The folder of acceptable settings is no path. -/
theorem Settings.Acceptable.folderSlash {s : Settings} (h : s.Acceptable) :
    '/' ∉ s.descriptorsFolder.toList :=
  fun hmem => absurd (h.singleFolder _ hmem) (by decide)

section

variable {s : Settings} {cs : List Char} {d : Declaration} {value : String}

/-- No declaration of a header has a comma in it. -/
theorem comma_not_mem_of_mem_declarations (h : d ∈ declarations s value) :
    ',' ∉ d.parentDirectory.toList ∧ ',' ∉ d.baseName.toList := by
  have hraw := (isToken_raw_of_mem_declarations h).comma_not_mem
  exact ⟨fun hmem => hraw (mem_raw_of_mem_declarations h (Or.inl hmem)),
    fun hmem => hraw (mem_raw_of_mem_declarations h (Or.inr hmem))⟩

/-- Without a comma a header has one declaration. -/
theorem declarations_of_comma_not_mem (hcomma : ',' ∉ value.toList)
    (hvalue : trim value.toList ≠ []) : declarations s value = [Declaration.ofText s value] := by
  rw [declarations_eq_map_tokens, tokens_of_comma_not_mem hcomma,
    List.filter_cons_of_pos (by simpa using hvalue), List.filter_nil, List.map_singleton]
  simp only [Declaration.ofText, String.toList_ofList, trim_trim]

theorem toList_includeAll (s : Settings) :
    s.includeAll.toList = s.descriptorsFolder.toList ++ '/' :: s.includeAllToken.toList := by
  rw [Settings.includeAll, String.toList_append, String.toList_append, List.append_assoc]
  rfl

/-- Of the declaration for everything the two ends are trimmed, and it is cut at its last slash. -/
theorem ofText_includeAll (hfolder : '/' ∉ s.descriptorsFolder.toList)
    (htoken : '/' ∉ s.includeAllToken.toList) :
    (Declaration.ofText s s.includeAll).parentDirectory =
        String.ofList (trimStart s.descriptorsFolder.toList) ∧
      (Declaration.ofText s s.includeAll).baseName =
        String.ofList (trimEnd s.includeAllToken.toList) := by
  have hraw : trim s.includeAll.toList =
      trimStart s.descriptorsFolder.toList ++ '/' :: trimEnd s.includeAllToken.toList := by
    rw [toList_includeAll]
    exact trim_append_cons (by decide)
  have hsplit : Declaration.split (trim s.includeAll.toList) =
      (trimStart s.descriptorsFolder.toList, trimEnd s.includeAllToken.toList) := by
    rw [hraw]
    exact Declaration.split_append_cons fun hmem => htoken (mem_of_mem_trimEnd hmem)
  constructor
  · simp only [Declaration.ofText, hsplit]
    rw [lastFolder_of_not_mem fun hmem => hfolder (mem_of_mem_trimStart hmem)]
  · simp only [Declaration.ofText, hsplit]

/-- A header declares something if it has more than commas and white space. -/
theorem declarations_ne_nil {c : Char} (h : c ∈ value.toList) (hblank : ¬ isBlank c)
    (hcomma : c ≠ ',') : declarations s value ≠ [] := by
  obtain ⟨piece, hpiece, hmem⟩ := exists_mem_splitOn h hcomma
  have htoken : trim piece ∈ tokens value.toList :=
    List.mem_filter.2 ⟨List.mem_map_of_mem hpiece,
      decide_eq_true (List.ne_nil_of_mem (mem_trim_of_not_isBlank hmem hblank))⟩
  rw [declarations_eq_map_tokens]
  exact List.ne_nil_of_mem (List.mem_map_of_mem htoken)

/-- A declaration ends a pass if it has the base name for everything. -/
theorem Declaration.endsPass_ofText_iff (h : s.TokenHasExtension) :
    (ofText s value).endsPass = true ↔ (ofText s value).baseName = s.includeAllToken := by
  simp only [endsPass, ofText, Bool.and_eq_true, beq_iff_eq]
  constructor
  · rintro ⟨-, -, hbase⟩
    rw [hbase, String.ofList_toList]
  · intro hbase
    have hsplit : (split (trim value.toList)).2 = s.includeAllToken.toList := by
      rw [← hbase, String.toList_ofList]
    rw [hsplit]
    exact ⟨h, h, rfl⟩

/-- Without commas in the settings one declaration is read. -/
theorem declarations_includeAll (hfolder : ',' ∉ s.descriptorsFolder.toList)
    (htoken : ',' ∉ s.includeAllToken.toList) :
    declarations s s.includeAll = [Declaration.ofText s s.includeAll] := by
  have hslash : '/' ∈ s.includeAll.toList := by
    rw [toList_includeAll]
    exact List.mem_append_right _ List.mem_cons_self
  refine declarations_of_comma_not_mem ?_
    (List.ne_nil_of_mem (mem_trim_of_not_isBlank hslash (by decide)))
  rw [toList_includeAll, List.mem_append, List.mem_cons, not_or, not_or]
  exact ⟨hfolder, by decide, htoken⟩

/-- The recommended header declares everything and nothing else, if it can be carried. -/
theorem declarations_includeAll_of_canDeclareAll (h : s.Acceptable) (hcan : s.CanDeclareAll) :
    ∃ d, declarations s s.includeAll = [d] ∧ d.endsPass = true ∧
      d.parentDirectory = s.descriptorsFolder := by
  obtain ⟨hfolder, htoken⟩ := ofText_includeAll h.folderSlash hcan.tokenSlash
  rw [trimStart_eq_self_iff.2 hcan.folderStart, String.ofList_toList] at hfolder
  rw [trimEnd_eq_self_iff.2 hcan.tokenEnd, String.ofList_toList] at htoken
  exact ⟨_, declarations_includeAll hcan.folderComma hcan.tokenComma,
    (Declaration.endsPass_ofText_iff h.tokenHasExtension).2 htoken, hfolder⟩

/-- It does so only if it can be carried. -/
theorem canDeclareAll_of_declarations (h : s.Acceptable)
    (hds : declarations s s.includeAll = [d]) (hends : d.endsPass = true)
    (hparent : d.parentDirectory = s.descriptorsFolder) : s.CanDeclareAll := by
  have hmem : d ∈ declarations s s.includeAll := hds ▸ List.mem_singleton_self d
  have hbase : d.baseName = s.includeAllToken := by
    obtain ⟨segment, -, rfl⟩ := List.mem_map.1 hmem
    exact (Declaration.endsPass_ofText_iff h.tokenHasExtension).1 hends
  -- the pieces have no comma, so there are none in the settings and the whole header is read
  obtain ⟨hfolderComma, htokenComma⟩ := comma_not_mem_of_mem_declarations hmem
  rw [hparent] at hfolderComma
  rw [hbase] at htokenComma
  rw [declarations_includeAll hfolderComma htokenComma, List.cons.injEq] at hds
  obtain ⟨rfl, -⟩ := hds
  have htokenSlash := Declaration.not_mem_baseName_slash s s.includeAll
  rw [hbase] at htokenSlash
  obtain ⟨hfolder, htoken⟩ := ofText_includeAll h.folderSlash htokenSlash
  rw [hparent, ← String.toList_inj, String.toList_ofList] at hfolder
  rw [hbase, ← String.toList_inj, String.toList_ofList] at htoken
  exact ⟨hfolderComma, trimStart_eq_self_iff.1 hfolder.symm, htokenComma, htokenSlash,
    trimEnd_eq_self_iff.1 htoken.symm⟩

/-- The messages that give advice name the declaration for everything. -/
theorem includeAll_infix_message {f : Finding}
    (h : f.kind = .includeAllAdvised ∨ f.kind = .repeatedService) :
    s.includeAll.toList <:+: (f.message s).toList := by
  rcases h with h | h
  · simp only [Finding.message, h, String.toList_append]
    exact List.infix_append _ _ _
  · simp only [Finding.message, h, String.toList_append]
    exact (List.infix_append _ _ _).trans (List.prefix_append _ _).isInfix

/-- **Following the advice leaves nothing to find.**  The messages of an audit recommend the
declaration for everything.  Once it is the value of the header, nothing is found, whatever files
there are, if and only if a header can carry it. -/
theorem following_advice_iff (h : s.fault? = none) (files : List Descriptor)
    (headerLine : Option Nat) :
    (reconcile s (declarations s s.includeAll) files headerLine = [] ↔ s.CanDeclareAll) ∧
      ∀ f : Finding, f.kind = .includeAllAdvised ∨ f.kind = .repeatedService →
        s.includeAll.toList <:+: (f.message s).toList := by
  have hacceptable := Settings.fault?_eq_none_iff.1 h
  refine ⟨?_, fun f => includeAll_infix_message⟩
  rw [reconcile_eq_nil_iff]
  constructor
  · rintro (⟨d, hds, hends, hparent⟩ | ⟨hds, -⟩)
    · exact canDeclareAll_of_declarations hacceptable hds hends hparent
    · refine absurd hds (declarations_ne_nil (c := '/') ?_ (by decide) (by decide))
      rw [toList_includeAll]
      exact List.mem_append_right _ List.mem_cons_self
  · exact fun hcan => Or.inl (declarations_includeAll_of_canDeclareAll hacceptable hcan)

/-- White space inside a folder's name does no harm, nor is a star needed. -/
theorem following_advice_spaced :
    let s : Settings := { descriptorsFolder := "my services", includeAllToken := "all.xml" }
    s.fault? = none ∧
      reconcile s (declarations s s.includeAll) [⟨"a.xml", "a.xml", false⟩] (some 2) = [] := by
  intro s
  have hfault : s.fault? = none := by decide +kernel
  have hstart : ∀ c, s.descriptorsFolder.toList.head? = some c → ¬ isBlank c := by
    intro c hc
    have hfirst : s.descriptorsFolder.toList.head? = some 'm' := by decide
    cases hfirst.symm.trans hc
    decide
  have hend : ∀ c, s.includeAllToken.toList.getLast? = some c → ¬ isBlank c := by
    intro c hc
    have hlast : s.includeAllToken.toList.getLast? = some 'l' := by decide
    cases hlast.symm.trans hc
    decide
  exact ⟨hfault, (following_advice_iff hfault _ _).1.2
    ⟨by decide, hstart, by decide, by decide, hend⟩⟩

/-- Settings may be accepted with a base name for everything that no header can carry. -/
theorem following_advice_nested :
    let s : Settings := { includeAllToken := "sub/*.xml" }
    s.fault? = none ∧ s.includeAll = "OSGI-INF/sub/*.xml" ∧
      reconcile s (declarations s s.includeAll) [] none =
        [⟨0, .wrongDirectory, ["sub"]⟩, ⟨0, .matchesNothing, ["OSGI-INF/sub/*.xml"]⟩] := by
  decide +kernel

end

end BundleAudit
