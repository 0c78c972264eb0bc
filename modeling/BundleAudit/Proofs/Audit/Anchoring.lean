import BundleAudit.Audit
import BundleAudit.Proofs.Manifest.Header
import BundleAudit.Proofs.Reconcile.Findings

/-!
# Where findings are put

Everything that an audit finds in a bundle with a declaration header is put at the line of that
header.  Without one there is no line to put it at: then findings have the line 0, which no line
has, and they are about files only, those that cannot be read and those that nothing declares.

## Main definitions

* `FileSystem.HasText fs p text` — the file at a path holds a text.
* `Finding.IsUnreadable f` — the finding that a file cannot be read.
* `DeclaresHeader name text` — a manifest whose main section has a header of a name.

## Main results

* `line_of_mem_reconcile` — a pass puts all its findings at one line.
* `readManifest_of_declaresHeader`, `readManifest_of_not_declaresHeader` — what reading the manifest
  leads to in either case.
-/

namespace BundleAudit

open Text

/-- The file at a path holds a text. -/
def FileSystem.HasText (fs : FileSystem) (p : Path) (text : String) : Prop :=
  ∃ bytes, fs.read p = .ok bytes ∧ String.fromUTF8? bytes = some text

/-- A finding that a file cannot be read. -/
def Finding.IsUnreadable (f : Finding) : Prop := ∃ p message, f = unreadable p message

/-- A manifest whose main section has a header of a name. -/
def DeclaresHeader (name text : List Char) : Prop :=
  (∃ attributes, Attributes.ofText text = .ok attributes) ∧
    ∃ line ∈ mainSection (splitLines text), NamesHeader name line

/-! ### The pass -/

namespace Reconciliation

variable {r : Reconciliation} {p : Progress} {ds : List Declaration} {d : Declaration} {f : Finding}

theorem line_of_mem_folderFindings (h : f ∈ r.folderFindings d) : f.line = r.line := by
  rw [folderFindings, List.mem_ite_nil_left, List.mem_singleton] at h
  rw [h.2, finding]

theorem line_of_mem_advice (h : f ∈ r.advice p) : f.line = r.line := by
  rw [advice, List.mem_ite_nil_left, List.mem_singleton] at h
  rw [h.2, finding]

theorem line_of_mem_repetition (h : f ∈ r.repetition) : f.line = r.line := by
  rw [repetition, List.mem_ite_nil_right, List.mem_singleton] at h
  rw [h.2, finding]

theorem line_of_mem_missing (h : f ∈ r.missing p) : f.line = r.line := by
  obtain ⟨name, -, rfl⟩ := List.mem_map.1 h
  rfl

theorem line_of_mem_undeclared (h : f ∈ r.undeclared p) : f.line = r.line := by
  obtain ⟨name, -, rfl⟩ := List.mem_map.1 h
  exact r.undeclaredLine_eq

/-- Whatever is remembered and whatever is declared, the findings of a pass have its line. -/
theorem line_of_mem_pass : ∀ f ∈ r.pass p ds, f.line = r.line := by
  induction ds generalizing p with
  | nil =>
    rw [pass_nil, List.forall_mem_append]
    exact ⟨fun f => line_of_mem_missing, fun f => line_of_mem_undeclared⟩
  | cons d ds ih =>
    have hfolder : ∀ f ∈ r.folderFindings d, f.line = r.line := fun f => line_of_mem_folderFindings
    have hadvice : ∀ f ∈ r.advice p, f.line = r.line := fun f => line_of_mem_advice
    cases hends : d.endsPass with
    | true =>
      rw [Declaration.endsPass, Bool.and_eq_true] at hends
      rw [pass_of_includesAll hends.1 hends.2, List.forall_mem_append]
      exact ⟨hfolder, fun f => line_of_mem_repetition⟩
    | false =>
      -- what the declaration itself adds is at the line, and the rest of the pass by induction
      rcases Declaration.kinds_of_not_endsPass hends with hext | hexp | hpart
      · rw [pass_of_not_hasExtension hext, List.forall_mem_append, List.forall_mem_cons]
        exact ⟨hfolder, rfl, ih⟩
      · rw [pass_of_isExplicit hexp, List.forall_mem_append, List.forall_mem_append]
        exact ⟨hfolder, hadvice, ih⟩
      · cases hcov : p.uncovered.any (d.covers r.settings) with
        | true =>
          rw [pass_of_isPartial hpart hcov, List.forall_mem_append, List.forall_mem_append]
          exact ⟨hfolder, hadvice, ih⟩
        | false =>
          rw [pass_of_isPartial_of_covers_none hpart hcov, List.forall_mem_append,
            List.forall_mem_cons]
          exact ⟨hfolder, rfl, ih⟩

end Reconciliation

section

variable {s : Settings} {ds : List Declaration} {files : List Descriptor}
  {headerLine : Option Nat} {f : Finding}

theorem line_of_mem_reconcile (h : f ∈ reconcile s ds files headerLine) :
    f.line = headerLine.getD 0 :=
  Reconciliation.line_of_mem_pass f h

/-- Without declarations there is nothing but undeclared files. -/
theorem kind_of_mem_reconcile_nil (h : f ∈ reconcile s [] files headerLine) :
    f.kind = .undeclaredService := by
  have hends : ∀ d ∈ ([] : List Declaration), d.endsPass = false := fun d hd =>
    absurd hd List.not_mem_nil
  rw [reconcile_eq hends, remarks_nil, List.nil_append] at h
  rcases List.mem_append.1 h with h | h
  · exact absurd h (by simp [missingFindings, declaredNames])
  · exact kind_of_mem_undeclaredFindings h

end

/-! ### Reading -/

section

variable {fs : FileSystem} {s : Settings} {p : Path} {text other : String} {m : Manifest}
  {f : Finding}

theorem FileSystem.HasText.unique (h : fs.HasText p text) (hother : fs.HasText p other) :
    text = other := by
  obtain ⟨bytes, hread, htext⟩ := h
  obtain ⟨bytes', hread', hother⟩ := hother
  rw [hread, Except.ok.injEq] at hread'
  rw [← hread', htext, Option.some.injEq] at hother
  exact hother

theorem Manifest.load_eq_ok_iff : Manifest.load fs s p = .ok m ↔
    ∃ text, fs.HasText p text ∧ Manifest.ofText s p text.toList = .ok m := by
  constructor
  · intro h
    rw [load] at h
    split at h
    · cases h
    · next bytes hread =>
      rw [ofBytes] at h
      split at h
      · cases h
      · next text htext => exact ⟨text, ⟨bytes, hread, htext⟩, h⟩
  · rintro ⟨text, ⟨bytes, hread, htext⟩, hof⟩
    rw [load, hread]
    dsimp only
    rw [ofBytes, htext]
    exact hof

theorem readManifest_of_load (h : Manifest.load fs s p = .ok m) :
    readManifest fs s p = (m, []) := by
  obtain ⟨text, ⟨bytes, hread, -⟩, -⟩ := Manifest.load_eq_ok_iff.1 h
  rw [readManifest, if_pos (FileSystem.isFile_of_read_eq_ok hread), h]

/-- Either the manifest is loaded, or it is absent with a finding at most. -/
theorem readManifest_cases (fs : FileSystem) (s : Settings) (p : Path) :
    (∃ m, Manifest.load fs s p = .ok m ∧ readManifest fs s p = (m, [])) ∨
      (readManifest fs s p).1 = .absent p ∧
        ∀ f ∈ (readManifest fs s p).2, f.IsUnreadable := by
  cases hload : Manifest.load fs s p with
  | ok m => exact Or.inl ⟨m, rfl, readManifest_of_load hload⟩
  | error e =>
    right
    rw [readManifest, hload]
    split
    · exact ⟨rfl, fun f hf => ⟨_, _, List.mem_singleton.1 hf⟩⟩
    · exact ⟨rfl, fun f hf => absurd hf List.not_mem_nil⟩

theorem isUnreadable_of_mem_readDescriptors (h : f ∈ (readDescriptors fs s p).2) :
    f.IsUnreadable := by
  rw [readDescriptors] at h
  split at h
  · obtain ⟨e, -, rfl⟩ := List.mem_map.1 h
    exact ⟨_, _, rfl⟩
  · exact absurd h List.not_mem_nil

theorem readDescriptors_findings_eq_nil (h : fs.isFolder p → (discover fs s p).errors = []) :
    (readDescriptors fs s p).2 = [] := by
  rw [readDescriptors]
  split
  · next hfolder =>
    dsimp only
    rw [h hfolder, List.take_nil, List.map_nil]
  · rfl

/-! ### The two cases -/

/-- A manifest with the header is read without a finding, and the header has a line. -/
theorem readManifest_of_declaresHeader (htext : fs.HasText p text)
    (hdecl : DeclaresHeader s.header.toList text.toList)
    (hlines : (splitLines text.toList).length < UInt32.size) :
    ∃ m, ∃ site : HeaderSite s.header.toList, site.lines = splitLines text.toList ∧
      readManifest fs s p = (m, []) ∧ m.headerLine = some site.number := by
  obtain ⟨⟨attributes, hread⟩, line, hmem, hnames⟩ := hdecl
  obtain ⟨m, hm⟩ : ∃ m, Manifest.ofText s p text.toList = .ok m := by
    rw [Manifest.ofText, hread]
    exact ⟨_, rfl⟩
  have hload := Manifest.load_eq_ok_iff.2 ⟨text, htext, hm⟩
  rcases Manifest.header_cases hm with ⟨site, hsite, -, hline⟩ | ⟨hnone, -, -⟩
  · exact ⟨m, site, hsite, readManifest_of_load hload, hline hlines⟩
  · exact absurd hnames (hnone line hmem)

/-- Without such a manifest there is neither a value nor a line. -/
theorem readManifest_of_not_declaresHeader
    (h : ¬ ∃ text, fs.HasText p text ∧ DeclaresHeader s.header.toList text.toList) :
    (readManifest fs s p).1.headerValue = none ∧ (readManifest fs s p).1.headerLine = none ∧
      ∀ f ∈ (readManifest fs s p).2, f.IsUnreadable := by
  rcases readManifest_cases fs s p with ⟨m, hload, hread⟩ | ⟨habsent, hfindings⟩
  · obtain ⟨text, htext, hm⟩ := Manifest.load_eq_ok_iff.1 hload
    rw [hread]
    rcases Manifest.header_cases hm with ⟨site, hsite, -, -⟩ | ⟨-, hvalue, hline⟩
    · obtain ⟨attributes, hentries, -⟩ := Manifest.ofText_eq_ok hm
      refine absurd ⟨text, htext, ⟨attributes, Attributes.ofLines_eq_ok_iff.2 hentries⟩, ?_⟩ h
      rw [← hsite]
      exact ⟨site.line, site.line_mem_mainSection, site.namesHeader_line⟩
    · exact ⟨hvalue, hline, fun f hf => absurd hf List.not_mem_nil⟩
  · rw [habsent]
    exact ⟨rfl, rfl, hfindings⟩

end

/-! ### The audit -/

theorem audit_findings (fs : FileSystem) (s : Settings) (bundle : Path) :
    (audit fs s bundle).findings =
      (readManifest fs s (s.manifestOf bundle)).2 ++ (readDescriptors fs s bundle).2 ++
        reconcile s (declarationsOf s (readManifest fs s (s.manifestOf bundle)).1.headerValue)
          (readDescriptors fs s bundle).1
          (readManifest fs s (s.manifestOf bundle)).1.headerLine := by
  rw [audit]

/-- **All findings are at the header, or none is.**  If the manifest can be read and has the header
in its main section, every finding is at one line, which opens that header.  In every other case
every finding has the line 0, and it is about a file that cannot be read or that nothing declares.
A bundle fails exactly if there is a finding of one of four kinds. -/
theorem audit_anchored (fs : FileSystem) (s : Settings) (bundle : Path) :
    (∀ text, fs.HasText (s.manifestOf bundle) text →
      DeclaresHeader s.header.toList text.toList →
      (splitLines text.toList).length < UInt32.size →
      (fs.isFolder bundle → (discover fs s bundle).errors = []) →
      ∃ n line, 0 < n ∧ (splitLines text.toList)[n - 1]? = some line ∧
        NamesHeader s.header.toList line ∧ ∀ f ∈ (audit fs s bundle).findings, f.line = n) ∧
    ((¬ ∃ text, fs.HasText (s.manifestOf bundle) text ∧
        DeclaresHeader s.header.toList text.toList) →
      ∀ f ∈ (audit fs s bundle).findings,
        f.line = 0 ∧ (f.kind = .unreadableFile ∨ f.kind = .undeclaredService)) ∧
    ((audit fs s bundle).passes = false ↔ ∃ f ∈ (audit fs s bundle).findings,
      f.kind = .wrongDirectory ∨ f.kind = .wrongExtension ∨ f.kind = .matchesNothing ∨
        f.kind = .missingService) := by
  refine ⟨?_, ?_, ?_⟩
  · intro text htext hdecl hlines hsearch
    obtain ⟨m, site, hsite, hread, hline⟩ := readManifest_of_declaresHeader htext hdecl hlines
    refine ⟨site.number, site.line, Nat.succ_pos _, ?_, site.namesHeader_line, ?_⟩
    · rw [← hsite]
      exact site.getElem?_lines
    · intro f hf
      rw [audit_findings, hread, readDescriptors_findings_eq_nil hsearch, List.nil_append] at hf
      rw [line_of_mem_reconcile hf, hline, Option.getD_some]
  · intro hnone f hf
    obtain ⟨hvalue, hline, hfindings⟩ := readManifest_of_not_declaresHeader hnone
    rw [audit_findings, hvalue, hline] at hf
    rcases List.mem_append.1 hf with hf | hf
    · have hunreadable : f.IsUnreadable :=
        (List.mem_append.1 hf).elim (hfindings f) isUnreadable_of_mem_readDescriptors
      obtain ⟨p, message, rfl⟩ := hunreadable
      exact ⟨rfl, Or.inl rfl⟩
    · exact ⟨line_of_mem_reconcile hf, Or.inr (kind_of_mem_reconcile_nil hf)⟩
  · rw [BundleReport.passes_eq_false_iff]
    simp only [Finding.isError_iff]

/-- The header stands on the second line, in small letters, and there is something to find. -/
theorem audit_anchored_second :
    let text := "A: b\nservice-component: web/x.xml"
    let fs := (FileSystem.emptyAt []).putFile
      [⟨"META-INF", by decide⟩, ⟨"MANIFEST.MF", by decide⟩] text.toUTF8
    (audit fs {} ⟨"."⟩).findings.map Finding.kind =
        [.wrongDirectory, .includeAllAdvised, .missingService] ∧
      ∃ n line, 0 < n ∧ (splitLines text.toList)[n - 1]? = some line ∧
        NamesHeader "Service-Component".toList line ∧
        ∀ f ∈ (audit fs {} ⟨"."⟩).findings, f.line = n := by
  intro text fs
  have htext : fs.HasText ⟨"./META-INF/MANIFEST.MF"⟩ text :=
    ⟨text.toUTF8, by decide +kernel, by decide +kernel⟩
  have hdecl : DeclaresHeader "Service-Component".toList text.toList := by
    refine ⟨⟨⟨[⟨"A", "b"⟩, ⟨"service-component", "web/x.xml"⟩]⟩, by decide +kernel⟩,
      "service-component: web/x.xml".toList, by decide +kernel, by decide +kernel, ?_⟩
    exact ⟨"service-component".toList, " web/x.xml".toList, by decide +kernel, by decide +kernel,
      by decide +kernel⟩
  have hlines : (splitLines text.toList).length < UInt32.size := by decide +kernel
  have hsearch : fs.isFolder ⟨"."⟩ → (discover fs {} ⟨"."⟩).errors = [] := by decide +kernel
  exact ⟨by decide +kernel, (audit_anchored fs {} ⟨"."⟩).1 text htext hdecl hlines hsearch⟩

end BundleAudit
