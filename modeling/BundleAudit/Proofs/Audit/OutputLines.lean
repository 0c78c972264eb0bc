import BundleAudit.Proofs.Audit.Anchoring
import BundleAudit.Proofs.Declarations.Spacing
import BundleAudit.Proofs.Reconcile.Overlap
import BundleAudit.Proofs.Report.Delivery

/-!
# Lines of the output

A report is written with a line feed after each finding.  Whether that makes a line of each depends
on what the findings show: a line feed in it splits the line.  What a manifest says never has one,
since a manifest is read line by line and errors quote it, but the names of files and of folders
and the settings may.

## Main definitions

* `IsOneLine text` — the text has no line feed.
* `Record.body r` — the line of a record without its end.
* `FindingKind.layout s kind` — the settings that the message of a kind shows.
* `Finding.shown f` — the names that the message of a finding shows.
* `Finding.IsAbout f d` — the names of a finding are parts of a declaration.
* `Finding.IsAboutDisk f` — the first name of a finding is that of a file, or a path.
* `BundleReport.ShowsPlainNames s r` — what a report shows of the disk and of the settings is on one
  line.

## Main results

* `count_lineFeed_iff`, `splitOn_lineFeed_iff` — when texts that are ended by line feeds are lines.
* `Finding.isOneLine_message_iff` — when a message is on one line.
* `Manifest.isOneLine_headerValue` — lines have no line feed, so neither have the headers that are
  read from them.
* `isAbout_of_mem_reconcile` — where the names in findings about declarations come from.
* `isOneLine_of_mem_shown` — an audit shows nothing else than names from the disk that could break
  a line.
* `audit_lines_iff` — **when each finding is a line of the output**.
-/

namespace BundleAudit

open Text

/-! ### Texts on one line -/

/-- A text without a line feed. -/
def IsOneLine (text : String) : Prop := '\n' ∉ text.toList

instance (text : String) : Decidable (IsOneLine text) := inferInstanceAs (Decidable (_ ∉ _))

@[simp] theorem isOneLine_append {a b : String} :
    IsOneLine (a ++ b) ↔ IsOneLine a ∧ IsOneLine b := by
  simp [IsOneLine]

@[simp] theorem isOneLine_empty : IsOneLine "" := by decide

/-- A literal is on one line if its characters are no line feeds. -/
theorem isOneLine_literal {text : String}
    (h : ∃ cs, text = String.ofList cs ∧ cs.all (· ≠ '\n') = true) : IsOneLine text := by
  obtain ⟨cs, rfl, hcs⟩ := h
  intro hmem
  rw [String.toList_ofList] at hmem
  exact absurd rfl (of_decide_eq_true (List.all_eq_true.1 hcs _ hmem))

@[simp] theorem isOneLine_decimal (n : Nat) : IsOneLine (decimal n) := by
  intro h
  have hdigit := isDigit_of_mem_decimal h
  simp at hdigit

/-- Texts that are each ended by a line feed have as many line feeds as there are texts if none is
in a text. -/
theorem count_lineFeed_iff {texts : List (List Char)} :
    (texts.flatMap (· ++ ['\n'])).count '\n' = texts.length ↔ ∀ text ∈ texts, '\n' ∉ text := by
  have hcount : (texts.flatMap (· ++ ['\n'])).count '\n' =
      texts.length + (texts.map (List.count '\n')).sum := by
    induction texts with
    | nil => rfl
    | cons text texts ih =>
      rw [List.flatMap_cons, List.count_append, List.count_append, ih, List.length_cons,
        List.map_cons, List.sum_cons, List.count_singleton_self]
      omega
  rw [hcount, Nat.add_eq_left, List.sum_eq_zero_iff_forall_eq_nat]
  simp [List.count_eq_zero]

/-- The same texts are found again by cutting at line feeds, with nothing behind the last. -/
theorem splitOn_lineFeed_iff {texts : List (List Char)} :
    (texts.flatMap (· ++ ['\n'])).splitOn '\n' = texts ++ [[]] ↔ ∀ text ∈ texts, '\n' ∉ text := by
  constructor
  · intro h
    have hlength := length_splitOn '\n' (texts.flatMap (· ++ ['\n']))
    rw [h, List.length_append, List.length_singleton, Nat.add_right_cancel_iff] at hlength
    exact count_lineFeed_iff.1 hlength.symm
  · intro h
    induction texts with
    | nil => rfl
    | cons text texts ih =>
      obtain ⟨htext, htexts⟩ := List.forall_mem_cons.1 h
      rw [List.flatMap_cons, List.append_assoc, List.singleton_append,
        List.splitOn_append_cons_self, List.splitOn_eq_singleton htext, ih htexts]
      rfl

/-! ### Records -/

/-- The line of a record without its end. -/
def Record.body (r : Record) : String :=
  r.file ++ ":" ++ decimal r.line ++ ": " ++ r.severity.name ++ ": " ++ r.message ++
    " [" ++ r.kind.code ++ "]"

theorem Record.toList_lineText (r : Record) : r.lineText.toList = r.body.toList ++ ['\n'] := by
  simp [lineText, body]

theorem Record.isOneLine_body_iff {r : Record} :
    IsOneLine r.body ↔ IsOneLine r.file ∧ IsOneLine r.message := by
  obtain ⟨file, line, kind, params, message⟩ := r
  have hsigns : IsOneLine ":" ∧ IsOneLine ": " ∧ IsOneLine " [" ∧ IsOneLine "]" := by decide
  have hseverity : IsOneLine kind.severity.name := by
    cases kind <;> exact isOneLine_literal ⟨_, rfl, rfl⟩
  have hcode : IsOneLine kind.code := by cases kind <;> exact isOneLine_literal ⟨_, rfl, rfl⟩
  simp [body, severity, hsigns, hseverity, hcode]

/-- What is written for a report: the lines of its records. -/
theorem toList_deliver_textWriter (s : Settings) (r : BundleReport) :
    ((textWriter s).deliver "" r).1.toList =
      ((r.records s).map fun x => x.body.toList).flatMap (· ++ ['\n']) := by
  have htext : ((textWriter s).deliver "" r).1 =
      String.join ((r.records s).map Record.lineText) := by
    rw [(folds_textWriter s).deliver, foldl_lineText, BundleReport.map_located]
  rw [htext, String.toList_join, List.flatMap_map, List.flatMap_map]
  exact List.flatMap_congr fun x _ => x.toList_lineText

/-! ### Messages -/

/-- The settings that the message of a kind shows. -/
def FindingKind.layout (s : Settings) : FindingKind → List String
  | .wrongDirectory | .missingService => [s.descriptorsFolder]
  | .wrongExtension => [s.descriptorExtension, s.descriptorsFolder]
  | .matchesNothing | .unreadableFile => []
  | .includeAllAdvised | .repeatedService => [s.includeAll]
  | .undeclaredService => [s.manifestFileName]

/-- The names that the message of a finding shows. -/
def Finding.shown (f : Finding) : List String :=
  match f.kind with
  | .includeAllAdvised | .repeatedService => []
  | .unreadableFile => [f.param 0, f.param 1]
  | _ => [f.param 0]

/-- A message is on one line if all is that it shows. -/
theorem Finding.isOneLine_message_iff {s : Settings} {f : Finding} :
    IsOneLine (f.message s) ↔
      (∀ name ∈ f.shown, IsOneLine name) ∧ ∀ name ∈ f.kind.layout s, IsOneLine name := by
  obtain ⟨line, kind, params⟩ := f
  cases kind <;>
    simp only [Finding.message, FindingKind.layout, Finding.shown, isOneLine_append, List.mem_cons,
      List.not_mem_nil, or_false, forall_eq, forall_eq_or_imp, false_imp_iff, implies_true] <;>
    simp (disch := exact ⟨_, rfl, rfl⟩) only [isOneLine_literal, true_and, and_true, and_assoc]

/-! ### What a manifest says

Its lines have no line feed, and what it declares consists of parts of its lines. -/

/-- The value of a header consists of parts of lines. -/
theorem HeaderSite.exists_mem_of_mem_value {name : List Char} (site : HeaderSite name) {c : Char}
    (h : c ∈ site.value) : ∃ line ∈ site.lines, c ∈ line := by
  have hlines (line : List Char) (hline : line = site.line ∨ line ∈ site.more) :
      line ∈ site.lines := by
    rw [HeaderSite.lines]
    rcases hline with rfl | hline <;> simp_all
  rcases List.mem_append.1 h with h | h
  · have hstart : c ∈ site.start := by
      rw [Attribute.dropSpace.eq_def] at h
      split at h
      · next heq =>
        rw [heq]
        exact List.mem_cons_of_mem _ h
      · exact h
    exact ⟨site.line, hlines _ (Or.inl rfl),
      List.mem_append_right _ (List.mem_cons_of_mem _ hstart)⟩
  · obtain ⟨line, hline, hc⟩ := List.mem_flatMap.1 h
    exact ⟨line, hlines _ (Or.inr hline), List.mem_of_mem_tail hc⟩

theorem Manifest.isOneLine_headerValue {s : Settings} {path : Path} {text : List Char}
    {m : Manifest} (h : ofText s path text = .ok m) : ∀ value ∈ m.headerValue, IsOneLine value := by
  intro value hvalue
  rcases header_cases h with ⟨site, hlines, hsite, -⟩ | ⟨-, hnone, -⟩
  · rw [hsite, Option.mem_some] at hvalue
    intro hmem
    rw [← hvalue, String.toList_ofList] at hmem
    obtain ⟨line, hline, hlf⟩ := site.exists_mem_of_mem_value hmem
    rw [hlines] at hline
    exact lineFeed_not_mem_of_mem_splitLines hline hlf
  · rw [hnone] at hvalue
    cases hvalue

/-- No declaration of a value on one line has a line feed in it. -/
theorem isOneLine_of_mem_declarationsOf {s : Settings} {value : Option String} {d : Declaration}
    (h : d ∈ declarationsOf s value) (hvalue : ∀ v ∈ value, IsOneLine v) :
    IsOneLine d.parentDirectory ∧ IsOneLine d.baseName ∧ IsOneLine d.raw := by
  cases value with
  | none => cases h
  | some value =>
    rw [declarationsOf_some] at h
    have hraw : IsOneLine d.raw := by
      intro hmem
      exact hvalue value rfl (mem_of_mem_tokens (raw_mem_tokens h) hmem)
    exact ⟨fun hmem => hraw (mem_raw_of_mem_declarations h (Or.inl hmem)),
      fun hmem => hraw (mem_raw_of_mem_declarations h (Or.inr hmem)), hraw⟩

/-! ### What findings are about -/

section

variable {s : Settings} {names : List String} {line : Nat} {ds before : List Declaration}
  {files : List Descriptor} {headerLine : Option Nat} {d : Declaration} {f : Finding}

/-- A finding is about parts of a declaration, or about none. -/
def Finding.IsAbout (f : Finding) (d : Declaration) : Prop :=
  ∀ name ∈ f.params, name = d.parentDirectory ∨ name = d.baseName ∨ name = d.raw

theorem isAbout_of_mem_folderRemarks (h : f ∈ folderRemarks s line d) : f.IsAbout d := by
  rw [folderRemarks, List.mem_ite_nil_left, List.mem_singleton] at h
  rw [h.2]
  simp [Finding.IsAbout]

theorem isAbout_of_mem_remarksOn (h : f ∈ remarksOn s names line before d) : f.IsAbout d := by
  simp only [remarksOn, List.mem_append] at h
  rcases h with ((h | h) | h) | h
  · exact isAbout_of_mem_folderRemarks h
  · rw [List.mem_ite_nil_left, List.mem_singleton] at h
    rw [h.2]
    simp [Finding.IsAbout]
  · rw [List.mem_ite_nil_right, List.mem_singleton] at h
    rw [h.2]
    simp [Finding.IsAbout]
  · rw [List.mem_ite_nil_right, List.mem_singleton] at h
    rw [h.2]
    simp [Finding.IsAbout]

theorem isAbout_of_mem_closing (h : f ∈ closing s files line ds) :
    f.kind = .undeclaredService ∨ f.params = [] ∨ ∃ d ∈ ds, f.IsAbout d := by
  rw [closing] at h
  split at h
  · rcases List.mem_append.1 h with h | h
    · obtain ⟨name, hname, rfl⟩ := List.mem_map.1 h
      obtain ⟨d, hd, -, rfl⟩ := mem_declaredNames.1 (List.mem_filter.1 hname).1
      exact Or.inr (Or.inr ⟨d, hd, by simp [Finding.IsAbout]⟩)
    · exact Or.inl (kind_of_mem_undeclaredFindings h)
  · next g hg =>
    rcases List.mem_append.1 h with h | h
    · exact Or.inr (Or.inr ⟨g, List.mem_of_find?_eq_some hg, isAbout_of_mem_folderRemarks h⟩)
    · rw [List.mem_ite_nil_right, List.mem_singleton] at h
      exact Or.inr (Or.inl (by rw [h.2]))

/-- A finding about declarations is about an undeclared file, about nothing, or about parts of one
of them. -/
theorem isAbout_of_mem_reconcile (h : f ∈ reconcile s ds files headerLine) :
    f.kind = .undeclaredService ∨ f.params = [] ∨ ∃ d ∈ ds, f.IsAbout d := by
  rw [reconcile_eq_remarks_append] at h
  rcases List.mem_append.1 h with h | h
  · obtain ⟨⟨d, i⟩, hd, hf⟩ := List.mem_flatMap.1 h
    have hmem : d ∈ ds := List.takeWhile_subset _ (List.fst_mem_of_mem_zipIdx hd)
    exact Or.inr (Or.inr ⟨d, hmem, isAbout_of_mem_remarksOn hf⟩)
  · exact isAbout_of_mem_closing h

end

/-! ### What could not be read -/

section

variable {fs : FileSystem} {s : Settings} {p bundle : Path} {f : Finding}

theorem SystemError.isOneLine_message (e : SystemError) : IsOneLine e.message := by
  cases e <;> exact isOneLine_literal ⟨_, rfl, rfl⟩

theorem isOneLine_quotedString (text : String) : IsOneLine (quotedString text) := by
  rw [IsOneLine, quotedString, String.toList_ofList]
  exact not_mem_quoted_lf _

/-- The reason why a file is no manifest is on one line if its path is: what it quotes of the file
is escaped. -/
theorem ManifestError.isOneLine_message (h : IsOneLine p.text) (e : ManifestError) :
    IsOneLine (e.message p) := by
  cases e with
  | unreadable error =>
    show IsOneLine ("read manifest " ++ p.text ++ ": " ++ error.message)
    simp (disch := exact ⟨_, rfl, rfl⟩) only [isOneLine_append, isOneLine_literal, h,
      error.isOneLine_message, and_self]
  | notUtf8 =>
    show IsOneLine ("manifest " ++ p.text ++ " is not valid UTF-8")
    simp (disch := exact ⟨_, rfl, rfl⟩) only [isOneLine_append, isOneLine_literal, h, and_self]
  | malformed line =>
    show IsOneLine ("invalid manifest header at line " ++ decimal line.line ++ ": " ++
      quotedString line.text)
    simp (disch := exact ⟨_, rfl, rfl⟩) only [isOneLine_append, isOneLine_literal,
      isOneLine_decimal, isOneLine_quotedString, and_self]

/-- So is the reason why a path could not be searched. -/
theorem isOneLine_searchFailure (h : IsOneLine p.text) (e : SystemError) :
    IsOneLine (searchFailure p e).2 := by
  show IsOneLine ("IO error for operation on " ++ p.text ++ ": " ++ e.message)
  simp (disch := exact ⟨_, rfl, rfl⟩) only [isOneLine_append, isOneLine_literal, h,
    e.isOneLine_message, and_self]

theorem exists_of_mem_readManifest (h : f ∈ (readManifest fs s p).2) :
    ∃ e : ManifestError, f = unreadable p (e.message p) := by
  rw [readManifest] at h
  split at h
  · split at h
    · cases h
    · exact ⟨_, List.mem_singleton.1 h⟩
  · cases h

theorem exists_of_mem_readDescriptors (h : f ∈ (readDescriptors fs s bundle).2) :
    ∃ p e, f = unreadable (searchFailure p e).1 (searchFailure p e).2 := by
  have herrors : ∀ x ∈ (discover fs s bundle).errors, ∃ p e, x = searchFailure p e := by
    intro x hx
    rw [discover] at hx
    split at hx
    · exact ⟨_, _, List.mem_singleton.1 hx⟩
    · cases hx
    · obtain ⟨ns, -, rfl⟩ := List.mem_map.1 hx
      exact ⟨_, _, rfl⟩
  rw [readDescriptors] at h
  split at h
  · obtain ⟨x, hx, rfl⟩ := List.mem_map.1 h
    obtain ⟨p, e, rfl⟩ := herrors x (List.mem_of_mem_take hx)
    exact ⟨p, e, rfl⟩
  · cases h

/-- The value of the declaration header is on one line. -/
theorem isOneLine_headerValue_readManifest :
    ∀ value ∈ (readManifest fs s p).1.headerValue, IsOneLine value := by
  rcases readManifest_cases fs s p with ⟨m, hload, hread⟩ | ⟨habsent, -⟩
  · obtain ⟨text, -, hm⟩ := Manifest.load_eq_ok_iff.1 hload
    rw [hread]
    exact Manifest.isOneLine_headerValue hm
  · rw [habsent]
    intro value hvalue
    cases hvalue

end

/-! ### What an audit shows -/

section

variable {fs : FileSystem} {s : Settings} {bundle : Path} {f : Finding}

/-- A finding that is about something on the disk: an undeclared file, or a path that could not be
read. -/
def Finding.IsAboutDisk (f : Finding) : Prop :=
  f.kind = .undeclaredService ∨ f.kind = .unreadableFile

theorem Finding.isOneLine_param (h : ∀ name ∈ f.params, IsOneLine name) (i : Nat) :
    IsOneLine (f.param i) := by
  rw [param, List.getD_eq_getElem?_getD]
  cases hi : f.params[i]? with
  | none => exact isOneLine_empty
  | some name => exact h name (List.mem_of_getElem? hi)

/-- A message shows the first name of a finding, and if something could not be read the second one,
which is the reason. -/
theorem Finding.mem_shown {name : String} (h : name ∈ f.shown) :
    name = f.param 0 ∨ f.kind = .unreadableFile ∧ name = f.param 1 := by
  obtain ⟨line, kind, params⟩ := f
  cases kind <;> simp_all [shown]

/-- **Nothing but a name from the disk can break a line.** -/
theorem isOneLine_of_mem_shown (h : f ∈ (audit fs s bundle).findings)
    (hdisk : f.IsAboutDisk → IsOneLine (f.param 0)) : ∀ name ∈ f.shown, IsOneLine name := by
  rw [audit_findings, List.mem_append, List.mem_append] at h
  intro name hname
  rcases h with (h | h) | h
  · obtain ⟨e, rfl⟩ := exists_of_mem_readManifest h
    have hpath : IsOneLine (s.manifestOf bundle).text := hdisk (Or.inr rfl)
    rcases Finding.mem_shown hname with rfl | ⟨-, rfl⟩
    · exact hpath
    · exact e.isOneLine_message hpath
  · obtain ⟨p, e, rfl⟩ := exists_of_mem_readDescriptors h
    have hpath : IsOneLine p.text := hdisk (Or.inr rfl)
    rcases Finding.mem_shown hname with rfl | ⟨-, rfl⟩
    · exact hpath
    · exact isOneLine_searchFailure hpath e
  · rcases isAbout_of_mem_reconcile h with hkind | hnone | ⟨d, hd, habout⟩
    · rcases Finding.mem_shown hname with rfl | ⟨hother, -⟩
      · exact hdisk (Or.inl hkind)
      · rw [hkind] at hother
        cases hother
    · have hparams : ∀ name ∈ f.params, IsOneLine name := by simp [hnone]
      rcases Finding.mem_shown hname with rfl | ⟨-, rfl⟩ <;> exact Finding.isOneLine_param hparams _
    · have hparams : ∀ name ∈ f.params, IsOneLine name := by
        obtain ⟨hfolder, hbase, hraw⟩ := isOneLine_of_mem_declarationsOf hd
          isOneLine_headerValue_readManifest
        intro name hname
        rcases habout name hname with rfl | rfl | rfl
        · exact hfolder
        · exact hbase
        · exact hraw
      rcases Finding.mem_shown hname with rfl | ⟨-, rfl⟩ <;> exact Finding.isOneLine_param hparams _

/-! ### Lines of a report -/

/-- Whatever a report shows of the disk and of the settings has no line feed: the path of the
manifest, the names of undeclared files, the paths that could not be read, and the settings in the
messages. -/
def BundleReport.ShowsPlainNames (s : Settings) (r : BundleReport) : Prop :=
  ∀ f ∈ r.findings, IsOneLine r.manifest.text ∧ (f.IsAboutDisk → IsOneLine (f.param 0)) ∧
    ∀ name ∈ f.kind.layout s, IsOneLine name

theorem Finding.param_zero_mem_shown (h : f.IsAboutDisk) : f.param 0 ∈ f.shown := by
  rcases h with h | h <;> simp [shown, h]

/-- The records of an audit are one line each if it shows plain names. -/
theorem forall_body_iff (fs : FileSystem) (s : Settings) (bundle : Path) :
    (∀ line ∈ ((audit fs s bundle).records s).map fun x => x.body.toList, '\n' ∉ line) ↔
      (audit fs s bundle).ShowsPlainNames s := by
  rw [List.forall_mem_map, BundleReport.records, List.forall_mem_map]
  refine forall₂_congr fun f hf => ?_
  show IsOneLine (Record.ofFinding s (audit fs s bundle).manifest f).body ↔ _
  rw [Record.isOneLine_body_iff]
  refine and_congr_right fun _ => ?_
  show IsOneLine (f.message s) ↔ _
  rw [Finding.isOneLine_message_iff]
  constructor
  · rintro ⟨hshown, hlayout⟩
    exact ⟨fun hdisk => hshown _ (Finding.param_zero_mem_shown hdisk), hlayout⟩
  · rintro ⟨hdisk, hlayout⟩
    exact ⟨isOneLine_of_mem_shown hf hdisk, hlayout⟩

/-- The line feeds of the text of an audit. -/
theorem count_deliver_iff (fs : FileSystem) (s : Settings) (bundle : Path) :
    ((textWriter s).deliver "" (audit fs s bundle)).1.toList.count '\n' =
      (audit fs s bundle).findings.length ↔ (audit fs s bundle).ShowsPlainNames s := by
  have hlength : (audit fs s bundle).findings.length =
      (((audit fs s bundle).records s).map fun x => x.body.toList).length := by
    rw [List.length_map, BundleReport.records, List.length_map]
  rw [toList_deliver_textWriter, hlength, count_lineFeed_iff, forall_body_iff]

/-- **When each finding is a line of the output.**  The text of a report has as many line feeds as
there are findings exactly if the report shows plain names, and then its lines are those of the
findings in order.  So no declaration and no text of an error can split a line, but the name of a
file, a path or a setting can. -/
theorem audit_lines_iff (fs : FileSystem) (s : Settings) (bundle : Path) :
    let r := audit fs s bundle
    let text := ((textWriter s).deliver "" r).1.toList
    (text.count '\n' = r.findings.length ↔ r.ShowsPlainNames s) ∧
      (text.splitOn '\n' = (r.records s).map (fun x => x.body.toList) ++ [[]] ↔
        r.ShowsPlainNames s) := by
  intro r text
  constructor
  · exact count_deliver_iff fs s bundle
  · have htext : text = ((r.records s).map fun x => x.body.toList).flatMap (· ++ ['\n']) :=
      toList_deliver_textWriter s r
    rw [htext, splitOn_lineFeed_iff]
    exact forall_body_iff fs s bundle

/-- The name of a file splits the line of a finding. -/
theorem audit_lines_split :
    let fs := (FileSystem.emptyAt []).putFile
      [⟨"m", by decide⟩, ⟨"OSGI-INF", by decide⟩, ⟨"a\nb.xml", by decide⟩] ByteArray.empty
    let r := audit fs {} ⟨"m"⟩
    r.findings = [⟨0, .undeclaredService, ["a\nb.xml"]⟩] ∧
      ((textWriter {}).deliver "" r).1.toList.count '\n' ≠ r.findings.length := by
  intro fs r
  have hfindings : r.findings = [⟨0, .undeclaredService, ["a\nb.xml"]⟩] := by decide +kernel
  refine ⟨hfindings, ?_⟩
  intro hcount
  have hplain := (count_deliver_iff fs {} ⟨"m"⟩).1 hcount ⟨0, .undeclaredService, ["a\nb.xml"]⟩
    (by rw [hfindings]; exact List.mem_cons_self)
  exact absurd (hplain.2.1 (Or.inl rfl)) (by decide)

end

end BundleAudit
