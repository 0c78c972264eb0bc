import BundleAudit.Manifest.Context
import BundleAudit.Proofs.Manifest.MainSection

/-!
# The header that a manifest is audited for

The value of a header is taken from the headers that were read, and its line is looked for among all
lines of the manifest, those of later sections included.  The two have nothing in common but the
text and the name.  Still they are about the same header: a line can only show the name before a
colon if it opens a header of that name, and the main section comes first.

## Main definitions

* `NamesHeader name line` — the line opens a header of a name.
* `HeaderSite name` — lines, cut where they open the first header of a name.

## Main results

* `HeaderSite.locateHeader?_lines` — the search among the lines ends at that place.
* `HasEntries.find?_eq_some`, `HasEntries.find?_eq_none` — so does the search among the headers, and
  it fails only if the main section has no such line.
* `Manifest.ofText_header` — the value and the line of a manifest's header.
-/

namespace BundleAudit

open Text

/-- A line that continues no value and shows, before its first colon, a name up to the case of ASCII
letters. -/
def NamesHeader (name line : List Char) : Prop :=
  ¬ IsContinuation line ∧
    ∃ own value, line = own ++ ':' :: value ∧ ':' ∉ own ∧ sameName own name

/-- Lines, cut where their main section opens a header of a name for the first time. -/
structure HeaderSite (name : List Char) where
  /-- The lines before. -/
  before : List (List Char)
  /-- The name as the line has it. -/
  own : List Char
  /-- What the line has after its first colon. -/
  start : List Char
  /-- The continuations right below. -/
  more : List (List Char)
  /-- The lines after them. -/
  after : List (List Char)
  before_ok : ∀ line ∈ before, line ≠ [] ∧ ¬ NamesHeader name line
  own_ok : Attribute.IsName own
  own_same : sameName own name
  more_ok : ∀ line ∈ more, IsContinuation line
  after_ok : ∀ line ∈ after.head?, ¬ IsContinuation line

namespace Attribute.IsName

variable {own name value line : List Char}

theorem namesHeader_iff (h : IsName own) :
    NamesHeader name (own ++ ':' :: value) ↔ sameName own name := by
  constructor
  · rintro ⟨-, head, rest, heq, hhead, hsame⟩
    rwa [(h.eq_of_append_eq hhead heq).1]
  · intro hsame
    exact ⟨h.not_isContinuation value, own, value, rfl, h.not_mem_colon, hsame⟩

theorem of_sameName (h : IsName own) (hsame : sameName name own) : IsName name := by
  refine ⟨?_, fun hmem => ?_, fun hmem => ?_⟩
  · rintro rfl
    have hnil : own.map Char.toLower = [] := (sameName_iff.1 hsame).symm
    exact h.ne_nil (List.map_eq_nil_iff.1 hnil)
  · exact h.not_mem_space (mem_of_sameName hsame (by decide) hmem)
  · exact h.not_mem_colon (mem_of_sameName hsame (by decide) hmem)

/-- To show the name and a colon is to open a header, provided that the name can be one. -/
theorem opensHeader_iff (h : IsName name) :
    opensHeader name line = true ↔ NamesHeader name line := by
  rw [Text.opensHeader_iff]
  constructor
  · rintro ⟨head, rest, rfl, hsame⟩
    exact (h.of_sameName hsame).namesHeader_iff.2 hsame
  · rintro ⟨-, head, rest, rfl, -, hsame⟩
    exact ⟨head, rest, rfl, hsame⟩

end Attribute.IsName

/-! ### The place of a header -/

namespace HeaderSite

variable {name : List Char}

/-- The line that opens the header. -/
def line (site : HeaderSite name) : List Char := site.own ++ ':' :: site.start

/-- The number of that line. -/
def number (site : HeaderSite name) : Nat := site.before.length + 1

/-- The value of the header: what follows the colon, and all continuations. -/
def value (site : HeaderSite name) : List Char :=
  Attribute.dropSpace site.start ++ site.more.flatMap List.tail

/-- All lines. -/
def lines (site : HeaderSite name) : List (List Char) :=
  site.before ++ site.line :: (site.more ++ site.after)

theorem namesHeader_line (site : HeaderSite name) : NamesHeader name site.line :=
  site.own_ok.namesHeader_iff.2 site.own_same

theorem getElem?_lines (site : HeaderSite name) :
    site.lines[site.before.length]? = some site.line := by
  rw [lines, List.getElem?_append_right (Nat.le_refl _), Nat.sub_self]
  rfl

theorem number_le_length (site : HeaderSite name) : site.number ≤ site.lines.length := by
  rw [number, lines, List.length_append, List.length_cons]
  omega

theorem line_mem_mainSection (site : HeaderSite name) : site.line ∈ mainSection site.lines := by
  have hbefore : ∀ line ∈ site.before, decide (line ≠ []) = true := fun line hline =>
    decide_eq_true (site.before_ok line hline).1
  have hline : site.line ≠ [] := by simp [line]
  rw [lines, mainSection, List.takeWhile_append_of_pos hbefore, ← mainSection,
    mainSection_cons hline]
  exact List.mem_append_right _ List.mem_cons_self

/-- The search among the lines ends at the place, whether or not it has a number there. -/
theorem locateHeader?_lines (site : HeaderSite name) :
    locateHeader? name site.lines = lineNumber? site.before.length := by
  have hname : Attribute.IsName name := by
    refine site.own_ok.of_sameName ?_
    rw [sameName_iff]
    exact (sameName_iff.1 site.own_same).symm
  have hbefore : site.before.findIdx? (opensHeader name) = none := by
    rw [List.findIdx?_eq_none_iff]
    intro line hline
    rw [Bool.eq_false_iff, ne_eq, hname.opensHeader_iff]
    exact (site.before_ok line hline).2
  have hopens : opensHeader name site.line = true :=
    hname.opensHeader_iff.2 site.namesHeader_line
  have hfind : site.lines.findIdx? (opensHeader name) = some site.before.length := by
    rw [lines, List.findIdx?_append, hbefore, List.findIdx?_cons, hopens]
    simp
  rw [locateHeader?, hfind, Option.bind_some]

theorem locateHeader?_eq (site : HeaderSite name) (h : site.lines.length < UInt32.size) :
    locateHeader? name site.lines = some site.number := by
  have hnumber : site.before.length + 1 < UInt32.size :=
    Nat.lt_of_le_of_lt site.number_le_length h
  rw [locateHeader?_lines, lineNumber?, if_pos hnumber, number]

end HeaderSite

/-! ### The headers that were read -/

namespace HasEntries

variable {name : List Char} {lines : List (List Char)} {as : List Attribute}

/-- The first header of a name among those read is opened where the lines first open one. -/
theorem find?_eq_some (h : HasEntries lines as) {a : Attribute}
    (hfind : as.find? (fun a => sameName a.name.toList name) = some a) :
    ∃ site : HeaderSite name, site.lines = lines ∧ a.value = String.ofList site.value := by
  induction h with
  | nil => cases hfind
  | blank => cases hfind
  | @header own start more lines as name_ok more_ok rest ih =>
    rw [List.find?_cons, String.toList_ofList] at hfind
    cases hsame : sameName own name with
    | true =>
      rw [hsame] at hfind
      cases hfind
      exact ⟨⟨[], own, start, more, lines, by simp, name_ok, hsame, more_ok,
        rest.not_isContinuation_head⟩, rfl, rfl⟩
    | false =>
      rw [hsame] at hfind
      obtain ⟨site, rfl, hvalue⟩ := ih hfind
      have hskip : ∀ line ∈ (own ++ ':' :: start) :: (more ++ site.before),
          line ≠ [] ∧ ¬ NamesHeader name line := by
        intro line hline
        rcases List.mem_cons.1 hline with rfl | hline
        · rw [name_ok.namesHeader_iff, hsame]
          exact ⟨by simp, by decide⟩
        · rcases List.mem_append.1 hline with hline | hline
          · exact ⟨(more_ok line hline).ne_nil, fun hnames => hnames.1 (more_ok line hline)⟩
          · exact site.before_ok line hline
      refine ⟨{ site with
        before := (own ++ ':' :: start) :: (more ++ site.before)
        before_ok := hskip }, ?_, hvalue⟩
      simp [HeaderSite.lines, HeaderSite.line]

theorem find?_eq_none (h : HasEntries lines as)
    (hfind : as.find? (fun a => sameName a.name.toList name) = none) :
    ∀ line ∈ mainSection lines, ¬ NamesHeader name line := by
  induction h with
  | nil => exact fun line hline => absurd hline List.not_mem_nil
  | blank => exact fun line hline => absurd hline List.not_mem_nil
  | @header own start more lines as name_ok more_ok rest ih =>
    rw [List.find?_cons, String.toList_ofList] at hfind
    cases hsame : sameName own name with
    | true => rw [hsame] at hfind; cases hfind
    | false =>
      rw [hsame] at hfind
      have hne : own ++ ':' :: start ≠ [] := by simp
      rw [mainSection_cons hne, mainSection_append more_ok]
      intro line hline
      rcases List.mem_cons.1 hline with rfl | hline
      · rw [name_ok.namesHeader_iff, hsame]
        decide
      · rcases List.mem_append.1 hline with hline | hline
        · exact fun hnames => hnames.1 (more_ok line hline)
        · exact ih hfind line hline

end HasEntries

/-! ### The manifest -/

namespace Manifest

variable {s : Settings} {path : Path} {text : List Char} {m : Manifest}

theorem ofText_eq_ok (h : ofText s path text = .ok m) :
    ∃ attributes : Attributes, HasEntries (splitLines text) attributes.entries ∧
      m = ⟨path, (splitLines text).map String.ofList, attributes.get? s.header,
        if (attributes.get? s.header).isSome then
          locateHeader? s.header.toList (splitLines text) else none⟩ := by
  unfold ofText at h
  cases hread : Attributes.ofText text with
  | error line => rw [hread] at h; cases h
  | ok attributes =>
    rw [hread] at h
    exact ⟨attributes, Attributes.ofLines_eq_ok_iff.1 hread, (Except.ok.inj h).symm⟩

/-- A manifest has the header of a place, or there is no such place. -/
theorem header_cases (h : ofText s path text = .ok m) :
    (∃ site : HeaderSite s.header.toList, site.lines = splitLines text ∧
      m.headerValue = some (String.ofList site.value) ∧
      ((splitLines text).length < UInt32.size → m.headerLine = some site.number)) ∨
    (∀ line ∈ mainSection (splitLines text), ¬ NamesHeader s.header.toList line) ∧
      m.headerValue = none ∧ m.headerLine = none := by
  obtain ⟨attributes, hentries, rfl⟩ := ofText_eq_ok h
  cases hfind : attributes.entries.find? (fun a => sameName a.name.toList s.header.toList) with
  | some a =>
    obtain ⟨site, hsite, hvalue⟩ := hentries.find?_eq_some hfind
    have hget : attributes.get? s.header = some (String.ofList site.value) := by
      rw [Attributes.get?, hfind, ← hvalue]
      rfl
    left
    refine ⟨site, hsite, hget, ?_⟩
    intro hlines
    rw [← hsite] at hlines ⊢
    rw [hget, Option.isSome_some, if_pos rfl, site.locateHeader?_eq hlines]
  | none =>
    have hget : attributes.get? s.header = none := by
      rw [Attributes.get?, hfind]
      rfl
    right
    refine ⟨hentries.find?_eq_none hfind, hget, ?_⟩
    rw [hget]
    rfl

/-- **The value and the line of a header belong together.**  A manifest has a value for the header
exactly if a line of its main section opens a header of that name.  The value is that of the first
such line with the continuations below it, and the line found is this line.  Otherwise there is
neither a value nor a line, whatever later sections hold. -/
theorem ofText_header (h : ofText s path text = .ok m)
    (hlines : (splitLines text).length < UInt32.size) :
    (m.headerValue.isSome = true ↔
      ∃ line ∈ mainSection (splitLines text), NamesHeader s.header.toList line) ∧
    (∀ v, m.headerValue = some v → ∃ before own start more after,
      splitLines text = before ++ (own ++ ':' :: start) :: (more ++ after) ∧
      (∀ line ∈ before, line ≠ [] ∧ ¬ NamesHeader s.header.toList line) ∧
      NamesHeader s.header.toList (own ++ ':' :: start) ∧
      ':' ∉ own ∧ sameName own s.header.toList ∧
      (∀ line ∈ more, IsContinuation line) ∧ (∀ line ∈ after.head?, ¬ IsContinuation line) ∧
      v = String.ofList (Attribute.dropSpace start ++ more.flatMap List.tail) ∧
      m.headerLine = some (before.length + 1) ∧
      m.lines[before.length]? = some (String.ofList (own ++ ':' :: start))) ∧
    (m.headerValue = none → m.headerLine = none) := by
  have hm : m.lines = (splitLines text).map String.ofList := by
    obtain ⟨attributes, -, rfl⟩ := ofText_eq_ok h
    rfl
  rcases header_cases h with ⟨site, hsite, hvalue, hline⟩ | ⟨hnone, hvalue, hline⟩
  · rw [hm, hvalue, ← hsite]
    refine ⟨?_, ?_, ?_⟩
    · exact iff_of_true rfl ⟨site.line, site.line_mem_mainSection, site.namesHeader_line⟩
    · intro v hv
      rw [Option.some.injEq] at hv
      refine ⟨site.before, site.own, site.start, site.more, site.after, rfl,
        site.before_ok, site.namesHeader_line, site.own_ok.not_mem_colon, site.own_same,
        site.more_ok, site.after_ok, hv.symm, hline hlines, ?_⟩
      rw [List.getElem?_map, site.getElem?_lines]
      rfl
    · exact fun hnone => absurd hnone (by simp)
  · rw [hvalue]
    refine ⟨?_, ?_, fun _ => hline⟩
    · refine iff_of_false (by decide) ?_
      rintro ⟨line, hmem, hnames⟩
      exact hnone line hmem hnames
    · exact fun v hv => absurd hv (by simp)

/-- The name is the tail of another one above, it is written in small letters, and a later section
has it too. -/
theorem ofText_header_twice :
    ofText { header := "A" } ⟨"M"⟩ "X-A: x\r\na: 1,\n  2\n\nA: 3".toList =
        .ok ⟨⟨"M"⟩, ["X-A: x", "a: 1,", "  2", "", "A: 3"], some "1, 2", some 2⟩ ∧
      (splitLines "X-A: x\r\na: 1,\n  2\n\nA: 3".toList).length < UInt32.size ∧
      ∃ before own start more, (∀ line ∈ before, ¬ NamesHeader ['A'] line) ∧
        sameName own ['A'] ∧
        "1, 2" = String.ofList (Attribute.dropSpace start ++ List.flatMap List.tail more) ∧
        some 2 = some (List.length before + 1) ∧
        some "a: 1," = some (String.ofList (own ++ ':' :: start)) := by
  have hread : ofText { header := "A" } ⟨"M"⟩ "X-A: x\r\na: 1,\n  2\n\nA: 3".toList =
      .ok ⟨⟨"M"⟩, ["X-A: x", "a: 1,", "  2", "", "A: 3"], some "1, 2", some 2⟩ := by
    decide
  have hlines : (splitLines "X-A: x\r\na: 1,\n  2\n\nA: 3".toList).length < UInt32.size := by
    decide
  obtain ⟨-, hvalue, -⟩ := ofText_header hread hlines
  obtain ⟨before, own, start, more, after, -, hbefore, -, -, hsame, -, -, hv, hline, hat⟩ :=
    hvalue "1, 2" rfl
  have hone : before.length = 1 := (Nat.succ.inj (Option.some.inj hline)).symm
  rw [hone] at hat
  exact ⟨hread, hlines, before, own, start, more, fun line h => (hbefore line h).2, hsame, hv,
    hline, hat⟩

end Manifest

end BundleAudit
