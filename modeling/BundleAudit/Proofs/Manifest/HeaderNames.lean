import BundleAudit.Proofs.Manifest.Folding
import BundleAudit.Proofs.Manifest.Header
import BundleAudit.Proofs.Manifest.Refusal
import BundleAudit.Settings.Validate

/-!
# Headers that a manifest can have

Settings name the header that manifests are audited for.  They are refused if the name is blank or
has a colon, since the grammar of manifests has no header of such a name.  It has none of a name
with a space either, and none of a name that does not fit on a line, but these names are accepted.
Under any other name the header is found wherever it is put below other headers.

## Main definitions

* `OpensOther name line` — a line for a header of another name.
* `Settings.CarriesHeader s` — a line for the header of settings is always found.

## Main results

* `HasEntries.exists_append` — headers of other names may come first.
* `Manifest.ofText_append` — the header is found below other headers.
* `Manifest.header_ok_of_headerValue` — a header that is found has a name that fits on a line.
* `Settings.carriesHeader_iff` — **the header is always found if its name has no space and no line
  feed, and never otherwise**.
-/

namespace BundleAudit

open Text

/-- A line for a header, of another name than the given one. -/
structure OpensOther (name line : List Char) : Prop where
  isLine : IsLine line
  isHeaderLine : IsHeaderLine line
  not_namesHeader : ¬ NamesHeader name line

/-- A line for the header of settings is found with its value, whatever headers of other names come
before it and however the lines end. -/
def Settings.CarriesHeader (s : Settings) : Prop :=
  ∀ (path : Path) (before : List (List Char)) (v text : List Char),
    (∀ line ∈ before, OpensOther s.header.toList line) → IsLine v →
    Spelled (before ++ [s.header.toList ++ ':' :: ' ' :: v]) text →
      ∃ m, Manifest.ofText s path text = .ok m ∧ m.headerValue = some (String.ofList v) ∧
        (before.length + 1 < UInt32.size → m.headerLine = some (before.length + 1))

/-! ### Headers below other headers -/

section

variable {name line v : List Char} {before rest : List (List Char)} {as : List Attribute}

theorem IsHeaderLine.ne_nil (h : IsHeaderLine line) : line ≠ [] := by
  obtain ⟨own, value, rfl, -⟩ := h
  exact List.append_ne_nil_of_right_ne_nil own (List.cons_ne_nil ':' value)

/-- A line that starts with a name, a colon and a space is as good a line as what comes after
them. -/
theorem IsLine.append (hname : '\n' ∉ name) (hv : IsLine v) : IsLine (name ++ ':' :: ' ' :: v) := by
  constructor
  · simp only [List.mem_append, List.mem_cons, not_or]
    exact ⟨hname, by decide, by decide, hv.not_mem_lineFeed⟩
  · cases v with
    | nil => simp
    | cons c cs => simpa [List.getLast?_append] using hv.getLast?_ne

/-- A header whose value needs no continuation. -/
theorem HasEntries.cons {value : List Char} (h : HasEntries rest as)
    (hname : Attribute.IsName name) :
    HasEntries ((name ++ ':' :: value) :: rest)
      (⟨String.ofList name, String.ofList (Attribute.dropSpace value)⟩ :: as) := by
  have hmore : ∀ line ∈ ([] : List (List Char)), IsContinuation line := by simp
  have hentries : HasEntries ((name ++ ':' :: value) :: ([] ++ rest)) _ := .header hname hmore h
  rwa [List.flatMap_nil, List.append_nil, List.nil_append] at hentries

/-- Headers of other names may come before headers, one on each line. -/
theorem HasEntries.exists_append (h : HasEntries rest as)
    (hbefore : ∀ line ∈ before, OpensOther name line) :
    ∃ bs, HasEntries (before ++ rest) (bs ++ as) ∧
      ∀ b ∈ bs, sameName b.name.toList name = false := by
  induction before with
  | nil => exact ⟨[], h, fun b hb => absurd hb List.not_mem_nil⟩
  | cons line before ih =>
    obtain ⟨hline, hbefore⟩ := List.forall_mem_cons.1 hbefore
    obtain ⟨bs, hentries, hbs⟩ := ih hbefore
    obtain ⟨own, value, rfl, hown⟩ := hline.isHeaderLine
    have hother : sameName own name = false := by
      rw [Bool.eq_false_iff]
      exact fun hsame => hline.not_namesHeader (hown.namesHeader_iff.2 hsame)
    refine ⟨_ :: bs, hentries.cons hown, List.forall_mem_cons.2 ⟨?_, hbs⟩⟩
    rwa [String.toList_ofList]

/-- The place of a header that takes one line below other headers. -/
def HeaderSite.below (before rest : List (List Char)) (v : List Char)
    (hname : Attribute.IsName name) (hbefore : ∀ line ∈ before, OpensOther name line)
    (hrest : HasEntries rest as) : HeaderSite name where
  before := before
  own := name
  start := ' ' :: v
  more := []
  after := rest
  before_ok l hl := ⟨(hbefore l hl).isHeaderLine.ne_nil, (hbefore l hl).not_namesHeader⟩
  own_ok := hname
  own_same := sameName_iff.2 rfl
  more_ok := by simp
  after_ok := hrest.not_isContinuation_head

end

namespace Manifest

variable {s : Settings} {path : Path} {text v : List Char} {before : List (List Char)}
  {m : Manifest}

/-- **A header is found below other headers**, if the grammar has headers of its name. -/
theorem ofText_append (hname : Attribute.IsName s.header.toList) (hlf : '\n' ∉ s.header.toList)
    (hbefore : ∀ line ∈ before, OpensOther s.header.toList line) (hv : IsLine v)
    (htext : Spelled (before ++ [s.header.toList ++ ':' :: ' ' :: v]) text) :
    ∃ m, ofText s path text = .ok m ∧ m.headerValue = some (String.ofList v) ∧
      m.headerLine = lineNumber? before.length := by
  have hlines : ∀ line ∈ before ++ [s.header.toList ++ ':' :: ' ' :: v],
      line ≠ [] ∧ IsLine line := by
    intro line hline
    rcases List.mem_append.1 hline with hline | hline
    · exact ⟨(hbefore line hline).isHeaderLine.ne_nil, (hbefore line hline).isLine⟩
    · rw [List.mem_singleton.1 hline]
      exact ⟨by simp, hv.append hlf⟩
  obtain ⟨rest, hsplit, hrest⟩ := splitLines_of_spelled htext hlines
  rw [List.append_assoc, List.singleton_append] at hsplit
  have hlast : HasEntries ((s.header.toList ++ ':' :: ' ' :: v) :: rest)
      [⟨s.header, String.ofList v⟩] := by
    have hentries : HasEntries ((s.header.toList ++ ':' :: ' ' :: v) :: rest) _ := hrest.cons hname
    rwa [Attribute.dropSpace, String.ofList_toList] at hentries
  obtain ⟨bs, hentries, hbs⟩ := hlast.exists_append hbefore
  have hread : Attributes.ofText text = .ok ⟨bs ++ [⟨s.header, String.ofList v⟩]⟩ := by
    rw [Attributes.ofText, Attributes.ofLines_eq_ok_iff, hsplit]
    exact hentries
  have hvalue : Attributes.get? ⟨bs ++ [⟨s.header, String.ofList v⟩]⟩ s.header =
      some (String.ofList v) := by
    have hsame : sameName s.header.toList s.header.toList = true := sameName_iff.2 rfl
    rw [Attributes.get?, List.find?_append, List.find?_eq_none.2 (by simpa using hbs),
      Option.none_or, List.find?_cons, hsame]
    rfl
  have hline : locateHeader? s.header.toList (splitLines text) = lineNumber? before.length := by
    rw [hsplit]
    exact (HeaderSite.below before rest v hname hbefore hrest).locateHeader?_lines
  refine ⟨_, by rw [ofText, hread], hvalue, ?_⟩
  rw [hvalue, Option.isSome_some, if_pos rfl, hline]

/-- A header that is found has a name of the grammar, and the name fits on a line. -/
theorem header_ok_of_headerValue {value : String} (h : ofText s path text = .ok m)
    (hvalue : m.headerValue = some value) :
    Attribute.IsName s.header.toList ∧ '\n' ∉ s.header.toList := by
  rcases header_cases h with ⟨site, hlines, -, -⟩ | ⟨-, hnone, -⟩
  · have hsame : sameName s.header.toList site.own := by
      rw [sameName_iff]
      exact (sameName_iff.1 site.own_same).symm
    refine ⟨site.own_ok.of_sameName hsame, fun hlf => ?_⟩
    have hline : site.line ∈ splitLines text :=
      hlines ▸ List.mem_append_right _ List.mem_cons_self
    have hown : '\n' ∈ site.own := mem_of_sameName hsame (by decide) hlf
    exact lineFeed_not_mem_of_mem_splitLines hline (List.mem_append_left _ hown)
  · rw [hnone] at hvalue
    cases hvalue

end Manifest

/-! ### The names that settings accept -/

namespace Settings

variable {s : Settings}

theorem CarriesHeader.exists_headerValue (h : s.CarriesHeader) :
    ∃ path text m value, Manifest.ofText s path text = .ok m ∧ m.headerValue = some value := by
  have hnone : ∀ line ∈ ([] : List (List Char)), OpensOther s.header.toList line :=
    fun line hline => absurd hline List.not_mem_nil
  obtain ⟨m, hread, hvalue, -⟩ :=
    h ⟨s.manifestPath⟩ [] [] _ hnone ⟨List.not_mem_nil, by decide⟩ (.last _)
  exact ⟨_, _, m, _, hread, hvalue⟩

/-- The settings accept no other name that the grammar has no header of. -/
theorem Acceptable.carriesHeader (h : s.Acceptable) (hspace : ' ' ∉ s.header.toList)
    (hlf : '\n' ∉ s.header.toList) : s.CarriesHeader := by
  intro path before v text hbefore hv htext
  have hne : s.header.toList ≠ [] := by
    intro hnil
    exact h.header (by rw [hnil]; decide)
  obtain ⟨m, hread, hvalue, hline⟩ :=
    Manifest.ofText_append ⟨hne, hspace, h.headerColon⟩ hlf hbefore hv htext
  exact ⟨m, hread, hvalue, fun hnumber => by rw [hline, lineNumber?, if_pos hnumber]⟩

/-- **A header is always found or never.**  Of the names that settings accept for the header, those
without a space and without a line feed are found with their values wherever they stand below other
headers.  The others are names of no header: there is no manifest in which they are found. -/
theorem carriesHeader_iff (h : s.fault? = none) :
    (s.CarriesHeader ↔ ' ' ∉ s.header.toList ∧ '\n' ∉ s.header.toList) ∧
      (s.CarriesHeader ↔ ∃ path text m value,
        Manifest.ofText s path text = .ok m ∧ m.headerValue = some value) := by
  have hname (hfound : ∃ path text m value,
      Manifest.ofText s path text = .ok m ∧ m.headerValue = some value) :
      ' ' ∉ s.header.toList ∧ '\n' ∉ s.header.toList := by
    obtain ⟨path, text, m, value, hread, hvalue⟩ := hfound
    obtain ⟨hname, hlf⟩ := Manifest.header_ok_of_headerValue hread hvalue
    exact ⟨hname.not_mem_space, hlf⟩
  have hcarries (hname : ' ' ∉ s.header.toList ∧ '\n' ∉ s.header.toList) : s.CarriesHeader :=
    (fault?_eq_none_iff.1 h).carriesHeader hname.1 hname.2
  exact ⟨⟨fun hc => hname hc.exists_headerValue, hcarries⟩,
    ⟨CarriesHeader.exists_headerValue, fun hfound => hcarries (hname hfound)⟩⟩

/-- The header that settings name without any document, and one whose name is two words. -/
theorem carriesHeader_words :
    fault? {} = none ∧ CarriesHeader {} ∧
      fault? { header := "My Header" } = none ∧ ¬ CarriesHeader { header := "My Header" } := by
  have hdefault : fault? {} = none := by decide +kernel
  have hwords : fault? { header := "My Header" } = none := by decide +kernel
  refine ⟨hdefault, (carriesHeader_iff hdefault).1.2 (by decide), hwords, fun hc => ?_⟩
  exact absurd ((carriesHeader_iff hwords).1.1 hc).1 (by decide)

/-- A name of two words is accepted, and a manifest that has it as its only header is refused for
the line of that header. -/
theorem not_carriesHeader_words :
    fault? { header := "My Header" } = none ∧
      Spelled ["My Header: x".toList] "My Header: x\n".toList ∧
      Manifest.ofText { header := "My Header" } ⟨"M"⟩ "My Header: x\n".toList =
        .error (.malformed ⟨1, "My Header: x"⟩) ∧
      ¬ CarriesHeader { header := "My Header" } := by
  have hspelled : Spelled ["My Header: x".toList] "My Header: x\n".toList :=
    .cons "My Header: x".toList .lf .nil
  have hread : Manifest.ofText { header := "My Header" } ⟨"M"⟩ "My Header: x\n".toList =
      .error (.malformed ⟨1, "My Header: x"⟩) := by
    decide +kernel
  refine ⟨by decide +kernel, hspelled, hread, fun hc => ?_⟩
  obtain ⟨m, hok, -⟩ := hc ⟨"M"⟩ [] ['x'] _ (by simp) ⟨by decide, by decide⟩ hspelled
  rw [hread] at hok
  cases hok

end Settings

end BundleAudit
