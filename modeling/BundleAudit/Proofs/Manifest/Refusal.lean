import BundleAudit.Proofs.Manifest.MainSection
import Mathlib.Data.List.TakeWhile
import Mathlib.Data.Nat.Find

/-!
# Lines that are refused

A line of a main section has to open a header or to continue a value.  The reader of manifests
remembers whether there is a value to continue.  There is one after every line that it has used, so
nothing but its being the first one can stand against a continuation, and whether a line can be used
follows from the line and its place.  The first line that cannot be used is the one that is blamed,
by its number among all lines of the text.

## Main definitions

* `IsHeaderLine line` — the line opens a header.
* `FitsAt i line` — the line can be used at an index of a main section.

## Main results

* `Attributes.exists_entriesFrom_cons`, `Attributes.entriesFrom_cons_of_not_fitsAt` — the reader
  uses a line exactly if it fits.
* `Attributes.exists_entriesFrom_eq_ok`, `Attributes.entriesFrom_eq_error` — all lines are used, or
  the first one that does not fit is blamed.
* `Attributes.ofText_refuses` — **the reader refuses the first line that does not fit**, and nothing
  else matters to that.
-/

namespace BundleAudit

open Text

/-- A line that opens a header: before its first colon it has a name. -/
def IsHeaderLine (line : List Char) : Prop :=
  ∃ name value, line = name ++ ':' :: value ∧ Attribute.IsName name

/-- A line can be used at an index of a main section.  The first line has no value to continue. -/
def FitsAt (i : Nat) (line : List Char) : Prop := IsContinuation line ∧ i ≠ 0 ∨ IsHeaderLine line

theorem IsHeaderLine.not_isContinuation {line : List Char} (h : IsHeaderLine line) :
    ¬ IsContinuation line := by
  obtain ⟨name, value, rfl, hname⟩ := h
  exact hname.not_isContinuation value

/-- Either all lines fit, or there is a first one that does not. -/
theorem forall_fitsAt_or_exists (lines : List (List Char)) :
    (∀ (i : Nat) line, lines[i]? = some line → FitsAt i line) ∨
      ∃ (i : Nat) (line : List Char), lines[i]? = some line ∧ ¬ FitsAt i line ∧
        ∀ j < i, ∀ l, lines[j]? = some l → FitsAt j l := by
  classical
  by_cases h : ∃ (i : Nat) (line : List Char), lines[i]? = some line ∧ ¬ FitsAt i line
  · obtain ⟨line, hline, hmisfit⟩ := Nat.find_spec h
    refine Or.inr ⟨Nat.find h, line, hline, hmisfit, fun j hj l hl => ?_⟩
    by_contra hfits
    exact Nat.find_min h hj ⟨l, hl, hfits⟩
  · push Not at h
    exact Or.inl h

/-- All lines fit if each is of one of the two kinds and the first is no continuation. -/
theorem forall_fitsAt_iff {lines : List (List Char)} :
    (∀ (i : Nat) line, lines[i]? = some line → FitsAt i line) ↔
      (∀ line ∈ lines.head?, ¬ IsContinuation line) ∧
        ∀ line ∈ lines, IsContinuation line ∨ IsHeaderLine line := by
  constructor
  · intro h
    constructor
    · intro line hline
      rw [List.head?_eq_getElem?] at hline
      exact ((h 0 line hline).resolve_left fun hcontinues => hcontinues.2 rfl).not_isContinuation
    · intro line hline
      obtain ⟨i, hi⟩ := List.mem_iff_getElem?.1 hline
      exact (h i line hi).imp_left And.left
  · rintro ⟨hfirst, hall⟩ i line hline
    rcases hall line (List.mem_of_getElem? hline) with hcontinues | hheader
    · refine Or.inl ⟨hcontinues, ?_⟩
      rintro rfl
      rw [← List.head?_eq_getElem?] at hline
      exact hfirst line hline hcontinues
    · exact Or.inr hheader

namespace Attributes

variable {current : Option Attribute} {i k : Nat} {line text : List Char}
  {lines : List (List Char)} {e : MalformedLine}

/-! ### One line -/

/-- A line that fits is used: it goes to a value, or a header is finished and the next one begun.
In both cases there is a value to continue afterwards. -/
theorem exists_entriesFrom_cons (hcurrent : current = none ↔ i = 0) (hfits : FitsAt i line) :
    ∃ a done, done.length + 1 =
        current.toList.length + (if IsContinuation line then 0 else 1) ∧
      ∀ lines, entriesFrom current i (line :: lines) =
        (entriesFrom (some a) (i + 1) lines).map (done ++ ·) := by
  rcases hfits with ⟨hcontinues, hi⟩ | hheader
  · obtain ⟨a, rfl⟩ := Option.ne_none_iff_exists'.1 fun h => hi (hcurrent.1 h)
    refine ⟨a.extend line.tail, [], by rw [if_pos hcontinues]; rfl, fun lines => ?_⟩
    rw [hcontinues.eq_cons, entriesFrom_continuation_some, List.tail_cons]
    cases entriesFrom (some (a.extend line.tail)) (i + 1) lines <;> rfl
  · have hline := hheader.not_isContinuation
    obtain ⟨name, value, rfl, hname⟩ := hheader
    refine ⟨⟨String.ofList name, String.ofList (Attribute.dropSpace value)⟩, current.toList,
      by rw [if_neg hline], fun lines => ?_⟩
    obtain ⟨c, cs, hcons⟩ := List.exists_cons_of_ne_nil
      (List.append_ne_nil_of_right_ne_nil name (List.cons_ne_nil ':' value))
    have hc : c ≠ ' ' := fun hc => hline (by rw [hcons, hc]; rfl)
    have hopens := Attribute.ofLine?_eq_some_iff.2 ⟨name, value, rfl, hname, rfl⟩
    rw [hcons] at hopens ⊢
    rw [entriesFrom_cons current i hc, hopens]

/-- A line that does not fit is blamed, unless it is blank. -/
theorem entriesFrom_cons_of_not_fitsAt (hcurrent : current = none ↔ i = 0) (hne : line ≠ [])
    (hmisfit : ¬ FitsAt i line) (lines : List (List Char)) :
    entriesFrom current i (line :: lines) = .error (malformed i line) := by
  rw [FitsAt, not_or, not_and, not_not] at hmisfit
  by_cases hcontinues : IsContinuation line
  · rw [hcurrent.2 (hmisfit.1 hcontinues), hcontinues.eq_cons, entriesFrom_continuation_none]
  · obtain ⟨c, cs, rfl⟩ := List.exists_cons_of_ne_nil hne
    have hc : c ≠ ' ' := fun hc => hcontinues (by rw [hc]; rfl)
    have hopens : Attribute.ofLine? (c :: cs) = none := by
      rw [Option.eq_none_iff_forall_ne_some]
      intro a ha
      obtain ⟨name, value, hline, hname, -⟩ := Attribute.ofLine?_eq_some_iff.1 ha
      exact hmisfit.2 ⟨name, value, hline, hname⟩
    rw [entriesFrom_cons current i hc, hopens]

/-! ### All lines -/

/-- Lines that fit are read, and each header has one line that is no continuation. -/
theorem exists_entriesFrom_eq_ok (hcurrent : current = none ↔ i = 0)
    (hfits : ∀ (j : Nat) line, (mainSection lines)[j]? = some line → FitsAt (i + j) line) :
    ∃ as, entriesFrom current i lines = .ok as ∧ as.length =
      current.toList.length + (mainSection lines).countP fun line => ¬ IsContinuation line := by
  induction lines generalizing current i with
  | nil => exact ⟨current.toList, rfl, rfl⟩
  | cons line lines ih =>
    by_cases hblank : line = []
    · subst hblank
      exact ⟨current.toList, rfl, rfl⟩
    · rw [mainSection_cons hblank] at hfits ⊢
      obtain ⟨a, done, hlength, hread⟩ := exists_entriesFrom_cons hcurrent (hfits 0 line rfl)
      have hrest : ∀ (j : Nat) l, (mainSection lines)[j]? = some l → FitsAt (i + 1 + j) l := by
        intro j l hl
        rw [Nat.add_assoc, Nat.add_comm 1]
        exact hfits (j + 1) l (by rwa [List.getElem?_cons_succ])
      have hinside : some a = none ↔ i + 1 = 0 := by simp
      obtain ⟨as, has, hcount⟩ := ih hinside hrest
      refine ⟨done ++ as, by rw [hread, has]; rfl, ?_⟩
      rw [List.length_append, hcount, List.countP_cons]
      simp only [Option.toList_some, List.length_singleton, decide_not, Bool.not_eq_true',
        decide_eq_false_iff_not, ite_not]
      omega

/-- The first line that does not fit is blamed. -/
theorem entriesFrom_eq_error (hcurrent : current = none ↔ i = 0)
    (hline : (mainSection lines)[k]? = some line) (hmisfit : ¬ FitsAt (i + k) line)
    (hbefore : ∀ j < k, ∀ l, (mainSection lines)[j]? = some l → FitsAt (i + j) l) :
    entriesFrom current i lines = .error (malformed (i + k) line) := by
  induction lines generalizing current i k with
  | nil => cases hline
  | cons first lines ih =>
    by_cases hblank : first = []
    · subst hblank
      cases hline
    · rw [mainSection_cons hblank] at hline hbefore
      cases k with
      | zero =>
        cases hline
        exact entriesFrom_cons_of_not_fitsAt hcurrent hblank hmisfit lines
      | succ k =>
        obtain ⟨a, done, -, hread⟩ :=
          exists_entriesFrom_cons hcurrent (hbefore 0 (Nat.succ_pos k) first rfl)
        rw [Nat.add_comm k 1, ← Nat.add_assoc] at hmisfit ⊢
        have hinside : some a = none ↔ i + 1 = 0 := by simp
        have hrest : entriesFrom (some a) (i + 1) lines = .error (malformed (i + 1 + k) line) := by
          refine ih hinside hline hmisfit fun j hj l hl => ?_
          rw [Nat.add_assoc, Nat.add_comm 1]
          exact hbefore (j + 1) (Nat.succ_lt_succ hj) l (by rwa [List.getElem?_cons_succ])
        rw [hread, hrest]
        rfl

/-- What stands behind the main section is not read. -/
theorem entriesFrom_mainSection (current : Option Attribute) (i : Nat)
    (lines : List (List Char)) :
    entriesFrom current i (mainSection lines) = entriesFrom current i lines := by
  induction lines generalizing current i with
  | nil => rfl
  | cons line lines ih =>
    by_cases hblank : line = []
    · subst hblank
      rfl
    · rw [mainSection_cons hblank]
      by_cases hcontinues : IsContinuation line
      · rw [hcontinues.eq_cons]
        cases current with
        | none => rfl
        | some a => exact ih _ _
      · obtain ⟨c, cs, rfl⟩ := List.exists_cons_of_ne_nil hblank
        have hc : c ≠ ' ' := fun hc => hcontinues (by rw [hc]; rfl)
        simp only [entriesFrom_cons current i hc, ih]

theorem ofLines_mainSection (lines : List (List Char)) :
    ofLines (mainSection lines) = ofLines lines := by
  rw [ofLines, ofLines, entriesFrom_mainSection]

/-! ### A text -/

section

variable {text other : List Char} {n : Nat}

/-- The main section is where it is among all lines. -/
theorem getElem?_of_mainSection (h : (mainSection lines)[i]? = some line) :
    lines[i]? = some line := by
  obtain ⟨hlt, rfl⟩ := List.getElem?_eq_some_iff.1 h
  exact List.prefix_iff_getElem?.1 (List.takeWhile_prefix _) i hlt

/-- What starts with the same lines has a main section that starts with the same lines. -/
theorem getElem?_mainSection_congr {others : List (List Char)} (h : others.take n = lines.take n)
    (hi : i < n) : (mainSection others)[i]? = (mainSection lines)[i]? := by
  have hsections : (mainSection others).take n = (mainSection lines).take n := by
    rw [mainSection, mainSection, List.take_takeWhile, List.take_takeWhile, h]
  have hget := congrArg (fun section' => section'[i]?) hsections
  simpa only [List.getElem?_take, if_pos hi] using hget

theorem numberOf_of_getElem? (hlines : lines.length < UInt32.size) (h : lines[i]? = some line) :
    numberOf i = i + 1 := by
  obtain ⟨hlt, -⟩ := List.getElem?_eq_some_iff.1 h
  exact Nat.min_eq_left (by omega)

/-- A text is read if all lines of its main section fit. -/
theorem exists_ofText_eq_ok
    (h : ∀ (i : Nat) line, (mainSection (splitLines text))[i]? = some line → FitsAt i line) :
    ∃ attributes, ofText text = .ok attributes ∧ attributes.size =
      (mainSection (splitLines text)).countP fun line => ¬ IsContinuation line := by
  have hstart : (none : Option Attribute) = none ↔ 0 = 0 := by simp
  have hfits : ∀ (j : Nat) line, (mainSection (splitLines text))[j]? = some line →
      FitsAt (0 + j) line := by
    intro j line hline
    rw [Nat.zero_add]
    exact h j line hline
  obtain ⟨as, has, hcount⟩ := exists_entriesFrom_eq_ok hstart hfits
  refine ⟨⟨as⟩, by rw [ofText, ofLines, has]; rfl, ?_⟩
  rw [size, hcount, Option.toList_none, List.length_nil, Nat.zero_add]

/-- A text is refused for the first line of its main section that does not fit. -/
theorem ofText_eq_error (hline : (mainSection (splitLines text))[i]? = some line)
    (hmisfit : ¬ FitsAt i line)
    (hbefore : ∀ j < i, ∀ l, (mainSection (splitLines text))[j]? = some l → FitsAt j l) :
    ofText text = .error (malformed i line) := by
  have hstart : (none : Option Attribute) = none ↔ 0 = 0 := by simp
  have hread : entriesFrom none 0 (splitLines text) = .error (malformed (0 + i) line) := by
    apply entriesFrom_eq_error hstart hline
    · rwa [Nat.zero_add]
    · intro j hj l hl
      rw [Nat.zero_add]
      exact hbefore j hj l hl
  rw [ofText, ofLines, hread, Nat.zero_add]
  rfl

/-- A text is refused for no other reason. -/
theorem exists_of_ofText_eq_error (h : ofText text = .error e) :
    ∃ (i : Nat) (line : List Char), (mainSection (splitLines text))[i]? = some line ∧
      ¬ FitsAt i line ∧
      (∀ j < i, ∀ l, (mainSection (splitLines text))[j]? = some l → FitsAt j l) ∧
      e = malformed i line := by
  rcases forall_fitsAt_or_exists (mainSection (splitLines text)) with
    hfits | ⟨i, line, hline, hmisfit, hbefore⟩
  · obtain ⟨attributes, hread, -⟩ := exists_ofText_eq_ok hfits
    rw [hread] at h
    cases h
  · rw [ofText_eq_error hline hmisfit hbefore] at h
    cases h
    exact ⟨i, line, hline, hmisfit, hbefore, rfl⟩

/-- **The reader refuses the first line that does not fit.**  A text is read exactly if its main
section does not start with a continuation and every line of it is a continuation or opens a header,
and then there is a header for each line that is no continuation.  Otherwise the line that is blamed
is the first one in the main section that does not fit, with its number among all lines.  Neither
what stands behind that line nor what stands behind the main section plays a part. -/
theorem ofText_refuses (hlines : (splitLines text).length < UInt32.size) :
    ((∃ attributes, ofText text = .ok attributes) ↔
      (∀ line ∈ (mainSection (splitLines text)).head?, ¬ IsContinuation line) ∧
        ∀ line ∈ mainSection (splitLines text), IsContinuation line ∨ IsHeaderLine line) ∧
    (∀ attributes, ofText text = .ok attributes → attributes.size =
      (mainSection (splitLines text)).countP fun line => ¬ IsContinuation line) ∧
    (∀ e, ofText text = .error e ↔
      ∃ (i : Nat) (line : List Char), (mainSection (splitLines text))[i]? = some line ∧
        ¬ FitsAt i line ∧
        (∀ j < i, ∀ l, (mainSection (splitLines text))[j]? = some l → FitsAt j l) ∧
        (splitLines text)[i]? = some line ∧ e = ⟨i + 1, String.ofList line⟩) ∧
    (∀ other, mainSection (splitLines other) = mainSection (splitLines text) →
      ofText other = ofText text) ∧
    ∀ e, ofText text = .error e → ∀ other,
      (splitLines other).take e.line = (splitLines text).take e.line →
        ofText other = .error e := by
  have hread := forall_fitsAt_or_exists (mainSection (splitLines text))
  refine ⟨?_, ?_, ?_, ?_, ?_⟩
  · rw [← forall_fitsAt_iff]
    constructor
    · rintro ⟨attributes, hok⟩
      refine hread.resolve_right ?_
      rintro ⟨i, line, hline, hmisfit, hbefore⟩
      rw [ofText_eq_error hline hmisfit hbefore] at hok
      cases hok
    · intro hfits
      obtain ⟨attributes, hok, -⟩ := exists_ofText_eq_ok hfits
      exact ⟨attributes, hok⟩
  · intro attributes hok
    rcases hread with hfits | ⟨i, line, hline, hmisfit, hbefore⟩
    · obtain ⟨attributes', hok', hsize⟩ := exists_ofText_eq_ok hfits
      rw [hok] at hok'
      cases hok'
      exact hsize
    · rw [ofText_eq_error hline hmisfit hbefore] at hok
      cases hok
  · intro e
    constructor
    · intro herror
      obtain ⟨i, line, hline, hmisfit, hbefore, rfl⟩ := exists_of_ofText_eq_error herror
      have hget := getElem?_of_mainSection hline
      exact ⟨i, line, hline, hmisfit, hbefore, hget,
        by rw [malformed, numberOf_of_getElem? hlines hget]⟩
    · rintro ⟨i, line, hline, hmisfit, hbefore, hget, rfl⟩
      rw [ofText_eq_error hline hmisfit hbefore, malformed, numberOf_of_getElem? hlines hget]
  · intro other hsame
    rw [ofText, ofText, ← ofLines_mainSection, hsame, ofLines_mainSection]
  · intro e herror other hsame
    obtain ⟨i, line, hline, hmisfit, hbefore, rfl⟩ := exists_of_ofText_eq_error herror
    rw [malformed, numberOf_of_getElem? hlines (getElem?_of_mainSection hline)] at hsame
    refine ofText_eq_error ?_ hmisfit fun j hj l hl => ?_
    · rw [getElem?_mainSection_congr hsame (Nat.lt_succ_self i)]
      exact hline
    · rw [getElem?_mainSection_congr hsame (Nat.lt_succ_of_lt hj)] at hl
      exact hbefore j hj l hl

/-- The third of four lines has no colon.  It is blamed as well if it is followed by something else
and the lines have other ends. -/
theorem ofText_refuses_third :
    let text := "A: b\r\n :c\nD \r\nE".toList
    (splitLines text).length < UInt32.size ∧ ofText text = .error ⟨3, "D "⟩ ∧
      ofText "A: b\n :c\nD \n\n E".toList = .error ⟨3, "D "⟩ := by
  intro text
  have hlines : (splitLines text).length < UInt32.size := by decide +kernel
  have hmisfit : ¬ FitsAt 2 "D ".toList := by
    rintro (⟨hcontinues, -⟩ | ⟨name, value, hline, -⟩)
    · exact absurd hcontinues (by decide)
    · have hcolon : ':' ∈ "D ".toList := hline ▸ List.mem_append_right _ List.mem_cons_self
      exact absurd hcolon (by decide)
  have hbefore : ∀ j < 2, ∀ l, (mainSection (splitLines text))[j]? = some l → FitsAt j l := by
    intro j hj l hl
    rcases Nat.lt_succ_iff_lt_or_eq.1 hj with hj | rfl
    · cases Nat.lt_one_iff.1 hj
      cases hl
      exact Or.inr ⟨['A'], " b".toList, by decide, ⟨by decide, by decide, by decide⟩⟩
    · cases hl
      exact Or.inl ⟨by decide, by decide⟩
  have herror : ofText text = .error ⟨3, "D "⟩ :=
    ((ofText_refuses hlines).2.2.1 _).2
      ⟨2, "D ".toList, by decide +kernel, hmisfit, hbefore, by decide +kernel, rfl⟩
  exact ⟨hlines, herror, (ofText_refuses hlines).2.2.2.2 _ herror _ (by decide +kernel)⟩

end

end Attributes

end BundleAudit
