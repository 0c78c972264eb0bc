import BundleAudit.Json.Escape
import BundleAudit.Json.Numeral
import Mathlib.Data.List.TakeWhile

/-!
# How strings and numerals are written

A character of a string can be written as it is, by a letter after a backslash or by its number, and
a numeral with or without a fraction and an exponent.  This module lists the ways and proves that
the reader takes exactly these.

A numeral goes on as long as it can, so the text after it has a say in where it ends.

## Main definitions

* `Written writes xs cs` — `cs` is made of the texts of the parts `xs`.
* `CharText c w` — `w` is a text of the character `c` inside a string.
* `Numeral.IsText n w` — `w` is a text of the numeral `n`.

## Main results

* `unescaped?_eq_some_iff` — **the reader takes exactly the texts of a string**.
* `Numeral.isText_of_read?` — a numeral that is read is one.
* `Numeral.read?_of_isText` — **a numeral is read**, unless what follows goes on with it.
-/

namespace BundleAudit.Json

variable {cs rest w : List Char}

/-! ### Strings -/

/-- A text that is made of the texts of parts. -/
inductive Written {α : Type} (writes : α → List Char → Prop) : List α → List Char → Prop where
  | nil : Written writes [] []
  | cons {x : α} {xs : List α} {w cs : List Char} (hx : writes x w) (hxs : Written writes xs cs) :
    Written writes (x :: xs) (w ++ cs)

/-- How a part of a string is written. -/
inductive UnitText : StringUnit → List Char → Prop where
  /-- A character as it is. -/
  | plain {c : Char} (hquote : c ≠ '"') (hback : c ≠ '\\') (hc : ¬ c < ' ') :
    UnitText (.char c) [c]
  /-- A character by a letter after a backslash. -/
  | letter {letter c : Char} (h : unescapedChar? letter = some c) :
    UnitText (.char c) ['\\', letter]
  /-- A UTF-16 unit by four digits. -/
  | hex {a b c d : Char} {n : Nat} (h : hexUnit? a b c d = some n) :
    UnitText (.unit n) ['\\', 'u', a, b, c, d]

/-- How a character is written inside a string. -/
inductive CharText : Char → List Char → Prop where
  /-- As it is, unless it is a quote, a backslash or a control. -/
  | plain {c : Char} (hquote : c ≠ '"') (hback : c ≠ '\\') (hc : ¬ c < ' ') : CharText c [c]
  /-- By a letter after a backslash. -/
  | letter {letter c : Char} (h : unescapedChar? letter = some c) : CharText c ['\\', letter]
  /-- By its number. -/
  | hex {a b c d : Char} {n : Nat} (h : hexUnit? a b c d = some n) (hlead : ¬ isLeading n)
    (htrail : ¬ isTrailing n) : CharText (Char.ofNat n) ['\\', 'u', a, b, c, d]
  /-- By two halves of its number, if it lies beyond the first plane. -/
  | pair {a b c d a' b' c' d' : Char} {n m : Nat} (h : hexUnit? a b c d = some n)
    (h' : hexUnit? a' b' c' d' = some m) (hlead : isLeading n) (htrail : isTrailing m) :
    CharText (Char.ofNat (0x10000 + (n - 0xd800) * 0x400 + (m - 0xdc00)))
      ['\\', 'u', a, b, c, d, '\\', 'u', a', b', c', d']

theorem units?_plain {c : Char} (hquote : c ≠ '"') (hback : c ≠ '\\') (hc : ¬ c < ' ')
    (cs : List Char) : units? (c :: cs) = (units? cs).map fun p => (.char c :: p.1, p.2) := by
  rw [units?, if_neg hc]
  · exact hquote
  · intro a b c d cs h
    exact absurd h hback
  · intro d cs h
    exact absurd h hback

theorem units?_letter {letter c : Char} (h : unescapedChar? letter = some c) (cs : List Char) :
    units? ('\\' :: letter :: cs) = (units? cs).map fun p => (.char c :: p.1, p.2) := by
  rw [units?]
  · rw [h, Option.bind_some]
  · rintro a b c d cs rfl
    cases h

/-- Parts that are read are written in front of the closing quote. -/
theorem written_of_units? {us : List StringUnit} (h : units? cs = some (us, rest)) :
    ∃ w, Written UnitText us w ∧ cs = w ++ '"' :: rest := by
  fun_induction units? cs generalizing us with
  | case1 => contradiction
  | case2 cs =>
    cases h
    exact ⟨[], .nil, rfl⟩
  | case3 a b c d cs ih =>
    obtain ⟨n, hn, h⟩ := Option.bind_eq_some_iff.1 h
    obtain ⟨⟨us', rest'⟩, hus, h⟩ := Option.map_eq_some_iff.1 h
    cases h
    obtain ⟨w, hw, rfl⟩ := ih hus
    exact ⟨_, .cons (.hex hn) hw, rfl⟩
  | case4 letter cs _ ih =>
    obtain ⟨c, hc, h⟩ := Option.bind_eq_some_iff.1 h
    obtain ⟨⟨us', rest'⟩, hus, h⟩ := Option.map_eq_some_iff.1 h
    cases h
    obtain ⟨w, hw, rfl⟩ := ih hus
    exact ⟨_, .cons (.letter hc) hw, rfl⟩
  | case5 => contradiction
  | case6 c cs hquote _ hback hc ih =>
    obtain ⟨⟨us', rest'⟩, hus, h⟩ := Option.map_eq_some_iff.1 h
    cases h
    obtain ⟨w, hw, rfl⟩ := ih hus
    refine ⟨_, .cons (.plain hquote ?_ hc) hw, rfl⟩
    -- after a backslash there is one more character, if only the closing quote
    intro heq
    cases w with
    | nil => exact hback _ _ heq rfl
    | cons d w => exact hback _ _ heq rfl

/-- Parts that are written in front of a quote are read. -/
theorem units?_of_written {us : List StringUnit} (h : Written UnitText us w) (rest : List Char) :
    units? (w ++ '"' :: rest) = some (us, rest) := by
  induction h with
  | nil => rw [List.nil_append, units?]
  | cons hu _ ih =>
    rw [List.append_assoc]
    cases hu with
    | plain hquote hback hc =>
      rw [List.singleton_append, units?_plain hquote hback hc, ih, Option.map_some]
    | letter h =>
      rw [List.cons_append, List.singleton_append, units?_letter h, ih, Option.map_some]
    | hex h =>
      simp only [List.cons_append, List.nil_append]
      rw [units?, h, Option.bind_some, ih, Option.map_some]

/-- The text that parts make up is written as they are. -/
theorem written_of_joined? {us : List StringUnit} {text : List Char} (h : joined? us = some text)
    (hw : Written UnitText us w) : Written CharText text w := by
  fun_induction joined? us generalizing text w with
  | case1 =>
    cases h
    cases hw
    exact .nil
  | case2 c us ih =>
    obtain ⟨text', htext, rfl⟩ := Option.map_eq_some_iff.1 h
    cases hw with
    | cons hu hus =>
      cases hu with
      | plain hquote hback hc => exact .cons (.plain hquote hback hc) (ih htext hus)
      | letter hc => exact .cons (.letter hc) (ih htext hus)
  | case3 n hlead m us htrail ih =>
    obtain ⟨text', htext, rfl⟩ := Option.map_eq_some_iff.1 h
    cases hw with
    | cons hn hus =>
      cases hus with
      | cons hm hus =>
        cases hn with
        | hex hn =>
          cases hm with
          | hex hm =>
            have hall := Written.cons (CharText.pair hn hm hlead htrail) (ih htext hus)
            exact hall
  | case4 => contradiction
  | case5 => contradiction
  | case6 => contradiction
  | case7 n us hlead htrail ih =>
    obtain ⟨text', htext, rfl⟩ := Option.map_eq_some_iff.1 h
    cases hw with
    | cons hn hus =>
      cases hn with
      | hex hn => exact .cons (.hex hn hlead htrail) (ih htext hus)

/-- A text that is written is made up by parts. -/
theorem exists_joined? {text : List Char} (h : Written CharText text w) :
    ∃ us, Written UnitText us w ∧ joined? us = some text := by
  induction h with
  | nil => exact ⟨[], .nil, rfl⟩
  | @cons c text w cs hc _ ih =>
    obtain ⟨us, hus, htext⟩ := ih
    cases hc with
    | plain hquote hback hc =>
      refine ⟨.char c :: us, .cons (.plain hquote hback hc) hus, ?_⟩
      rw [joined?, htext, Option.map_some]
    | letter h =>
      refine ⟨.char c :: us, .cons (.letter h) hus, ?_⟩
      rw [joined?, htext, Option.map_some]
    | @hex a b c d n h hlead htrail =>
      refine ⟨.unit n :: us, .cons (.hex h) hus, ?_⟩
      rw [joined?.eq_def]
      simp [hlead, htrail, htext]
    | @pair a b c d a' b' c' d' n m h h' hlead htrail =>
      refine ⟨.unit n :: .unit m :: us, ?_, ?_⟩
      · have hall := Written.cons (UnitText.hex h) (Written.cons (UnitText.hex h') hus)
        exact hall
      · rw [joined?]
        simp [hlead, htrail, htext]

/-- **The reader takes exactly the texts of a string.** -/
theorem unescaped?_eq_some_iff {text : List Char} :
    unescaped? cs = some (text, rest) ↔ ∃ w, Written CharText text w ∧ cs = w ++ '"' :: rest := by
  constructor
  · intro h
    obtain ⟨⟨us, rest'⟩, hus, h⟩ := Option.bind_eq_some_iff.1 h
    obtain ⟨text', htext, h⟩ := Option.map_eq_some_iff.1 h
    cases h
    obtain ⟨w, hw, rfl⟩ := written_of_units? hus
    exact ⟨w, written_of_joined? htext hw, rfl⟩
  · rintro ⟨w, hw, rfl⟩
    obtain ⟨us, hus, htext⟩ := exists_joined? hw
    rw [unescaped?, units?_of_written hus, Option.bind_some, htext, Option.map_some]

/-! ### Numerals -/

namespace Numeral

/-- Digits, at least one. -/
structure AreDigits (ds : List Char) : Prop where
  /-- There is one. -/
  ne_nil : ds ≠ []
  /-- Each is a digit. -/
  isDigit : ∀ d ∈ ds, d.isDigit

/-- How an integral part is written. -/
inductive WholeText : List Char → Prop where
  /-- A zero stands alone. -/
  | zero : WholeText ['0']
  /-- Other digits do not start with one. -/
  | digits {ds : List Char} (hds : AreDigits ds) (hzero : ds.head? ≠ some '0') : WholeText ds

/-- How a fraction is written. -/
inductive FractionText : Option (List Char) → List Char → Prop where
  | none : FractionText none []
  | point {ds : List Char} (hds : AreDigits ds) : FractionText (some ds) ('.' :: ds)

/-- How an exponent is written, with its letter. -/
inductive ExponentText : Option (Bool × List Char) → List Char → Prop where
  | none : ExponentText none []
  | plain {e : Char} {ds : List Char} (he : e = 'e' ∨ e = 'E') (hds : AreDigits ds) :
    ExponentText (some (false, ds)) (e :: ds)
  | plus {e : Char} {ds : List Char} (he : e = 'e' ∨ e = 'E') (hds : AreDigits ds) :
    ExponentText (some (false, ds)) (e :: '+' :: ds)
  | minus {e : Char} {ds : List Char} (he : e = 'e' ∨ e = 'E') (hds : AreDigits ds) :
    ExponentText (some (true, ds)) (e :: '-' :: ds)

/-- How a numeral is written. -/
structure IsText (n : Numeral) (w : List Char) : Prop where
  /-- Its integral part. -/
  whole : WholeText n.whole
  /-- The rest, and all of it in order. -/
  parts : ∃ f e, FractionText n.fraction f ∧ ExponentText n.exponent e ∧
    w = (if n.isNegative then ['-'] else []) ++ (n.whole ++ (f ++ e))

/-- A numeral does not go on with a character. -/
def StopsAt (c : Char) : Prop := c.isDigit = false ∧ c ≠ '.' ∧ c ≠ 'e' ∧ c ≠ 'E'

variable {n : Numeral} {ds : List Char}

/-! Each part of a numeral that is read is one. -/

theorem areDigits_of_digits? (h : digits? cs = some (ds, rest)) :
    AreDigits ds ∧ cs = ds ++ rest := by
  unfold digits? at h
  split at h
  · contradiction
  · next d ds' hds =>
    cases h
    refine ⟨⟨List.cons_ne_nil d ds', fun c hc => ?_⟩, ?_⟩
    · rw [← hds] at hc
      exact List.mem_takeWhile_imp hc
    · rw [← hds, List.takeWhile_append_dropWhile]

theorem wholeText_of_whole? (h : whole? cs = some (ds, rest)) : WholeText ds ∧ cs = ds ++ rest := by
  unfold whole? at h
  split at h
  · cases h
    exact ⟨.zero, rfl⟩
  · next hne =>
    obtain ⟨hds, rfl⟩ := areDigits_of_digits? h
    refine ⟨.digits hds fun hhead => ?_, rfl⟩
    obtain ⟨ds', rfl⟩ := List.head?_eq_some_iff.1 hhead
    exact hne _ rfl

theorem fractionText_of_fraction? {f : Option (List Char)} (h : fraction? cs = some (f, rest)) :
    ∃ w, FractionText f w ∧ cs = w ++ rest := by
  unfold fraction? at h
  split at h
  · obtain ⟨⟨ds, rest'⟩, hread, h⟩ := Option.map_eq_some_iff.1 h
    cases h
    obtain ⟨hds, rfl⟩ := areDigits_of_digits? hread
    exact ⟨_, .point hds, rfl⟩
  · cases h
    exact ⟨[], .none, rfl⟩

theorem exponentText_of_exponent? {e : Option (Bool × List Char)}
    (h : exponent? cs = some (e, rest)) : ∃ w, ExponentText e w ∧ cs = w ++ rest := by
  unfold exponent? at h
  split at h
  · split at h
    · next hletter =>
      split at h <;>
      · obtain ⟨⟨ds, rest'⟩, hread, h⟩ := Option.map_eq_some_iff.1 h
        cases h
        obtain ⟨hds, rfl⟩ := areDigits_of_digits? hread
        first
          | exact ⟨_, .minus hletter hds, rfl⟩
          | exact ⟨_, .plus hletter hds, rfl⟩
          | exact ⟨_, .plain hletter hds, rfl⟩
    · cases h
      exact ⟨[], .none, rfl⟩
  · cases h
    exact ⟨[], .none, rfl⟩

/-- A numeral that is read is one, and its text has been read. -/
theorem isText_of_read? (h : read? cs = some (n, rest)) : ∃ w, n.IsText w ∧ cs = w ++ rest := by
  have hunsigned : ∀ {b ds}, unsigned? b ds = some (n, rest) →
      ∃ w, n.IsText w ∧ (if b then ['-'] else []) ++ ds = w ++ rest := by
    intro b ds h
    simp only [unsigned?, Option.bind_eq_bind, Option.pure_def, Option.bind_eq_some_iff,
      Option.some.injEq, Prod.exists, Prod.mk.injEq] at h
    obtain ⟨whole, cs₁, hread, f, cs₂, hf, e, cs₃, he, rfl, rfl⟩ := h
    obtain ⟨hwhole, rfl⟩ := wholeText_of_whole? hread
    obtain ⟨fw, hfw, rfl⟩ := fractionText_of_fraction? hf
    obtain ⟨ew, hew, rfl⟩ := exponentText_of_exponent? he
    refine ⟨_, ⟨hwhole, fw, ew, hfw, hew, rfl⟩, ?_⟩
    simp only [List.append_assoc]
  unfold read? at h
  split at h
  · exact hunsigned h
  · exact hunsigned h

/-! Each part of a numeral is read, up to where it ends. -/

/-- Digits start with nothing else. -/
theorem AreDigits.append_ne_cons (hds : AreDigits ds) {c : Char} (hc : c.isDigit = false)
    (rest rest' : List Char) : ds ++ rest ≠ c :: rest' := by
  intro heq
  cases ds with
  | nil => exact hds.ne_nil rfl
  | cons d ds =>
    rw [List.cons_append, List.cons.injEq] at heq
    rw [← heq.1, hds.isDigit d List.mem_cons_self] at hc
    cases hc

theorem WholeText.areDigits (h : WholeText ds) : AreDigits ds := by
  cases h with
  | zero => exact ⟨List.cons_ne_nil _ _, fun d hd => by rw [List.mem_singleton.1 hd]; rfl⟩
  | digits hds _ => exact hds

/-- An exponent goes on with no digits and no fraction before it. -/
theorem ExponentText.head?_append {e : Option (Bool × List Char)} (he : ExponentText e w)
    (hrest : ∀ c ∈ rest.head?, StopsAt c) :
    ∀ c ∈ (w ++ rest).head?, c.isDigit = false ∧ c ≠ '.' := by
  have hletter : ∀ {c}, c = 'e' ∨ c = 'E' → c.isDigit = false ∧ c ≠ '.' := by
    rintro c (rfl | rfl) <;> decide
  intro c hc
  cases he with
  | none => exact ⟨(hrest c hc).1, (hrest c hc).2.1⟩
  | plain he _ => exact hletter (Option.some.inj hc ▸ he)
  | plus he _ => exact hletter (Option.some.inj hc ▸ he)
  | minus he _ => exact hletter (Option.some.inj hc ▸ he)

/-- A fraction goes on with no digits before it. -/
theorem FractionText.head?_append {f : Option (List Char)} (hf : FractionText f w)
    (hrest : ∀ c ∈ rest.head?, c.isDigit = false) : ∀ c ∈ (w ++ rest).head?, c.isDigit = false := by
  intro c hc
  cases hf with
  | none => exact hrest c hc
  | point hds =>
    cases hc
    rfl

theorem digits?_of_areDigits (hds : AreDigits ds) (hrest : ∀ c ∈ rest.head?, c.isDigit = false) :
    digits? (ds ++ rest) = some (ds, rest) := by
  have hnone : rest.takeWhile Char.isDigit = [] ∧ rest.dropWhile Char.isDigit = rest := by
    cases rest with
    | nil => exact ⟨rfl, rfl⟩
    | cons c rest =>
      have hc : ¬ c.isDigit := by simp [hrest c rfl]
      exact ⟨List.takeWhile_cons_of_neg hc, List.dropWhile_cons_of_neg hc⟩
  have htake : (ds ++ rest).takeWhile Char.isDigit = ds := by
    rw [List.takeWhile_append_of_pos hds.isDigit, hnone.1, List.append_nil]
  have hdrop : (ds ++ rest).dropWhile Char.isDigit = rest := by
    rw [List.dropWhile_append_of_pos hds.isDigit, hnone.2]
  rw [digits?, htake, hdrop]
  cases ds with
  | nil => exact absurd rfl hds.ne_nil
  | cons d ds => rfl

theorem whole?_of_wholeText (hds : WholeText ds) (hrest : ∀ c ∈ rest.head?, c.isDigit = false) :
    whole? (ds ++ rest) = some (ds, rest) := by
  cases hds with
  | zero => rfl
  | digits hds hzero =>
    rw [whole?]
    · exact digits?_of_areDigits hds hrest
    · intro rest' heq
      cases ds with
      | nil => exact hds.ne_nil rfl
      | cons d ds =>
        rw [List.cons_append, List.cons.injEq] at heq
        exact hzero (by rw [heq.1, List.head?_cons])

theorem fraction?_of_fractionText {f : Option (List Char)} (hf : FractionText f w)
    (hrest : ∀ c ∈ rest.head?, c.isDigit = false ∧ c ≠ '.') :
    fraction? (w ++ rest) = some (f, rest) := by
  cases hf with
  | none =>
    rw [List.nil_append, fraction?]
    rintro rest' rfl
    exact (hrest '.' rfl).2 rfl
  | point hds =>
    rw [List.cons_append, fraction?, digits?_of_areDigits hds fun c hc => (hrest c hc).1,
      Option.map_some]

theorem exponent?_of_exponentText {e : Option (Bool × List Char)} (he : ExponentText e w)
    (hrest : ∀ c ∈ rest.head?, StopsAt c) : exponent? (w ++ rest) = some (e, rest) := by
  have hread : ∀ {ds}, AreDigits ds → digits? (ds ++ rest) = some (ds, rest) := fun hds =>
    digits?_of_areDigits hds fun c hc => (hrest c hc).1
  cases he with
  | none =>
    cases rest with
    | nil => rfl
    | cons c rest =>
      obtain ⟨-, -, he, hE⟩ := hrest c rfl
      have hletter : ¬ (c = 'e' ∨ c = 'E') := not_or.2 ⟨he, hE⟩
      unfold exponent?
      exact if_neg hletter
  | plain hletter hds =>
    rw [List.cons_append, exponent?, if_pos hletter, hread hds, Option.map_some]
    · exact hds.append_ne_cons rfl rest
    · exact hds.append_ne_cons rfl rest
  | plus hletter hds =>
    rw [List.cons_append, List.cons_append, exponent?, if_pos hletter, hread hds, Option.map_some]
  | minus hletter hds =>
    rw [List.cons_append, List.cons_append, exponent?, if_pos hletter, hread hds, Option.map_some]

/-- A numeral is read, unless what follows goes on with it. -/
theorem read?_of_isText (h : n.IsText w) (hrest : ∀ c ∈ rest.head?, StopsAt c) :
    read? (w ++ rest) = some (n, rest) := by
  obtain ⟨hwhole, f, e, hf, he, rfl⟩ := h
  have hexponent : exponent? (e ++ rest) = some (n.exponent, rest) :=
    exponent?_of_exponentText he hrest
  have hfraction : fraction? (f ++ (e ++ rest)) = some (n.fraction, e ++ rest) :=
    fraction?_of_fractionText hf (he.head?_append hrest)
  have hread : whole? (n.whole ++ (f ++ (e ++ rest))) = some (n.whole, f ++ (e ++ rest)) :=
    whole?_of_wholeText hwhole (hf.head?_append fun c hc => (he.head?_append hrest c hc).1)
  have hunsigned : unsigned? n.isNegative (n.whole ++ (f ++ (e ++ rest))) = some (n, rest) := by
    simp only [unsigned?, hread, hfraction, hexponent, Option.bind_eq_bind, Option.bind_some,
      Option.pure_def]
  simp only [List.append_assoc]
  cases hsign : n.isNegative with
  | true =>
    rw [hsign] at hunsigned
    exact hunsigned
  | false =>
    rw [hsign] at hunsigned
    rw [if_neg Bool.false_ne_true, List.nil_append, read?]
    · exact hunsigned
    · exact hwhole.areDigits.append_ne_cons rfl _

end Numeral

end BundleAudit.Json
