import BundleAudit.Json.Token
import BundleAudit.Proofs.Json.Spelling
import Mathlib.Data.List.Chain

/-!
# How tokens are laid out

A text of a document holds one token after the other, each written in one of its ways, with white
space anywhere between them.  The reader cuts such a text into its tokens, however they are laid
out, as long as no two numbers stand side by side: the second would go on with the first.

## Main definitions

* `TokenText t w` — `w` is a text of the token `t`.
* `Layout ts cs` — `cs` holds texts of the tokens `ts`, with white space around them.
* `Apart ts` — no two numbers stand side by side.

## Main results

* `tokenText_of_lexeme?`, `lexeme?_of_tokenText` — a token that is read is one, and a token is read.
* `layout_of_tokens?` — **a text with tokens is a layout of them**.
* `tokens?_of_layout` — **a layout is read**.
-/

namespace BundleAudit.Json

variable {cs rest w : List Char}

/-! ### Tokens -/

/-- How a token is written. -/
inductive TokenText : Token → List Char → Prop where
  | openBracket : TokenText .openBracket ['[']
  | closeBracket : TokenText .closeBracket [']']
  | openBrace : TokenText .openBrace ['\x7b']
  | closeBrace : TokenText .closeBrace ['\x7d']
  | comma : TokenText .comma [',']
  | colon : TokenText .colon [':']
  | null : TokenText .null ['n', 'u', 'l', 'l']
  | true : TokenText (.bool true) ['t', 'r', 'u', 'e']
  | false : TokenText (.bool false) ['f', 'a', 'l', 's', 'e']
  /-- A numeral that denotes a number. -/
  | number {n : Numeral} {x : Number} {w : List Char} (hn : n.IsText w) (hx : n.value? = some x) :
    TokenText (.number x) w
  /-- A text in quotes. -/
  | string {text w : List Char} (h : Written CharText text w) :
    TokenText (.string (String.ofList text)) ('"' :: (w ++ ['"']))

/-- Whether a token is a number. -/
def Token.isNumber : Token → Bool
  | .number _ => true
  | _ => false

variable {t : Token} {ts : List Token}

/-- A token that is read is one, and its text has been read. -/
theorem tokenText_of_lexeme? (h : lexeme? cs = some (t, rest)) :
    ∃ w, TokenText t w ∧ cs = w ++ rest := by
  unfold lexeme? at h
  split at h
  case h_1 => contradiction
  case h_2 => cases h; exact ⟨_, .openBracket, rfl⟩
  case h_3 => cases h; exact ⟨_, .closeBracket, rfl⟩
  case h_4 => cases h; exact ⟨_, .openBrace, rfl⟩
  case h_5 => cases h; exact ⟨_, .closeBrace, rfl⟩
  case h_6 => cases h; exact ⟨_, .comma, rfl⟩
  case h_7 => cases h; exact ⟨_, .colon, rfl⟩
  case h_8 =>
    obtain ⟨⟨text, rest'⟩, hread, h⟩ := Option.map_eq_some_iff.1 h
    cases h
    obtain ⟨w, hw, rfl⟩ := unescaped?_eq_some_iff.1 hread
    refine ⟨_, .string hw, ?_⟩
    rw [List.cons_append, List.append_assoc, List.singleton_append]
  case h_9 =>
    split at h
    · unfold word? at h
      split at h
      · cases h; exact ⟨_, .null, by assumption⟩
      · cases h; exact ⟨_, .true, by assumption⟩
      · cases h; exact ⟨_, .false, by assumption⟩
      · contradiction
    · obtain ⟨⟨n, rest'⟩, hread, h⟩ := Option.bind_eq_some_iff.1 h
      obtain ⟨x, hx, h⟩ := Option.map_eq_some_iff.1 h
      cases h
      obtain ⟨w, hw, heq⟩ := Numeral.isText_of_read? hread
      exact ⟨w, .number hw hx, heq⟩

/-- A numeral starts with a minus sign or a digit. -/
theorem Numeral.IsText.exists_cons {n : Numeral} (h : n.IsText w) :
    ∃ c w', w = c :: w' ∧ (c = '-' ∨ c.isDigit) := by
  obtain ⟨hwhole, f, e, -, -, rfl⟩ := h
  obtain ⟨d, ds, hds⟩ := List.exists_cons_of_ne_nil hwhole.areDigits.ne_nil
  have hd : d.isDigit := hwhole.areDigits.isDigit d (hds ▸ List.mem_cons_self)
  rw [hds]
  cases n.isNegative with
  | true => exact ⟨'-', _, rfl, Or.inl rfl⟩
  | false => exact ⟨d, _, rfl, Or.inr hd⟩

/-- What starts like a numeral is read as one. -/
theorem lexeme?_numeral {c : Char} (h : c = '-' ∨ c.isDigit) (cs : List Char) :
    lexeme? (c :: cs) = numberToken? (c :: cs) := by
  have halpha : ¬ c.isAlpha := by
    rcases h with rfl | h
    · decide
    · have hdigit : 48 ≤ c.toNat ∧ c.toNat ≤ 57 := by
        simpa [Char.isDigit, UInt32.le_iff_toNat_le] using h
      have hnone : ∀ n < 58, 48 ≤ n → ¬ (Char.ofNat n).isAlpha := by decide
      rw [← Char.ofNat_toNat c]
      exact hnone c.toNat (by omega) hdigit.1
  unfold lexeme?
  split
  case h_9 heq =>
    cases heq
    exact if_neg halpha
  all_goals
    next heq =>
      cases heq
      try exact absurd h (by decide)

/-- A token is read, unless it is a numeral and what follows goes on with it. -/
theorem lexeme?_of_tokenText (h : TokenText t w)
    (hrest : t.isNumber → ∀ c ∈ rest.head?, Numeral.StopsAt c) :
    lexeme? (w ++ rest) = some (t, rest) := by
  cases h with
  | number hn hx =>
    obtain ⟨c, w', rfl, hc⟩ := hn.exists_cons
    have hread := Numeral.read?_of_isText hn (hrest rfl)
    rw [List.cons_append, lexeme?_numeral hc, ← List.cons_append, numberToken?, hread,
      Option.bind_some, hx, Option.map_some]
  | @string text w h =>
    have hread : unescaped? (w ++ '"' :: rest) = some (text, rest) :=
      unescaped?_eq_some_iff.2 ⟨w, h, rfl⟩
    rw [List.cons_append, List.append_assoc, List.singleton_append, lexeme?, hread, Option.map_some]
  | _ => rfl

/-- No token starts with white space. -/
theorem TokenText.exists_cons (h : TokenText t w) : ∃ c w', w = c :: w' ∧ ¬ isSpace c := by
  cases h with
  | number hn hx =>
    obtain ⟨c, w', rfl, hc⟩ := hn.exists_cons
    refine ⟨c, w', rfl, fun hspace => ?_⟩
    simp only [isSpace, Bool.or_eq_true, decide_eq_true_eq] at hspace
    rcases hspace with ((rfl | rfl) | rfl) | rfl <;> exact absurd hc (by decide)
  | _ => exact ⟨_, _, rfl, by decide⟩

/-! ### Layouts -/

/-- A text with tokens and white space around them. -/
inductive Layout : List Token → List Char → Prop where
  | nil : Layout [] []
  | space {c : Char} {ts : List Token} {cs : List Char} (hc : isSpace c) (h : Layout ts cs) :
    Layout ts (c :: cs)
  | token {t : Token} {ts : List Token} {w cs : List Char} (ht : TokenText t w)
    (h : Layout ts cs) : Layout (t :: ts) (w ++ cs)

theorem Layout.append {ts us : List Token} {cs ds : List Char} (h : Layout ts cs)
    (h' : Layout us ds) : Layout (ts ++ us) (cs ++ ds) := by
  induction h with
  | nil => exact h'
  | space hc _ ih => exact .space hc ih
  | token ht _ ih =>
    rw [List.append_assoc]
    exact .token ht ih

/-- A token without white space. -/
theorem TokenText.layout (h : TokenText t w) : Layout [t] w := by
  rw [← List.append_nil w]
  exact .token h .nil

/-- No two numbers stand side by side. -/
def Apart (ts : List Token) : Prop := ts.IsChain fun t u => t.isNumber → ¬ u.isNumber

namespace Apart

theorem nil : Apart [] := List.IsChain.nil

theorem cons (ht : ¬ t.isNumber) (h : Apart ts) : Apart (t :: ts) :=
  List.isChain_cons.2 ⟨fun _ _ hnumber => absurd hnumber ht, h⟩

theorem singleton (t : Token) : Apart [t] := List.IsChain.singleton t

theorem append {us : List Token} (h : Apart ts) (h' : Apart us)
    (hus : ∀ u ∈ us.head?, ¬ u.isNumber) : Apart (ts ++ us) :=
  List.isChain_append.2 ⟨h, h', fun _ _ u hu _ => hus u hu⟩

end Apart

/-- **A text with tokens is a layout of them.** -/
theorem layout_of_tokens? (h : tokens? cs = some ts) : Layout ts cs := by
  fun_induction tokens? cs generalizing ts with
  | case1 =>
    cases h
    exact .nil
  | case2 c cs hc ih => exact .space hc (ih h)
  | case3 => contradiction
  | case4 c cs hc t rest hlexeme ih =>
    obtain ⟨ts', hts, rfl⟩ := Option.map_eq_some_iff.1 h
    obtain ⟨w, hw, heq⟩ := tokenText_of_lexeme? hlexeme
    rw [heq]
    exact .token hw (ih hts)

/-- In front of any token but a number a numeral ends, with or without white space between
them. -/
theorem Layout.stopsAt (h : Layout ts cs) (hts : ∀ t ∈ ts.head?, ¬ t.isNumber) :
    ∀ c ∈ cs.head?, Numeral.StopsAt c := by
  intro c hc
  cases h with
  | nil => cases hc
  | space hspace _ =>
    cases hc
    simp only [isSpace, Bool.or_eq_true, decide_eq_true_eq] at hspace
    rcases hspace with ((rfl | rfl) | rfl) | rfl <;> exact ⟨rfl, by decide, by decide, by decide⟩
  | token ht _ =>
    cases ht with
    | number => exact absurd rfl (hts _ rfl)
    | _ =>
      cases hc
      exact ⟨rfl, by decide, by decide, by decide⟩

/-- **A layout is read**, if no two numbers stand side by side in it. -/
theorem tokens?_of_layout (h : Layout ts cs) (hts : Apart ts) : tokens? cs = some ts := by
  induction h with
  | nil => exact tokens?_nil
  | space hc _ ih =>
    rw [tokens?_space hc]
    exact ih hts
  | @token t ts w cs ht hlayout ih =>
    obtain ⟨hnext, hts⟩ := List.isChain_cons.1 hts
    have hlexeme : lexeme? (w ++ cs) = some (t, cs) :=
      lexeme?_of_tokenText ht fun hn => hlayout.stopsAt fun u hu => hnext u hu hn
    obtain ⟨c, w, rfl, hc⟩ := ht.exists_cons
    rw [List.cons_append] at hlexeme ⊢
    rw [tokens?_of_lexeme? hc hlexeme, ih hts, Option.map_some]

end BundleAudit.Json
