import BundleAudit.Json.Escape
import BundleAudit.Json.Numeral

/-!
# Tokens of a JSON document

A document is read in two steps, and this module holds what stands between them: its brackets,
commas, colons and scalar values.  Space, tab, line feed and carriage return separate tokens; no
other white space does.

## Main definitions

* `Token` — a token.
* `lexeme? cs` — the token at the start of a text and what follows it.
* `tokens? cs` — the tokens of a text.
-/

namespace BundleAudit.Json

/-- A token. -/
inductive Token where
  /-- The start of an array. -/
  | openBracket
  /-- The end of an array. -/
  | closeBracket
  /-- The start of an object. -/
  | openBrace
  /-- The end of an object. -/
  | closeBrace
  /-- What separates items and members. -/
  | comma
  /-- What separates a key from its value. -/
  | colon
  /-- The word `null`. -/
  | null
  /-- The words `true` and `false`. -/
  | bool (b : Bool)
  /-- A numeral. -/
  | number (n : Number)
  /-- A string; it is a key if a colon follows. -/
  | string (s : String)
deriving DecidableEq, Repr

/-- The characters that separate tokens. -/
def isSpace (c : Char) : Bool := c = ' ' || c = '\n' || c = '\t' || c = '\r'

/-- The token that a word is. -/
def word? (cs : List Char) : Option (Token × List Char) :=
  match cs with
  | 'n' :: 'u' :: 'l' :: 'l' :: rest => some (.null, rest)
  | 't' :: 'r' :: 'u' :: 'e' :: rest => some (.bool true, rest)
  | 'f' :: 'a' :: 'l' :: 's' :: 'e' :: rest => some (.bool false, rest)
  | _ => none

/-- The token that a numeral is. -/
def numberToken? (cs : List Char) : Option (Token × List Char) :=
  (Numeral.read? cs).bind fun p => p.1.value?.map fun n => (.number n, p.2)

/-- The token at the start of a text and what follows it. -/
def lexeme? (cs : List Char) : Option (Token × List Char) :=
  match cs with
  | [] => none
  | '[' :: rest => some (.openBracket, rest)
  | ']' :: rest => some (.closeBracket, rest)
  | '{' :: rest => some (.openBrace, rest)
  | '}' :: rest => some (.closeBrace, rest)
  | ',' :: rest => some (.comma, rest)
  | ':' :: rest => some (.colon, rest)
  | '"' :: rest => (unescaped? rest).map fun p => (.string (String.ofList p.1), p.2)
  | c :: rest => if c.isAlpha then word? (c :: rest) else numberToken? (c :: rest)

theorem length_of_word? {cs rest : List Char} {t : Token} (h : word? cs = some (t, rest)) :
    rest.length < cs.length := by
  unfold word? at h
  split at h <;> simp_all <;> omega

theorem length_of_numberToken? {cs rest : List Char} {t : Token}
    (h : numberToken? cs = some (t, rest)) : rest.length < cs.length := by
  simp only [numberToken?, Option.bind_eq_some_iff, Option.map_eq_some_iff, Prod.exists,
    Prod.mk.injEq] at h
  obtain ⟨n, r, hn, v, -, -, rfl⟩ := h
  exact Numeral.length_of_read? hn

/-- A token takes at least one character. -/
theorem length_of_lexeme? {cs rest : List Char} {t : Token} (h : lexeme? cs = some (t, rest)) :
    rest.length < cs.length := by
  unfold lexeme? at h
  split at h
  case h_1 => contradiction
  case h_8 =>
    simp only [Option.map_eq_some_iff, Prod.exists, Prod.mk.injEq] at h
    obtain ⟨s, r, hs, -, rfl⟩ := h
    exact Nat.lt_succ_of_lt (length_of_unescaped? hs)
  case h_9 =>
    split at h
    · exact length_of_word? h
    · exact length_of_numberToken? h
  all_goals simp_all

/-- The tokens of a text, if it consists of tokens and the space between them. -/
def tokens? (cs : List Char) : Option (List Token) :=
  match cs with
  | [] => some []
  | c :: rest =>
    if isSpace c then tokens? rest
    else match _h : lexeme? (c :: rest) with
      | none => none
      | some (t, rest') => (tokens? rest').map (t :: ·)
termination_by cs.length
decreasing_by
  · exact Nat.lt_succ_self _
  · exact length_of_lexeme? _h

@[simp] theorem tokens?_nil : tokens? [] = some [] := by
  rw [tokens?]

/-- Space between tokens is skipped. -/
theorem tokens?_space {c : Char} (h : isSpace c) (cs : List Char) :
    tokens? (c :: cs) = tokens? cs := by
  rw [tokens?, if_pos h]

/-- A token in front is the first one. -/
theorem tokens?_of_lexeme? {c : Char} {cs rest : List Char} {t : Token} (hc : ¬ isSpace c)
    (h : lexeme? (c :: cs) = some (t, rest)) :
    tokens? (c :: cs) = (tokens? rest).map (t :: ·) := by
  rw [tokens?, if_neg hc]
  split
  · next h' => rw [h] at h'; contradiction
  · next h' =>
    rw [h] at h'
    injection h' with h'
    injection h' with h₁ h₂
    rw [h₁, h₂]

end BundleAudit.Json
