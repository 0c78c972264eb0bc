import BundleAudit.Text.Quoted

/-!
# Escapes in JSON strings

Inside a JSON string a quote, a backslash and the controls below the space are escaped.  An escape
`\u` gives a UTF-16 unit, so a character beyond the first plane takes a pair of them; half a pair
alone is no text.

## Main definitions

* `escaped cs` — the text of a string in its quotes.
* `units? cs` — the characters and units of a string up to its closing quote, and what follows it.
* `joined? units` — the text that characters and units make up.
* `unescaped? cs` — the text of a string whose opening quote has been read, and what follows it.
-/

namespace BundleAudit.Json

/-! ### Writing -/

/-- How one character is written inside a string. -/
def escapedChar (c : Char) : List Char :=
  if c = '"' then ['\\', '"']
  else if c = '\\' then ['\\', '\\']
  else if c = '\x08' then ['\\', 'b']
  else if c = '\x0c' then ['\\', 'f']
  else if c = '\n' then ['\\', 'n']
  else if c = '\r' then ['\\', 'r']
  else if c = '\t' then ['\\', 't']
  else if c < ' ' then
    ['\\', 'u', '0', '0', (c.toNat / 16).digitChar, (c.toNat % 16).digitChar]
  else [c]

/-- A string in its quotes. -/
def escaped (cs : List Char) : List Char := '"' :: (cs.flatMap escapedChar ++ ['"'])

/-! ### Reading -/

/-- A part of a string as written: a character, or a UTF-16 unit given by an escape. -/
inductive StringUnit where
  /-- A character. -/
  | char (c : Char)
  /-- A UTF-16 unit. -/
  | unit (n : Nat)
deriving DecidableEq, Repr

/-- The value of a hexadecimal digit. -/
def hexValue? (c : Char) : Option Nat :=
  if c.isDigit then some (c.toNat - '0'.toNat)
  else if 'a' ≤ c ∧ c ≤ 'f' then some (c.toNat - 'a'.toNat + 10)
  else if 'A' ≤ c ∧ c ≤ 'F' then some (c.toNat - 'A'.toNat + 10)
  else none

/-- The number that four hexadecimal digits denote. -/
def hexUnit? (a b c d : Char) : Option Nat := do
  let a ← hexValue? a
  let b ← hexValue? b
  let c ← hexValue? c
  let d ← hexValue? d
  pure (((a * 16 + b) * 16 + c) * 16 + d)

/-- The character that a letter after a backslash stands for. -/
def unescapedChar? (c : Char) : Option Char :=
  if c = '"' ∨ c = '\\' ∨ c = '/' then some c
  else if c = 'b' then some '\x08'
  else if c = 'f' then some '\x0c'
  else if c = 'n' then some '\n'
  else if c = 'r' then some '\r'
  else if c = 't' then some '\t'
  else none

/-- The parts of a string up to its closing quote, and what follows the quote. -/
def units? : List Char → Option (List StringUnit × List Char)
  | [] => none
  | '"' :: cs => some ([], cs)
  | '\\' :: 'u' :: a :: b :: c :: d :: cs =>
    (hexUnit? a b c d).bind fun n => (units? cs).map fun p => (.unit n :: p.1, p.2)
  | '\\' :: c :: cs =>
    (unescapedChar? c).bind fun c => (units? cs).map fun p => (.char c :: p.1, p.2)
  | c :: cs =>
    if c < ' ' then none else (units? cs).map fun p => (.char c :: p.1, p.2)

/-- Whether a unit is the first half of a pair. -/
def isLeading (n : Nat) : Bool := 0xd800 ≤ n && n < 0xdc00

/-- Whether a unit is the second half of a pair. -/
def isTrailing (n : Nat) : Bool := 0xdc00 ≤ n && n < 0xe000

/-- The text that the parts of a string make up.  A half of a pair has to stand beside the other. -/
def joined? : List StringUnit → Option (List Char)
  | [] => some []
  | .char c :: rest => (joined? rest).map (c :: ·)
  | .unit n :: rest =>
    if isLeading n then
      -- the first half of a pair: the second half has to follow at once
      match rest with
      | .unit m :: rest =>
        if isTrailing m then
          (joined? rest).map (Char.ofNat (0x10000 + (n - 0xd800) * 0x400 + (m - 0xdc00)) :: ·)
        else none
      | _ => none
    else if isTrailing n then none
    else (joined? rest).map (Char.ofNat n :: ·)

/-- The text of a string whose opening quote has been read, and what follows its closing quote. -/
def unescaped? (cs : List Char) : Option (List Char × List Char) :=
  (units? cs).bind fun p => (joined? p.1).map (·, p.2)

/-- Reading the parts of a string uses up its closing quote at least. -/
theorem length_of_units? {cs rest : List Char} {units : List StringUnit}
    (h : units? cs = some (units, rest)) : rest.length < cs.length := by
  fun_induction units? cs generalizing units with
  | case1 => contradiction
  | case2 cs => simp_all
  | case3 a b c d cs ih =>
    simp only [Option.bind_eq_some_iff, Option.map_eq_some_iff, Prod.exists, Prod.mk.injEq] at h
    obtain ⟨n, -, us, r, hr, -, rfl⟩ := h
    have := ih hr
    simp only [List.length_cons]
    omega
  | case4 c cs _ ih =>
    simp only [Option.bind_eq_some_iff, Option.map_eq_some_iff, Prod.exists, Prod.mk.injEq] at h
    obtain ⟨n, -, us, r, hr, -, rfl⟩ := h
    have := ih hr
    simp only [List.length_cons]
    omega
  | case5 => contradiction
  | case6 c cs _ _ _ hc ih =>
    simp only [Option.map_eq_some_iff, Prod.exists, Prod.mk.injEq] at h
    obtain ⟨us, r, hr, -, rfl⟩ := h
    exact Nat.lt_succ_of_lt (ih hr)

/-- Reading a string uses up its closing quote at least. -/
theorem length_of_unescaped? {cs text rest : List Char}
    (h : unescaped? cs = some (text, rest)) : rest.length < cs.length := by
  simp only [unescaped?, Option.bind_eq_some_iff, Option.map_eq_some_iff, Prod.exists,
    Prod.mk.injEq] at h
  obtain ⟨us, r, hus, t, -, -, rfl⟩ := h
  exact length_of_units? hus

end BundleAudit.Json
