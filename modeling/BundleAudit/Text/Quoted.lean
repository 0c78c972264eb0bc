import BundleAudit.Text.Digits
import BundleAudit.Text.Hidden

/-!
# Quoted texts

Messages quote the texts they speak about, so that blanks and controls in them can be seen.  A
quoted text stands in double quotes; a quote and a backslash are escaped, the most common controls
have an escape of their own, and whatever else has no glyph of its own is shown by its code point.

## Main definitions

* `quotedChar c` — how one character is shown.
* `quoted cs` — the quoted text.

## Main results

* `not_mem_quoted_lf` — a quoted text stays on one line.
-/

namespace BundleAudit.Text

/-- How a quoted text shows one character. -/
def quotedChar (c : Char) : List Char :=
  if c = '"' then ['\\', '"']
  else if c = '\\' then ['\\', '\\']
  else if c = '\n' then ['\\', 'n']
  else if c = '\r' then ['\\', 'r']
  else if c = '\t' then ['\\', 't']
  else if c = '\x00' then ['\\', '0']
  else if isHidden c then ['\\', 'u', '{'] ++ hexDigits c.toNat ++ ['}']
  else [c]

/-- A text in quotes, with every character shown by `quotedChar`. -/
def quoted (cs : List Char) : List Char := '"' :: (cs.flatMap quotedChar ++ ['"'])

/-- The quoted form of a string. -/
def quotedString (s : String) : String := String.ofList (quoted s.toList)

/-- No character is shown by a line feed. -/
theorem not_mem_quotedChar_lf (c : Char) : '\n' ∉ quotedChar c := by
  have hhex := not_mem_hexDigits_lf c.toNat
  unfold quotedChar
  grind

/-- A quoted text stays on one line. -/
theorem not_mem_quoted_lf (cs : List Char) : '\n' ∉ quoted cs := by
  simp [quoted, not_mem_quotedChar_lf]

end BundleAudit.Text
