/-!
# White space

Tokens and settings are read with the white space around them removed.  White space is the Unicode
property `White_Space`, so a no-break space or an ideographic space is removed too, while the
zero-width space, the word joiner and the byte order mark are not.

## Main definitions

* `isBlank c` — the character `c` has the property `White_Space`.
* `trim cs` — `cs` without the white space at its two ends.
* `IsBlank cs` — the text `cs` is white space throughout.
-/

namespace BundleAudit.Text

/-- The characters with the Unicode property `White_Space`. -/
def isBlank (c : Char) : Bool :=
  ('\t' ≤ c && c ≤ '\r') || c = ' ' || c = '\u0085' || c = '\u00a0' || c = '\u1680' ||
    ('\u2000' ≤ c && c ≤ '\u200a') || c = '\u2028' || c = '\u2029' || c = '\u202f' ||
    c = '\u205f' || c = '\u3000'

/-- A text without the white space in front. -/
def trimStart (cs : List Char) : List Char := cs.dropWhile isBlank

/-- A text without the white space at its end. -/
def trimEnd (cs : List Char) : List Char := (trimStart cs.reverse).reverse

/-- A text without the white space at its two ends. -/
def trim (cs : List Char) : List Char := trimEnd (trimStart cs)

/-- The text holds nothing but white space. -/
def IsBlank (cs : List Char) : Prop := ∀ c ∈ cs, isBlank c

instance (cs : List Char) : Decidable (IsBlank cs) := List.decidableBAll _ cs

@[simp] theorem trimStart_nil : trimStart [] = [] := rfl

/-- A blank in front is dropped. -/
theorem trimStart_cons_of_isBlank {c : Char} (h : isBlank c) (cs : List Char) :
    trimStart (c :: cs) = trimStart cs := by
  simp [trimStart, h]

/-- A text that starts with another character is kept. -/
theorem trimStart_cons_of_not_isBlank {c : Char} (h : ¬ isBlank c) (cs : List Char) :
    trimStart (c :: cs) = c :: cs := by
  simp [trimStart, h]

/-- Cutting white space at the start of a text leaves nothing exactly if it is all white space. -/
theorem trimStart_eq_nil_iff {cs : List Char} : trimStart cs = [] ↔ IsBlank cs := by
  induction cs with
  | nil => simp [IsBlank]
  | cons c cs ih =>
    by_cases h : isBlank c
    · rw [trimStart_cons_of_isBlank h, ih]
      simp [IsBlank, h]
    · rw [trimStart_cons_of_not_isBlank h]
      simp [IsBlank, h]

/-- Every text is its cut front, white space, followed by what `trimStart` leaves. -/
theorem takeWhile_append_trimStart (cs : List Char) :
    cs.takeWhile isBlank ++ trimStart cs = cs :=
  List.takeWhile_append_dropWhile

end BundleAudit.Text
