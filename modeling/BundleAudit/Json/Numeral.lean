import BundleAudit.Json.Basic
import BundleAudit.Text.Digits

/-!
# Numerals

A JSON numeral is an optional minus sign, an integral part without leading zeros, an optional
fraction and an optional exponent.  An integer that fits into 64 bits is exact.  Every other numeral
denotes a binary floating-point number, computed from as many leading digits as fit into 64 bits;
one beyond the greatest finite number is no numeral.

## Main definitions

* `Numeral` — the parts of a numeral as written.
* `Numeral.read? cs` — the numeral at the start of a text and what follows it.
* `Numeral.value? n` — the number that it denotes.
-/

namespace BundleAudit.Json

open Text

/-- The parts of a numeral. -/
structure Numeral where
  /-- Whether it starts with a minus sign. -/
  isNegative : Bool
  /-- The digits of the integral part. -/
  whole : List Char
  /-- The digits after the point, if it has a point. -/
  fraction : Option (List Char)
  /-- Whether the exponent is negative and its digits, if it has an exponent. -/
  exponent : Option (Bool × List Char)
deriving DecidableEq, Repr

namespace Numeral

/-! ### Reading a numeral -/

/-- The digits at the start of a text, at least one, and what follows them. -/
def digits? (cs : List Char) : Option (List Char × List Char) :=
  match cs.takeWhile Char.isDigit with
  | [] => none
  | d :: ds => some (d :: ds, cs.dropWhile Char.isDigit)

/-- The integral part at the start of a text: a zero, or digits that start with another one. -/
def whole? (cs : List Char) : Option (List Char × List Char) :=
  match cs with
  | '0' :: rest => some (['0'], rest)
  | _ => digits? cs

/-- The fraction at the start of a text, if there is a point. -/
def fraction? (cs : List Char) : Option (Option (List Char) × List Char) :=
  match cs with
  | '.' :: rest => (digits? rest).map fun p => (some p.1, p.2)
  | _ => some (none, cs)

/-- The exponent at the start of a text, if there is its letter. -/
def exponent? (cs : List Char) : Option (Option (Bool × List Char) × List Char) :=
  match cs with
  | c :: rest =>
    if c = 'e' ∨ c = 'E' then
      match rest with
      | '-' :: rest => (digits? rest).map fun p => (some (true, p.1), p.2)
      | '+' :: rest => (digits? rest).map fun p => (some (false, p.1), p.2)
      | rest => (digits? rest).map fun p => (some (false, p.1), p.2)
    else some (none, cs)
  | [] => some (none, [])

/-- The parts of a numeral after its sign. -/
def unsigned? (isNegative : Bool) (cs : List Char) : Option (Numeral × List Char) := do
  let (whole, cs) ← whole? cs
  let (fraction, cs) ← fraction? cs
  let (exponent, cs) ← exponent? cs
  pure (⟨isNegative, whole, fraction, exponent⟩, cs)

/-- The numeral at the start of a text and what follows it. -/
def read? (cs : List Char) : Option (Numeral × List Char) :=
  match cs with
  | '-' :: rest => unsigned? true rest
  | _ => unsigned? false cs

/-! ### Its value -/

/-- Appends digits to a significand as long as it stays below `2 ^ 64`, and returns how many digits
were left over. -/
def absorb (significand : Nat) : List Char → Nat × Nat
  | [] => (significand, 0)
  | d :: ds =>
    let longer := 10 * significand + digitValue d
    if longer < UInt64.size then absorb longer ds else (significand, ds.length + 1)

/-- The exponent that a numeral writes; zero if it writes none. -/
def writtenExponent (n : Numeral) : Int :=
  match n.exponent with
  | none => 0
  | some (false, ds) => digitsValue ds
  | some (true, ds) => -digitsValue ds

/-- The floating-point number that a significand with an exponent and a written exponent denotes.  A
written exponent of more than 31 bits counts as infinite. -/
def float? (n : Numeral) (significand : Nat) (exponent : Int) : Option Number :=
  let written := n.writtenExponent
  if Nat.pow 2 31 ≤ written.natAbs then
    if significand ≠ 0 ∧ 0 < written then none else some (.float n.isNegative .zero)
  else (Binary64.scaled? significand (exponent + written)).map (.float n.isNegative)

/-- The number that a numeral denotes; none if it is out of range. -/
def value? (n : Numeral) : Option Number :=
  let (significand, dropped) := absorb 0 n.whole
  match n.fraction, n.exponent with
  | none, none =>
    if dropped ≠ 0 then n.float? significand dropped
    else if n.isNegative then
      -- a negative zero is no integer, and neither is what lies below the least one of 64 bits
      if 0 < significand ∧ significand ≤ Nat.pow 2 63 then some (.negative significand)
      else n.float? significand 0
    else some (.natural significand)
  | none, some _ => n.float? significand dropped
  | some ds, _ =>
    -- every digit of the fraction that is used moves the point by one place
    let (significand, unused) := absorb significand ds
    n.float? significand ((dropped : Int) - (ds.length - unused : Nat))

/-! ### Progress -/

theorem length_of_digits? {cs ds rest : List Char} (h : digits? cs = some (ds, rest)) :
    rest.length < cs.length := by
  unfold digits? at h
  split at h
  · contradiction
  · next d ds' hds =>
    have := congrArg List.length (List.takeWhile_append_dropWhile (p := Char.isDigit) (l := cs))
    simp only [hds, Option.some.injEq, Prod.mk.injEq, List.length_append, List.length_cons]
      at this h
    rw [← h.2]
    omega

theorem length_of_whole? {cs ds rest : List Char} (h : whole? cs = some (ds, rest)) :
    rest.length < cs.length := by
  unfold whole? at h
  split at h
  · simp only [Option.some.injEq, Prod.mk.injEq] at h
    simp [h.2]
  · exact length_of_digits? h

theorem length_of_fraction? {cs rest : List Char} {f} (h : fraction? cs = some (f, rest)) :
    rest.length ≤ cs.length := by
  unfold fraction? at h
  split at h
  · simp only [Option.map_eq_some_iff, Prod.exists, Prod.mk.injEq] at h
    obtain ⟨ds, r, hds, -, rfl⟩ := h
    exact Nat.le_of_lt (Nat.lt_succ_of_lt (length_of_digits? hds))
  · simp only [Option.some.injEq, Prod.mk.injEq] at h
    exact Nat.le_of_eq (congrArg List.length h.2.symm)

theorem length_of_exponent? {cs rest : List Char} {e} (h : exponent? cs = some (e, rest)) :
    rest.length ≤ cs.length := by
  unfold exponent? at h
  split at h
  · split at h
    · split at h <;>
      · simp only [Option.map_eq_some_iff, Prod.exists, Prod.mk.injEq] at h
        obtain ⟨ds, r, hds, -, rfl⟩ := h
        have := length_of_digits? hds
        simp only [List.length_cons]
        omega
    · simp only [Option.some.injEq, Prod.mk.injEq] at h
      exact Nat.le_of_eq (congrArg List.length h.2.symm)
  · simp only [Option.some.injEq, Prod.mk.injEq] at h
    simp [← h.2]

/-- Reading a numeral uses up at least one character. -/
theorem length_of_read? {cs rest : List Char} {n : Numeral} (h : read? cs = some (n, rest)) :
    rest.length < cs.length := by
  have hun : ∀ {b ds}, unsigned? b ds = some (n, rest) → rest.length < ds.length := by
    intro b ds h
    simp only [unsigned?, Option.bind_eq_bind, Option.pure_def, Option.bind_eq_some_iff,
      Option.some.injEq, Prod.exists, Prod.mk.injEq] at h
    obtain ⟨w, c₁, h₁, f, c₂, h₂, e, c₃, h₃, -, rfl⟩ := h
    have := length_of_whole? h₁
    have := length_of_fraction? h₂
    have := length_of_exponent? h₃
    omega
  unfold read? at h
  split at h
  · exact Nat.lt_succ_of_lt (hun h)
  · exact hun h

end Numeral

end BundleAudit.Json
