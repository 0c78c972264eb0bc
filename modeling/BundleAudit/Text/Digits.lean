/-!
# Digits

Numbers are shown in base 10, and code points in base 16.

## Main definitions

* `decimal n` — a number in base 10.
* `digitsValue ds` — the number that digits denote in base 10.
* `hexDigits n` — the digits of a number in base 16.
-/

namespace BundleAudit.Text

/-- A number in base 10. -/
def decimal (n : Nat) : String := String.ofList (Nat.toDigits 10 n)

/-- The value of a digit. -/
def digitValue (d : Char) : Nat := d.toNat - '0'.toNat

/-- The number that digits denote in base 10. -/
def digitsValue (ds : List Char) : Nat := ds.foldl (fun n d => 10 * n + digitValue d) 0

/-- The digits of a number in base 16, in lower case and without leading zeros. -/
def hexDigits (n : Nat) : List Char :=
  if n < 16 then [n.digitChar] else hexDigits (n / 16) ++ [(n % 16).digitChar]

/-- The digits of a number in base 10 are digits. -/
theorem isDigit_of_mem_decimal {n : Nat} {c : Char} (h : c ∈ (decimal n).toList) :
    c.isDigit := by
  rw [decimal, String.toList_ofList] at h
  exact Nat.isDigit_of_mem_toDigits (by decide) (by decide) h

/-- The digits of a number in base 16 are no line feeds. -/
theorem not_mem_hexDigits_lf (n : Nat) : '\n' ∉ hexDigits n := by
  fun_induction hexDigits n with
  | case1 n h => simp
  | case2 n h ih => simp [ih]

end BundleAudit.Text
