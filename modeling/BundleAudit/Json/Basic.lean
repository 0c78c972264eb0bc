import BundleAudit.Decimal.Binary64

/-!
# JSON values

Settings are read from a JSON document and several answers are written as one.  An object keeps its
members in the order written, repeated keys included; whoever reads a member takes the last one of
its key.

## Main definitions

* `Json.Number` — a number: a natural number, a negative integer, or a binary floating-point number.
* `Json` — a value.
* `Json.member? key` — the last member with a key.
-/

namespace BundleAudit

namespace Json

/-- A number as a document gives it. -/
inductive Number where
  /-- A natural number below `2 ^ 64`. -/
  | natural (n : Nat)
  /-- The integer `-n`, where `n` is positive and at most `2 ^ 63`. -/
  | negative (n : Nat)
  /-- A number with a fraction or an exponent, a negative zero, or an integer out of range. -/
  | float (isNegative : Bool) (magnitude : Binary64)
deriving DecidableEq, Repr

end Json

/-- A JSON value. -/
inductive Json where
  /-- The value `null`. -/
  | null
  /-- The values `true` and `false`. -/
  | bool (b : Bool)
  /-- A number. -/
  | number (n : Json.Number)
  /-- A string. -/
  | string (s : String)
  /-- An array. -/
  | array (items : List Json)
  /-- An object, its members in the order written. -/
  | object (members : List (String × Json))
deriving Repr

namespace Json

/-- A natural number as a value. -/
def ofNat (n : Nat) : Json := .number (.natural n)

/-- The string that a value is. -/
def string? : Json → Option String
  | .string s => some s
  | _ => none

/-- The items of an array. -/
def items? : Json → Option (List Json)
  | .array items => some items
  | _ => none

/-- The members of an object. -/
def members? : Json → Option (List (String × Json))
  | .object members => some members
  | _ => none

/-- The last of the members with a key. -/
def lastMember? (key : String) (members : List (String × Json)) : Option Json :=
  (members.reverse.find? fun m => m.1 == key).map Prod.snd

/-- The value of a key in an object.  Of a repeated key the last value counts. -/
def member? (key : String) (value : Json) : Option Json :=
  value.members?.bind (lastMember? key)

end Json

end BundleAudit
