import BundleAudit.Json.Basic
import BundleAudit.Json.Escape
import BundleAudit.Decimal.Shortest

/-!
# Writing JSON

A value is written on one line without any space, or spread over lines, one item or member on each,
with two spaces of indentation per level.  An empty array or object stays on its line.

## Main definitions

* `Json.compact v` — the value on one line.
* `Json.spread indent v` — the value over lines that start `2 * indent` columns to the right.
-/

namespace BundleAudit.Json

/-- Numbers below `10 ^ -5` and from `10 ^ 16` on are written with an exponent. -/
def numberStyle : Binary64.DecimalStyle := ⟨-5, 15⟩

/-- The text of a number. -/
def Number.text : Number → List Char
  | .natural n => Nat.toDigits 10 n
  | .negative n => '-' :: Nat.toDigits 10 n
  | .float true x => '-' :: x.text numberStyle
  | .float false x => x.text numberStyle

/-- The text of a value that is no array and no object. -/
def scalarText : Json → List Char
  | .null => ['n', 'u', 'l', 'l']
  | .bool true => ['t', 'r', 'u', 'e']
  | .bool false => ['f', 'a', 'l', 's', 'e']
  | .number n => n.text
  | .string s => escaped s.toList
  | .array _ | .object _ => []

/-! ### On one line -/

mutual

/-- A value on one line. -/
def compact : Json → List Char
  | .array [] => ['[', ']']
  | .array (v :: vs) => '[' :: (compact v ++ compactItems vs)
  | .object [] => ['{', '}']
  | .object ((k, v) :: ms) => '{' :: (escaped k.toList ++ ':' :: (compact v ++ compactMembers ms))
  | .null => scalarText .null
  | .bool b => scalarText (.bool b)
  | .number n => scalarText (.number n)
  | .string s => scalarText (.string s)

/-- The items after the first one and the end of the array. -/
def compactItems : List Json → List Char
  | [] => [']']
  | v :: vs => ',' :: (compact v ++ compactItems vs)

/-- The members after the first one and the end of the object. -/
def compactMembers : List (String × Json) → List Char
  | [] => ['}']
  | (k, v) :: ms => ',' :: (escaped k.toList ++ ':' :: (compact v ++ compactMembers ms))

end

/-! ### Over several lines -/

/-- The end of a line and the indentation of the next. -/
def newLine (indent : Nat) : List Char := '\n' :: List.replicate (2 * indent) ' '

mutual

/-- A value over several lines, inside a line that is indented by `indent` levels. -/
def spread (indent : Nat) : Json → List Char
  | .array [] => ['[', ']']
  | .array (v :: vs) =>
    '[' :: (newLine (indent + 1) ++ spread (indent + 1) v ++ spreadItems indent vs)
  | .object [] => ['{', '}']
  | .object ((k, v) :: ms) =>
    '{' :: (newLine (indent + 1) ++ escaped k.toList ++ ':' :: ' ' ::
      (spread (indent + 1) v ++ spreadMembers indent ms))
  | .null => scalarText .null
  | .bool b => scalarText (.bool b)
  | .number n => scalarText (.number n)
  | .string s => scalarText (.string s)

/-- The items after the first one and the end of the array. -/
def spreadItems (indent : Nat) : List Json → List Char
  | [] => newLine indent ++ [']']
  | v :: vs =>
    ',' :: (newLine (indent + 1) ++ spread (indent + 1) v ++ spreadItems indent vs)

/-- The members after the first one and the end of the object. -/
def spreadMembers (indent : Nat) : List (String × Json) → List Char
  | [] => newLine indent ++ ['}']
  | (k, v) :: ms =>
    ',' :: (newLine (indent + 1) ++ escaped k.toList ++ ':' :: ' ' ::
      (spread (indent + 1) v ++ spreadMembers indent ms))

end

/-- A value as a line of its own. -/
def compactLine (v : Json) : String := String.ofList (compact v ++ ['\n'])

/-- A value over lines of its own. -/
def spreadLines (v : Json) : String := String.ofList (spread 0 v ++ ['\n'])

end BundleAudit.Json
