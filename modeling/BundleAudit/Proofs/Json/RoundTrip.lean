import BundleAudit.Json.Writer
import BundleAudit.Proofs.Json.Grammar

/-!
# Reading what has been written

A value that is spread over lines is read back as it was, whatever its strings hold.  Writing lays
the tokens of the value out with white space between them, so what is written is a document of the
value.

Numbers are left out.  They have a written form of their own, and settings hold none.

## Main definitions

* `Json.Textual n v` — `v` has no numbers in it and is nested at most `n` deep.

## Main results

* `charText_escapedChar` — an escaped character is written in one of its ways.
* `Textual.layout_spread` — a value over lines is a layout of its tokens.
* `readBytes?_spreadLines` — **a document is read as what was written**.
-/

namespace BundleAudit.Json

/-! ### Escapes -/

theorem hexValue?_digitChar {n : Nat} (h : n < 16) : hexValue? n.digitChar = some n := by
  revert n
  decide

theorem hexUnit?_control {n : Nat} (h : n < 32) :
    hexUnit? '0' '0' (n / 16).digitChar (n % 16).digitChar = some n := by
  have hhigh : hexValue? (n / 16).digitChar = some (n / 16) := hexValue?_digitChar (by omega)
  have hlow : hexValue? (n % 16).digitChar = some (n % 16) := hexValue?_digitChar (by omega)
  have hzero : hexValue? '0' = some 0 := rfl
  simp only [hexUnit?, hzero, hhigh, hlow, Option.bind_eq_bind, Option.bind_some, Option.pure_def,
    Option.some.injEq]
  omega

/-- The three ways in which a character is written: by a letter after a backslash, by its number, or
as it is. -/
theorem escapedChar_cases (c : Char) :
    (∃ letter, escapedChar c = ['\\', letter] ∧ unescapedChar? letter = some c) ∨
      (c < ' ' ∧ escapedChar c =
        ['\\', 'u', '0', '0', (c.toNat / 16).digitChar, (c.toNat % 16).digitChar]) ∨
      (c ≠ '"' ∧ c ≠ '\\' ∧ ¬ c < ' ' ∧ escapedChar c = [c]) := by
  by_cases hquote : c = '"'
  · exact Or.inl ⟨'"', by rw [hquote]; rfl, by rw [hquote]; rfl⟩
  by_cases hback : c = '\\'
  · exact Or.inl ⟨'\\', by rw [hback]; rfl, by rw [hback]; rfl⟩
  rw [escapedChar, if_neg hquote, if_neg hback]
  -- the five controls that have a letter
  iterate 5
    split
    · next hc => exact Or.inl ⟨_, rfl, by rw [hc]; rfl⟩
  split
  · next hc => exact Or.inr (Or.inl ⟨hc, rfl⟩)
  · next hc => exact Or.inr (Or.inr ⟨hquote, hback, hc, rfl⟩)

/-- An escaped character is written in one of its ways. -/
theorem charText_escapedChar (c : Char) : CharText c (escapedChar c) := by
  rcases escapedChar_cases c with ⟨letter, hesc, hc⟩ | ⟨hc, hesc⟩ | ⟨hquote, hback, hc, hesc⟩
  · rw [hesc]
    exact .letter hc
  · have hlt : c.toNat < 32 := hc
    have hhex := CharText.hex (hexUnit?_control hlt)
      (by simp only [isLeading, Bool.and_eq_true, decide_eq_true_eq]; omega)
      (by simp only [isTrailing, Bool.and_eq_true, decide_eq_true_eq]; omega)
    rw [Char.ofNat_toNat] at hhex
    rw [hesc]
    exact hhex
  · rw [hesc]
    exact .plain hquote hback hc

theorem written_flatMap_escapedChar (text : List Char) :
    Written CharText text (text.flatMap escapedChar) := by
  induction text with
  | nil => exact .nil
  | cons c text ih => exact .cons (charText_escapedChar c) ih

/-! ### Values -/

/-- A value without numbers in it, nested at most `n` deep. -/
inductive Textual : Nat → Json → Prop where
  | null (n : Nat) : Textual n .null
  | bool (n : Nat) (b : Bool) : Textual n (.bool b)
  | string (n : Nat) (s : String) : Textual n (.string s)
  | array {n : Nat} {items : List Json} (h : ∀ v ∈ items, Textual n v) :
    Textual (n + 1) (.array items)
  | object {n : Nat} {members : List (String × Json)} (h : ∀ m ∈ members, Textual n m.2) :
    Textual (n + 1) (.object members)

theorem Textual.nested {n : Nat} {v : Json} (h : Textual n v) : Nested n v := by
  induction h with
  | null n => exact .null n
  | bool n b => exact .bool n b
  | string n s => exact .string n s
  | array _ ih => exact .array ih
  | object _ ih => exact .object ih

namespace Layout

theorem newLine (indent : Nat) : Layout [] (newLine indent) := by
  have hspaces : ∀ n, Layout [] (List.replicate n ' ') := by
    intro n
    induction n with
    | zero => exact .nil
    | succ n ih => exact .space rfl ih
  exact .space rfl (hspaces _)

theorem string (s : String) : Layout [.string s] (escaped s.toList) := by
  have htext := TokenText.string (written_flatMap_escapedChar s.toList)
  rw [String.ofList_toList] at htext
  exact htext.layout

/-- A key with the colon and the space after it. -/
theorem key (k : String) : Layout [.string k, .colon] (escaped k.toList ++ [':', ' ']) :=
  (string k).append (.token .colon (.space rfl .nil))

/-- The items after the first one stand on lines of their own, with a comma before each. -/
theorem spreadItems {items : List Json} {indent : Nat}
    (h : ∀ v ∈ items, Layout (tokens v) (spread (indent + 1) v)) :
    Layout (itemTokens items) (spreadItems indent items) := by
  induction items with
  | nil => exact (newLine indent).append TokenText.closeBracket.layout
  | cons v vs ih =>
    obtain ⟨hv, hvs⟩ := List.forall_mem_cons.1 h
    simpa [Json.spreadItems, itemTokens] using
      TokenText.comma.layout.append ((newLine (indent + 1)).append (hv.append (ih hvs)))

/-- So do the members after the first one. -/
theorem spreadMembers {members : List (String × Json)} {indent : Nat}
    (h : ∀ m ∈ members, Layout (tokens m.2) (spread (indent + 1) m.2)) :
    Layout (memberTokens members) (spreadMembers indent members) := by
  induction members with
  | nil => exact (newLine indent).append TokenText.closeBrace.layout
  | cons m ms ih =>
    obtain ⟨k, v⟩ := m
    obtain ⟨hv, hms⟩ := List.forall_mem_cons.1 h
    simpa [Json.spreadMembers, memberTokens] using TokenText.comma.layout.append
      ((newLine (indent + 1)).append ((key k).append (hv.append (ih hms))))

end Layout

/-- The text of a value is a layout of its tokens. -/
theorem Textual.layout_spread {n : Nat} {v : Json} (h : Textual n v) (indent : Nat) :
    Layout (tokens v) (spread indent v) := by
  induction h generalizing indent with
  | null => exact TokenText.null.layout
  | bool n b =>
    cases b with
    | false => exact TokenText.false.layout
    | true => exact TokenText.true.layout
  | string n s => exact Layout.string s
  | @array n items h ih =>
    cases items with
    | nil => exact TokenText.openBracket.layout.append TokenText.closeBracket.layout
    | cons v vs =>
      obtain ⟨hv, hvs⟩ := List.forall_mem_cons.1 ih
      have hitems : Layout (itemTokens vs) (spreadItems indent vs) :=
        Layout.spreadItems fun w hw => hvs w hw (indent + 1)
      simpa [spread, tokens] using TokenText.openBracket.layout.append
        ((Layout.newLine (indent + 1)).append ((hv (indent + 1)).append hitems))
  | @object n members h ih =>
    cases members with
    | nil => exact TokenText.openBrace.layout.append TokenText.closeBrace.layout
    | cons m ms =>
      obtain ⟨k, v⟩ := m
      obtain ⟨hv, hms⟩ := List.forall_mem_cons.1 ih
      have hmembers : Layout (memberTokens ms) (spreadMembers indent ms) :=
        Layout.spreadMembers fun m hm => hms m hm (indent + 1)
      simpa [spread, tokens] using TokenText.openBrace.layout.append
        ((Layout.newLine (indent + 1)).append
          ((Layout.key k).append ((hv (indent + 1)).append hmembers)))

/-! ### Documents -/

/-- **A document is read as what was written.**  Its strings may hold any characters. -/
theorem readBytes?_spreadLines {v : Json} (h : Textual maxDepth v) :
    readBytes? v.spreadLines.toUTF8 = some v := by
  refine readBytes?_eq_some_iff.2 ⟨h.nested, v.spreadLines, rfl, ?_⟩
  rw [spreadLines, String.toList_ofList, ← List.append_nil (tokens v)]
  exact (h.layout_spread 0).append (.space rfl .nil)

end BundleAudit.Json
