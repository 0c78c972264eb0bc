/-!
# Occurrences and cuts

The few questions that the audit asks about texts: does one occur in another, do two agree up to the
case of ASCII letters, and what stands before or after a separator.  Prefixes and suffixes are the
ones of `List`, as is the cut at every separator, `List.splitOn`.

## Main definitions

* `occursIn needle cs` — `needle` is a contiguous part of `cs`.
* `cutFirst? sep cs`, `cutLast? sep cs` — what stands on the two sides of the first, or of the last,
  separator.
* `sameName a b` — equality up to the case of ASCII letters.
* `cutWidth? n cs` — the cut after `n` bytes of UTF-8, if that is a border of two characters.

## Main results

* `occursIn_iff` — occurrence is `List.IsInfix`.
* `cutFirst?_eq_some_iff`, `cutLast?_eq_some_iff` — a cut at the first separator has none before it,
  a cut at the last one has none after it.
-/

namespace BundleAudit.Text

/-! ### Occurrence -/

/-- Whether `needle` is a contiguous part of a text.  The empty text occurs everywhere. -/
def occursIn (needle : List Char) : List Char → Bool
  | [] => needle.isEmpty
  | c :: cs => needle.isPrefixOf (c :: cs) || occursIn needle cs

/-- Occurrence is the relation `List.IsInfix`. -/
theorem occursIn_iff {needle cs : List Char} : occursIn needle cs = true ↔ needle <:+: cs := by
  induction cs with
  | nil => simp [occursIn, List.isEmpty_iff]
  | cons c cs ih => rw [occursIn, Bool.or_eq_true, ih, List.isPrefixOf_iff_prefix,
      List.infix_cons_iff]

/-! ### Cuts at one separator -/

/-- What stands before and after the first `sep` of a text, if it has one. -/
def cutFirst? (sep : Char) : List Char → Option (List Char × List Char)
  | [] => none
  | c :: cs =>
    if c = sep then some ([], cs) else (cutFirst? sep cs).map fun p => (c :: p.1, p.2)

/-- What stands before and after the last `sep` of a text, if it has one. -/
def cutLast? (sep : Char) (cs : List Char) : Option (List Char × List Char) :=
  (cutFirst? sep cs.reverse).map fun p => (p.2.reverse, p.1.reverse)

/-- The first cut has no separator before it. -/
theorem cutFirst?_eq_some_iff {sep : Char} {cs a b : List Char} :
    cutFirst? sep cs = some (a, b) ↔ cs = a ++ sep :: b ∧ sep ∉ a := by
  induction cs generalizing a with
  | nil => simp [cutFirst?]
  | cons c cs ih =>
    by_cases h : c = sep
    · subst h
      cases a with
      | nil => simp [cutFirst?, eq_comm]
      | cons d a =>
        suffices h : c = d → cs = a ++ c :: b → ¬c = d → c ∈ a by simpa [cutFirst?]
        exact fun hd _ hne => absurd hd hne
    · cases a with
      | nil => simp [cutFirst?, h]
      | cons d a =>
        simp only [cutFirst?, if_neg h, Option.map_eq_some_iff, Prod.exists, Prod.mk.injEq,
          List.cons.injEq, List.cons_append, List.mem_cons, not_or]
        constructor
        · rintro ⟨a', b', hcut, ⟨rfl, rfl⟩, rfl⟩
          obtain ⟨rfl, hmem⟩ := ih.1 hcut
          exact ⟨⟨rfl, rfl⟩, fun hs => h hs.symm, hmem⟩
        · rintro ⟨⟨rfl, rfl⟩, -, hmem⟩
          exact ⟨a, b, ih.2 ⟨rfl, hmem⟩, ⟨rfl, rfl⟩, rfl⟩

/-- A text can be cut unless it lacks the separator. -/
theorem cutFirst?_eq_none_iff {sep : Char} {cs : List Char} :
    cutFirst? sep cs = none ↔ sep ∉ cs := by
  induction cs with
  | nil => simp [cutFirst?]
  | cons c cs ih =>
    by_cases h : c = sep
    · simp [cutFirst?, h]
    · simp [cutFirst?, h, ih, Ne.symm h]

/-- The last cut has no separator after it. -/
theorem cutLast?_eq_some_iff {sep : Char} {cs a b : List Char} :
    cutLast? sep cs = some (a, b) ↔ cs = a ++ sep :: b ∧ sep ∉ b := by
  simp only [cutLast?, Option.map_eq_some_iff, Prod.exists, Prod.mk.injEq]
  constructor
  · rintro ⟨b', a', hcut, rfl, rfl⟩
    obtain ⟨hcs, hmem⟩ := cutFirst?_eq_some_iff.1 hcut
    refine ⟨?_, by simpa using hmem⟩
    rw [← List.reverse_reverse cs, hcs]
    simp
  · rintro ⟨rfl, hmem⟩
    exact ⟨b.reverse, a.reverse, cutFirst?_eq_some_iff.2 ⟨by simp, by simpa using hmem⟩,
      by simp, by simp⟩

/-- A text can be cut at its last separator unless it has none. -/
theorem cutLast?_eq_none_iff {sep : Char} {cs : List Char} :
    cutLast? sep cs = none ↔ sep ∉ cs := by
  simp [cutLast?, cutFirst?_eq_none_iff]

/-! ### Names up to the case of ASCII letters -/

/-- Two texts agree up to the case of the letters `A` to `Z`.  Other letters have to be equal. -/
def sameName (a b : List Char) : Bool := a.map Char.toLower == b.map Char.toLower

theorem sameName_iff {a b : List Char} :
    sameName a b = true ↔ a.map Char.toLower = b.map Char.toLower := by
  simp [sameName]

/-- A character below the letters is the small form of itself only. -/
theorem toLower_eq_iff_of_lt {c d : Char} (hc : c.val.toNat < 65) : d.toLower = c ↔ d = c := by
  unfold Char.toLower
  split
  · next hd =>
    have hlow : 65 ≤ d.val.toNat := UInt32.le_iff_toNat_le.1 hd.1
    have hhigh : d.val.toNat ≤ 90 := UInt32.le_iff_toNat_le.1 hd.2
    constructor
    · -- a letter becomes a letter
      rintro rfl
      have hval : (d.val + ('a'.val - 'A'.val)).toNat = (d.val.toNat + 32) % 4294967296 :=
        UInt32.toNat_add ..
      dsimp only at hc
      omega
    · rintro rfl
      omega
  · exact Iff.rfl

/-- Names that agree up to case have the same characters below the letters. -/
theorem mem_of_sameName {a b : List Char} (h : sameName a b) {c : Char} (hc : c.val.toNat < 65)
    (hmem : c ∈ a) : c ∈ b := by
  have hlower : c.toLower ∈ b.map Char.toLower := by
    rw [← sameName_iff.1 h]
    exact List.mem_map_of_mem hmem
  obtain ⟨d, hd, heq⟩ := List.mem_map.1 hlower
  rw [(toLower_eq_iff_of_lt hc).2 rfl, toLower_eq_iff_of_lt hc] at heq
  rwa [← heq]

/-! ### Cuts by width -/

/-- The number of bytes that a text takes in UTF-8. -/
def width : List Char → Nat
  | [] => 0
  | c :: cs => c.utf8Size + width cs

/-- The cut of a text after `n` bytes of UTF-8.  There is none if the text is shorter, or if byte
`n` lies inside a character. -/
def cutWidth? (n : Nat) : List Char → Option (List Char × List Char)
  | [] => if n = 0 then some ([], []) else none
  | c :: cs =>
    if n = 0 then some ([], c :: cs)
    else if n < c.utf8Size then none
    else (cutWidth? (n - c.utf8Size) cs).map fun p => (c :: p.1, p.2)

@[simp] theorem width_nil : width [] = 0 := rfl

@[simp] theorem width_cons (c : Char) (cs : List Char) :
    width (c :: cs) = c.utf8Size + width cs := rfl

@[simp] theorem cutWidth?_zero (cs : List Char) : cutWidth? 0 cs = some ([], cs) := by
  cases cs <;> simp [cutWidth?]

/-- The two sides of a cut make up the text, and the first has the width asked for. -/
theorem cutWidth?_eq_some_iff {n : Nat} {cs a b : List Char} :
    cutWidth? n cs = some (a, b) ↔ cs = a ++ b ∧ width a = n := by
  induction cs generalizing n a with
  | nil => cases a <;> by_cases h : n = 0 <;> simp [cutWidth?, h, eq_comm]
  | cons c cs ih =>
    have hc := c.utf8Size_pos
    by_cases h : n = 0
    · subst h
      cases a with
      | nil => simp [cutWidth?, eq_comm]
      | cons d a =>
        have hd := d.utf8Size_pos
        simp [cutWidth?]
        omega
    · by_cases hlt : n < c.utf8Size
      · cases a with
        | nil => simp [cutWidth?, h, hlt]; omega
        | cons d a =>
          simp only [cutWidth?, if_neg h, if_pos hlt, List.cons_append, List.cons.injEq,
            width_cons, reduceCtorEq, false_iff, not_and, and_imp]
          rintro rfl -
          omega
      · cases a with
        | nil => simp [cutWidth?, h, hlt]; omega
        | cons d a =>
          simp only [cutWidth?, if_neg h, if_neg hlt, Option.map_eq_some_iff, Prod.exists,
            Prod.mk.injEq, List.cons.injEq, List.cons_append, width_cons]
          constructor
          · rintro ⟨a', b', hcut, ⟨rfl, rfl⟩, rfl⟩
            obtain ⟨rfl, hw⟩ := ih.1 hcut
            exact ⟨⟨rfl, rfl⟩, by omega⟩
          · rintro ⟨⟨rfl, rfl⟩, hw⟩
            exact ⟨a, b, ih.2 ⟨rfl, by omega⟩, ⟨rfl, rfl⟩, rfl⟩

/-- Changing the case of an ASCII letter keeps its width. -/
theorem utf8Size_toLower (c : Char) : c.toLower.utf8Size = c.utf8Size := by
  have hone : ∀ d : Char, d.val ≤ 0x7f → d.utf8Size = 1 := fun d h =>
    Char.utf8Size_eq_one_iff.2 h
  unfold Char.toLower
  split
  · next h =>
    have hle : c.val.toNat ≤ 90 := UInt32.le_iff_toNat_le.1 h.2
    rw [hone c (UInt32.le_iff_toNat_le.2 (Nat.le_trans hle (by decide))), hone]
    refine UInt32.le_iff_toNat_le.2 ?_
    show (c.val + 32).toNat ≤ 127
    rw [UInt32.toNat_add]
    exact Nat.le_trans (Nat.mod_le _ _) (Nat.le_trans (Nat.add_le_add_right hle 32) (by decide))
  · rfl

/-- Texts that agree up to the case of ASCII letters take the same width. -/
theorem width_eq_of_sameName {a b : List Char} (h : sameName a b) : width a = width b := by
  have hmap : ∀ cs : List Char, width (cs.map Char.toLower) = width cs := fun cs => by
    induction cs with
    | nil => rfl
    | cons c cs ih => simp [utf8Size_toLower, ih]
  rw [← hmap a, sameName_iff.1 h, hmap b]

end BundleAudit.Text
