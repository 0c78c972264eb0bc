import BundleAudit.Text.Lines
import Mathlib.Data.List.Forall2
import Mathlib.Order.Bounds.Defs

/-!
# Byte offsets

A text lies in memory as bytes, and a slice of it is cut at offsets counted in bytes.  A slice fails
if it would start or end inside a character.  The search for a header cuts every line at the length
of the name: it asks for the part before that offset, and takes the part behind it without asking.
Here the search stands as it goes over bytes, with the failure of a slice as an outcome, and it is
shown that it does not fail and finds what the search over characters finds.

## Main definitions

* `encoded cs` — the bytes of a text in UTF-8.
* `isBorder bytes n` — no character reaches over the offset `n`.
* `sliceTo? n bytes`, `sliceFrom? n bytes` — the slices that end, or start, at an offset.
* `opensHeaderAt? name line`, `locateHeaderAt? name lines` — the search over bytes.
* `ShowsHeader name line` — the line starts with the characters of a name and a colon.

## Main results

* `isBorder_encoded_iff` — borders are where the code of a prefix ends.
* `sameBytes_encoded` — bytes agree up to the case of ASCII letters if the characters do.
* `locateHeaderAt?_encoded` — the search over bytes does not fail, and it finds the same line.
* `locateHeader?_least` — **the line found is the first one that shows the header**.
-/

namespace BundleAudit.Text

/-! ### Bytes -/

/-- The bytes of a text in UTF-8. -/
def encoded (cs : List Char) : List UInt8 := cs.flatMap String.utf8EncodeChar

/-- A byte that is not the first one of a character. -/
def continuesChar (b : UInt8) : Bool := 128 ≤ b.toNat && b.toNat < 192

/-- No character reaches over an offset: the bytes end there, or a character starts. -/
def isBorder (bytes : List UInt8) (n : Nat) : Bool :=
  n ≤ bytes.length && !(bytes.drop n).head?.any continuesChar

/-- The slice that ends at an offset. -/
def sliceTo? (n : Nat) (bytes : List UInt8) : Option (List UInt8) :=
  if isBorder bytes n then some (bytes.take n) else none

/-- The slice that starts at an offset. -/
def sliceFrom? (n : Nat) (bytes : List UInt8) : Option (List UInt8) :=
  if isBorder bytes n then some (bytes.drop n) else none

/-- The small letter of a byte that is a capital one. -/
def lowerByte (b : UInt8) : UInt8 := if 65 ≤ b.toNat ∧ b.toNat ≤ 90 then b + 32 else b

/-- Two texts agree byte by byte up to the case of the letters `A` to `Z`. -/
def sameBytes (a b : List UInt8) : Bool := a.map lowerByte == b.map lowerByte

/-! ### The search over bytes -/

/-- Whether a line opens the header `name`.  A line without a slice of the length of the name does
not.  The slice behind it is taken without asking, and there is no answer if it fails. -/
def opensHeaderAt? (name line : List UInt8) : Option Bool :=
  match sliceTo? name.length line with
  | none => some false
  | some head =>
    if sameBytes head name then
      (sliceFrom? name.length line).map fun rest => rest.head? == some 58
    else some false

/-- The index of the first line that opens the header `name`, unless a slice fails on the way. -/
def findHeaderAt? (name : List UInt8) : List (List UInt8) → Option (Option Nat)
  | [] => some none
  | line :: lines =>
    (opensHeaderAt? name line).bind fun opens =>
      if opens then some (some 0) else (findHeaderAt? name lines).map (Option.map (· + 1))

/-- The number of the first line that opens the header `name`, unless a slice fails on the way. -/
def locateHeaderAt? (name : List UInt8) (lines : List (List UInt8)) : Option (Option Nat) :=
  (findHeaderAt? name lines).map fun found => found.bind lineNumber?

/-! ### The code of a character -/

/-- A character below 128 is its own code. -/
theorem code_of_le {c : Char} (h : c.val.toNat ≤ 127) :
    String.utf8EncodeChar c = [UInt8.ofNat c.val.toNat] := by
  rw [String.utf8EncodeChar]
  exact if_pos h

/-- Any other code starts with a byte from 192 on, and all bytes after it continue the character. -/
theorem exists_code_of_lt {c : Char} (h : 127 < c.val.toNat) :
    ∃ b bs, String.utf8EncodeChar c = b :: bs ∧ 192 ≤ b.toNat ∧
      ∀ x ∈ bs, 128 ≤ x.toNat ∧ x.toNat < 192 := by
  have hlead : ∀ k m, 192 ≤ k → m + k < 256 → 192 ≤ (UInt8.ofNat (m + k)).toNat := by
    intro k m hk hlt
    rw [UInt8.toNat_ofNat', Nat.mod_eq_of_lt hlt]
    omega
  have htail : ∀ m, 128 ≤ (UInt8.ofNat (m % 64 + 128)).toNat ∧
      (UInt8.ofNat (m % 64 + 128)).toNat < 192 := by
    intro m
    rw [UInt8.toNat_ofNat', Nat.mod_eq_of_lt (by omega)]
    omega
  rw [String.utf8EncodeChar]
  generalize c.val.toNat = v at h
  rw [if_neg (Nat.not_le_of_lt h)]
  by_cases h₂ : v ≤ 2047
  · rw [if_pos h₂]
    exact ⟨_, _, rfl, hlead 192 _ (by omega) (by omega), by simpa using htail v⟩
  rw [if_neg h₂]
  by_cases h₃ : v ≤ 65535
  · rw [if_pos h₃]
    exact ⟨_, _, rfl, hlead 224 _ (by omega) (by omega), by simpa using ⟨htail _, htail v⟩⟩
  · rw [if_neg h₃]
    exact ⟨_, _, rfl, hlead 240 _ (by omega) (by omega),
      by simpa using ⟨htail _, htail _, htail v⟩⟩

/-- The first byte of a code is the only one that does not continue the character. -/
theorem exists_code (c : Char) : ∃ b bs, String.utf8EncodeChar c = b :: bs ∧
    continuesChar b = false ∧ ∀ x ∈ bs, continuesChar x = true := by
  rcases Nat.lt_or_ge 127 c.val.toNat with h | h
  · obtain ⟨b, bs, hcode, hb, hbs⟩ := exists_code_of_lt h
    refine ⟨b, bs, hcode, ?_, fun x hx => ?_⟩
    · simp only [continuesChar, Bool.and_eq_false_iff, decide_eq_false_iff_not]
      omega
    · simpa [continuesChar] using hbs x hx
  · refine ⟨_, [], code_of_le h, ?_, by simp⟩
    rw [continuesChar, UInt8.toNat_ofNat', Nat.mod_eq_of_lt (by omega)]
    simp only [Bool.and_eq_false_iff, decide_eq_false_iff_not]
    omega

/-- The code of a small letter is the small form of the code. -/
theorem map_lowerByte_code (c : Char) :
    (String.utf8EncodeChar c).map lowerByte = String.utf8EncodeChar c.toLower := by
  rcases Nat.lt_or_ge 127 c.val.toNat with h | h
  · obtain ⟨b, bs, hcode, hb, hbs⟩ := exists_code_of_lt h
    have hlower : c.toLower = c := by
      unfold Char.toLower
      rw [dif_neg]
      rintro ⟨-, hle⟩
      have hle : c.val.toNat ≤ 90 := UInt32.le_iff_toNat_le.1 hle
      omega
    rw [hlower, hcode]
    refine (List.map_congr_left fun x hx => ?_).trans (List.map_id _)
    have hx : 128 ≤ x.toNat := by
      rcases List.mem_cons.1 hx with rfl | hx
      · omega
      · exact (hbs x hx).1
    exact if_neg (by omega)
  · have htable : ∀ n < 128, String.utf8EncodeChar (Char.ofNat n).toLower =
        [lowerByte (UInt8.ofNat n)] := by decide +kernel
    have hchar := htable c.val.toNat (by omega)
    rw [show Char.ofNat c.val.toNat = c from Char.ofNat_toNat c] at hchar
    rw [code_of_le h, hchar]
    rfl

/-- A code starts with the byte of a colon only if it is the code of a colon. -/
theorem head?_code_eq_colon {c : Char} {bytes : List UInt8} :
    (String.utf8EncodeChar c ++ bytes).head? = some 58 ↔ c = ':' := by
  constructor
  · intro hhead
    rcases Nat.lt_or_ge 127 c.val.toNat with h | h
    · obtain ⟨b, bs, hcode, hb, -⟩ := exists_code_of_lt h
      rw [hcode, List.cons_append, List.head?_cons, Option.some.injEq] at hhead
      rw [hhead] at hb
      exact absurd hb (by decide)
    · rw [code_of_le h, List.singleton_append, List.head?_cons, Option.some.injEq] at hhead
      have hval := congrArg UInt8.toNat hhead
      rw [UInt8.toNat_ofNat', Nat.mod_eq_of_lt (by omega)] at hval
      exact Char.toNat_inj.1 hval
  · rintro rfl
    rfl

/-! ### The code of a text -/

section

variable {a b cs : List Char} {name line : List Char} {n : Nat}

@[simp] theorem encoded_nil : encoded [] = [] := rfl

@[simp] theorem encoded_cons (c : Char) (cs : List Char) :
    encoded (c :: cs) = String.utf8EncodeChar c ++ encoded cs := rfl

@[simp] theorem encoded_append (a b : List Char) : encoded (a ++ b) = encoded a ++ encoded b :=
  List.flatMap_append

theorem length_encoded (cs : List Char) : (encoded cs).length = width cs := by
  induction cs with
  | nil => rfl
  | cons c cs ih =>
    rw [encoded_cons, List.length_append, ih, String.length_utf8EncodeChar, width_cons]

/-- Texts are told apart by their bytes. -/
theorem encoded_injective (h : encoded a = encoded b) : a = b := by
  have hbytes : (String.ofList a).toByteArray = (String.ofList b).toByteArray := by
    rw [String.toByteArray_ofList, String.toByteArray_ofList]
    exact congrArg List.toByteArray h
  exact String.ofList_injective (String.toByteArray_inj.1 hbytes)

theorem map_lowerByte_encoded (cs : List Char) :
    (encoded cs).map lowerByte = encoded (cs.map Char.toLower) := by
  induction cs with
  | nil => rfl
  | cons c cs ih =>
    rw [encoded_cons, List.map_append, map_lowerByte_code, ih, List.map_cons, encoded_cons]

/-- **Bytes agree up to the case of ASCII letters if the characters do.** -/
theorem sameBytes_encoded : sameBytes (encoded a) (encoded b) = sameName a b := by
  rw [sameBytes, sameName, map_lowerByte_encoded, map_lowerByte_encoded, Bool.eq_iff_iff,
    beq_iff_eq, beq_iff_eq]
  exact ⟨encoded_injective, congrArg encoded⟩

/-! ### Borders -/

/-- Inside a code there is no border. -/
theorem isBorder_code_append {c : Char} {bytes : List UInt8} (hpos : 0 < n)
    (hlt : n < c.utf8Size) : isBorder (String.utf8EncodeChar c ++ bytes) n = false := by
  obtain ⟨b, bs, hcode, -, hbs⟩ := exists_code c
  have hlength : (b :: bs).length = c.utf8Size := by
    rw [← hcode, String.length_utf8EncodeChar]
  obtain ⟨k, rfl⟩ := Nat.exists_eq_succ_of_ne_zero (Nat.ne_of_gt hpos)
  have hk : k < bs.length := by
    rw [List.length_cons] at hlength
    omega
  have hbyte : ((b :: (bs ++ bytes)).drop (k + 1)).head? = some bs[k] := by
    rw [List.drop_succ_cons, List.head?_drop, List.getElem?_append_left hk,
      List.getElem?_eq_getElem hk]
  rw [hcode, isBorder, List.cons_append, hbyte, Option.any_some, hbs _ (List.getElem_mem hk),
    Bool.not_true, Bool.and_false]

/-- Behind a code there are the borders of what follows. -/
theorem isBorder_append (xs bytes : List UInt8) :
    isBorder (xs ++ bytes) (xs.length + n) = isBorder bytes n := by
  rw [isBorder, isBorder, List.drop_append, List.length_append]
  simp

theorem isBorder_zero_encoded (cs : List Char) : isBorder (encoded cs) 0 = true := by
  cases cs with
  | nil => rfl
  | cons c cs =>
    obtain ⟨b, bs, hcode, hb, -⟩ := exists_code c
    rw [isBorder, encoded_cons, hcode, List.drop_zero, List.cons_append, List.head?_cons,
      Option.any_some, hb]
    simp

/-- **Borders are where the code of a prefix ends.** -/
theorem isBorder_encoded_iff :
    isBorder (encoded cs) n = true ↔ ∃ a b, cs = a ++ b ∧ (encoded a).length = n := by
  constructor
  · intro h
    induction cs generalizing n with
    | nil =>
      have hn : n = 0 := by simpa [isBorder] using h
      exact ⟨[], [], rfl, hn.symm⟩
    | cons c cs ih =>
      rcases Nat.eq_zero_or_pos n with rfl | hpos
      · exact ⟨[], c :: cs, rfl, rfl⟩
      rcases Nat.lt_or_ge n c.utf8Size with hlt | hle
      · rw [encoded_cons, isBorder_code_append hpos hlt] at h
        cases h
      · have hn : n = (String.utf8EncodeChar c).length + (n - c.utf8Size) := by
          rw [String.length_utf8EncodeChar]
          omega
        rw [encoded_cons, hn, isBorder_append] at h
        obtain ⟨a, b, rfl, ha⟩ := ih h
        refine ⟨c :: a, b, rfl, ?_⟩
        rw [encoded_cons, List.length_append, ha, ← hn]
  · rintro ⟨a, b, rfl, rfl⟩
    have hborder := isBorder_append (n := 0) (encoded a) (encoded b)
    rwa [Nat.add_zero, isBorder_zero_encoded, ← encoded_append] at hborder

/-- The slices at an offset are the codes of the two sides of the cut there. -/
theorem slices_encoded (n : Nat) (cs : List Char) :
    sliceTo? n (encoded cs) = (cutWidth? n cs).map (fun p => encoded p.1) ∧
      sliceFrom? n (encoded cs) = (cutWidth? n cs).map fun p => encoded p.2 := by
  cases hcut : cutWidth? n cs with
  | some p =>
    obtain ⟨rfl, hwidth⟩ := cutWidth?_eq_some_iff.1 hcut
    rw [← length_encoded] at hwidth
    have hborder : isBorder (encoded (p.1 ++ p.2)) n = true :=
      isBorder_encoded_iff.2 ⟨p.1, p.2, rfl, hwidth⟩
    rw [sliceTo?, sliceFrom?, if_pos hborder, if_pos hborder, encoded_append, ← hwidth,
      List.take_left, List.drop_left]
    exact ⟨rfl, rfl⟩
  | none =>
    have hborder : ¬ isBorder (encoded cs) n = true := by
      rw [isBorder_encoded_iff]
      rintro ⟨a, b, rfl, hwidth⟩
      rw [length_encoded] at hwidth
      rw [cutWidth?_eq_some_iff.2 ⟨rfl, hwidth⟩] at hcut
      cases hcut
    rw [sliceTo?, sliceFrom?, if_neg hborder, if_neg hborder]
    exact ⟨rfl, rfl⟩

/-! ### The two searches -/

theorem head?_encoded_eq_colon : (encoded cs).head? = some 58 ↔ cs.head? = some ':' := by
  cases cs with
  | nil => simp
  | cons c cs => rw [encoded_cons, head?_code_eq_colon, List.head?_cons, Option.some.injEq]

/-- The slice that is taken without asking is one side of the cut that was asked for. -/
theorem opensHeaderAt?_encoded (name line : List Char) :
    opensHeaderAt? (encoded name) (encoded line) = some (opensHeader name line) := by
  obtain ⟨hto, hfrom⟩ := slices_encoded (width name) line
  rw [opensHeaderAt?, length_encoded, hto, hfrom, opensHeader]
  cases cutWidth? (width name) line with
  | none => rfl
  | some p =>
    obtain ⟨head, rest⟩ := p
    dsimp only [Option.map_some]
    rw [sameBytes_encoded, Bool.beq_eq_decide_eq, decide_eq_decide.2 head?_encoded_eq_colon]
    cases rest with
    | nil => cases sameName head name <;> rfl
    | cons c rest =>
      by_cases hc : c = ':'
      · subst hc
        cases hsame : sameName head name <;> simp [hsame]
      · simp [hc]

/-- The search over bytes goes on exactly as long as the one over characters. -/
theorem findHeaderAt?_encoded (name : List Char) (lines : List (List Char)) :
    findHeaderAt? (encoded name) (lines.map encoded) =
      some (lines.findIdx? (opensHeader name)) := by
  induction lines with
  | nil => rfl
  | cons line lines ih =>
    rw [List.map_cons, findHeaderAt?, opensHeaderAt?_encoded, Option.bind_some, ih,
      List.findIdx?_cons]
    cases opensHeader name line <;> rfl

/-- **The search over bytes does not fail, and it finds what the one over characters finds.** -/
theorem locateHeaderAt?_encoded (name : List Char) (lines : List (List Char)) :
    locateHeaderAt? (encoded name) (lines.map encoded) = some (locateHeader? name lines) := by
  rw [locateHeaderAt?, findHeaderAt?_encoded, Option.map_some, locateHeader?]

/-! ### The line found -/

/-- A line that starts with the characters of a name, up to the case of ASCII letters, and a
colon. -/
def ShowsHeader (name line : List Char) : Prop :=
  ∃ head rest, line = head ++ ':' :: rest ∧
    List.Forall₂ (fun c d => c.toLower = d.toLower) head name

theorem opensHeader_iff_showsHeader : opensHeader name line = true ↔ ShowsHeader name line := by
  rw [opensHeader_iff, ShowsHeader]
  refine exists_congr fun head => exists_congr fun rest => and_congr_right fun _ => ?_
  rw [sameName_iff, ← List.forall₂_eq_eq_eq, List.forall₂_map_left_iff,
    List.forall₂_map_right_iff]

/-- The search stops at the first line that shows the header. -/
theorem locateHeader?_eq_some_iff {lines : List (List Char)}
    (h : lines.length < UInt32.size) :
    locateHeader? name lines = some n ↔ 1 ≤ n ∧
      (∃ line, lines[n - 1]? = some line ∧ ShowsHeader name line) ∧
      ∀ i < n - 1, ∀ line, lines[i]? = some line → ¬ ShowsHeader name line := by
  have hnumber : ∀ i < lines.length, lineNumber? i = some (i + 1) := fun i hi =>
    if_pos (by omega)
  rw [locateHeader?, Option.bind_eq_some_iff]
  simp only [List.findIdx?_eq_some_iff_getElem, ← opensHeader_iff_showsHeader]
  constructor
  · rintro ⟨i, ⟨hi, hopens, hbefore⟩, hn⟩
    rw [hnumber i hi, Option.some.injEq] at hn
    subst hn
    refine ⟨Nat.succ_pos i, ⟨lines[i], List.getElem?_eq_getElem hi, hopens⟩, ?_⟩
    intro j hj line hline
    obtain ⟨hj', rfl⟩ := List.getElem?_eq_some_iff.1 hline
    exact hbefore j hj
  · rintro ⟨hn, ⟨line, hline, hopens⟩, hbefore⟩
    obtain ⟨hi, rfl⟩ := List.getElem?_eq_some_iff.1 hline
    refine ⟨n - 1, ⟨hi, hopens, fun j hj => ?_⟩, ?_⟩
    · exact hbefore j hj _ (List.getElem?_eq_getElem _)
    · rw [hnumber _ hi, Nat.sub_add_cancel hn]

theorem locateHeader?_eq_none_iff {lines : List (List Char)}
    (h : lines.length < UInt32.size) :
    locateHeader? name lines = none ↔ ∀ line ∈ lines, ¬ ShowsHeader name line := by
  simp only [← opensHeader_iff_showsHeader, Bool.not_eq_true]
  rw [← List.findIdx?_eq_none_iff, locateHeader?]
  cases hfind : lines.findIdx? (opensHeader name) with
  | none => simp
  | some i =>
    obtain ⟨hi, -⟩ := List.findIdx?_eq_some_iff_getElem.1 hfind
    rw [Option.bind_some, lineNumber?, if_pos (by omega)]
    simp

/-- **The line found is the first one that shows the header**, whatever characters the name and the
lines are made of; there is none only if no line shows it.  The search over bytes comes to the same
answer, and no slice that it takes reaches beyond a line or into a character. -/
theorem locateHeader?_least (name : List Char) {lines : List (List Char)}
    (h : lines.length < UInt32.size) :
    locateHeaderAt? (encoded name) (lines.map encoded) = some (locateHeader? name lines) ∧
    (∀ n, locateHeader? name lines = some n ↔
      IsLeast {n | 1 ≤ n ∧ ∃ line, lines[n - 1]? = some line ∧ ShowsHeader name line} n) ∧
    (locateHeader? name lines = none ↔ ∀ line ∈ lines, ¬ ShowsHeader name line) := by
  refine ⟨locateHeaderAt?_encoded name lines, fun n => ?_, locateHeader?_eq_none_iff h⟩
  rw [locateHeader?_eq_some_iff h]
  constructor
  · rintro ⟨hn, hline, hbefore⟩
    refine ⟨⟨hn, hline⟩, ?_⟩
    rintro m ⟨hm, line, hline, hshows⟩
    by_contra hlt
    exact hbefore (m - 1) (by omega) line hline hshows
  · rintro ⟨⟨hn, hline⟩, hleast⟩
    refine ⟨hn, hline, fun i hi line hline hshows => ?_⟩
    have hle : n ≤ i + 1 := hleast ⟨Nat.succ_pos i, line, hline, hshows⟩
    omega

/-- The length of the name lies inside a character of the first line and behind the end of the
second one, and the third line has another letter that is small in the name. -/
theorem locateHeader?_least_fourth :
    let name := "Sé".toList
    let lines := ["S…: a".toList, "s".toList, "SÉ: b".toList, "sé: c".toList, "Sé: d".toList]
    lines.length < UInt32.size ∧
      IsLeast {n | 1 ≤ n ∧ ∃ line, lines[n - 1]? = some line ∧ ShowsHeader name line} 4 ∧
      locateHeaderAt? (encoded name) (lines.map encoded) = some (some 4) := by
  intro name lines
  have hlines : lines.length < UInt32.size := by decide
  have hfound : locateHeader? name lines = some 4 := by decide +kernel
  obtain ⟨hbytes, hleast, -⟩ := locateHeader?_least name hlines
  exact ⟨hlines, (hleast 4).1 hfound, by rw [hbytes, hfound]⟩

end

end BundleAudit.Text
