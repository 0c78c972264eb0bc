/-!
# The order of texts and the order of their bytes

Texts are compared by their code points.  UTF-8 keeps that order: the bytes of texts compare as the
texts do.

## Main results

* `Text.encoded_lt` — the code of a smaller character comes first, whatever follows the two.
* `Text.bytes_lt` — **a smaller text has smaller bytes**.
-/

namespace BundleAudit.Text

/-- The first bytes decide, unless they are equal. -/
theorem byte_cons_lt {m n : Nat} {xs ys : List UInt8} (hn : n < 256) (hle : m ≤ n)
    (h : m = n → xs < ys) : UInt8.ofNat m :: xs < UInt8.ofNat n :: ys := by
  rw [List.cons_lt_cons_iff]
  rcases Nat.lt_or_eq_of_le hle with hlt | rfl
  · refine Or.inl ?_
    rw [UInt8.lt_iff_toNat_lt, UInt8.toNat_ofNat', UInt8.toNat_ofNat', Nat.mod_eq_of_lt hn,
      Nat.mod_eq_of_lt (Nat.lt_trans hlt hn)]
    exact hlt
  · exact Or.inr ⟨rfl, h rfl⟩

/-- The code of a smaller character comes first, whatever follows the two. -/
theorem encoded_lt {c d : Char} (h : c < d) (xs ys : List UInt8) :
    String.utf8EncodeChar c ++ xs < String.utf8EncodeChar d ++ ys := by
  have hlt : c.val.toNat < d.val.toNat := UInt32.lt_iff_toNat_lt.1 h
  have hmax : d.val.toNat < 1114112 := by
    have hvalid := d.valid
    simp only [UInt32.isValidChar, Nat.isValidChar] at hvalid
    omega
  simp only [String.utf8EncodeChar]
  generalize c.val.toNat = m at hlt ⊢
  generalize d.val.toNat = n at hlt hmax ⊢
  -- a longer code has a larger first byte; of two codes of one length some digit is the first to
  -- differ
  by_cases hm₁ : m ≤ 127
  · rw [if_pos hm₁]
    split
    · exact byte_cons_lt (by omega) (by omega) fun _ => by omega
    split
    · exact byte_cons_lt (by omega) (by omega) fun _ => by omega
    split <;> exact byte_cons_lt (by omega) (by omega) fun _ => by omega
  by_cases hm₂ : m ≤ 2047
  · rw [if_neg hm₁, if_pos hm₂, if_neg (by omega)]
    split
    · exact byte_cons_lt (by omega) (by omega) fun _ =>
        byte_cons_lt (by omega) (by omega) fun _ => by omega
    split <;> exact byte_cons_lt (by omega) (by omega) fun _ => by omega
  by_cases hm₃ : m ≤ 65535
  · rw [if_neg hm₁, if_neg hm₂, if_pos hm₃, if_neg (by omega), if_neg (by omega)]
    split
    · exact byte_cons_lt (by omega) (by omega) fun _ => byte_cons_lt (by omega) (by omega) fun _ =>
        byte_cons_lt (by omega) (by omega) fun _ => by omega
    · exact byte_cons_lt (by omega) (by omega) fun _ => by omega
  · rw [if_neg hm₁, if_neg hm₂, if_neg hm₃, if_neg (by omega), if_neg (by omega),
      if_neg (by omega)]
    exact byte_cons_lt (by omega) (by omega) fun _ => byte_cons_lt (by omega) (by omega) fun _ =>
      byte_cons_lt (by omega) (by omega) fun _ =>
        byte_cons_lt (by omega) (by omega) fun _ => by omega

theorem encoded_ne_nil (c : Char) : String.utf8EncodeChar c ≠ [] := by
  intro h
  have hlength : (String.utf8EncodeChar c).length = c.utf8Size := String.length_utf8EncodeChar c
  rw [h, List.length_nil] at hlength
  exact absurd c.utf8Size_pos (by omega)

/-- A smaller text has a smaller encoding. -/
theorem flatMap_encoded_lt {cs ds : List Char} (h : cs < ds) :
    cs.flatMap String.utf8EncodeChar < ds.flatMap String.utf8EncodeChar := by
  induction cs generalizing ds with
  | nil =>
    cases ds with
    | nil => exact absurd h (List.lt_irrefl [])
    | cons d ds =>
      rw [List.flatMap_nil, List.flatMap_cons]
      cases hd : String.utf8EncodeChar d with
      | nil => exact absurd hd (encoded_ne_nil d)
      | cons byte bytes => exact List.nil_lt_cons _ _
  | cons c cs ih =>
    cases ds with
    | nil => exact absurd h (List.not_lt_nil _)
    | cons d ds =>
      rw [List.flatMap_cons, List.flatMap_cons]
      rcases List.cons_lt_cons_iff.1 h with hlt | ⟨rfl, hlt⟩
      · exact encoded_lt hlt _ _
      · exact List.append_left_lt (ih hlt)

/-- **A smaller text has smaller bytes.** -/
theorem bytes_lt {a b : String} (h : a < b) :
    a.toUTF8.data.toList < b.toUTF8.data.toList := by
  have hbytes : ∀ s : String, s.toUTF8.data.toList = s.toList.flatMap String.utf8EncodeChar := by
    intro s
    rw [String.toUTF8_eq_toByteArray, ← String.utf8Encode_toList, List.utf8Encode,
      List.toList_data_toByteArray]
  rw [hbytes, hbytes]
  exact flatMap_encoded_lt h

end BundleAudit.Text
