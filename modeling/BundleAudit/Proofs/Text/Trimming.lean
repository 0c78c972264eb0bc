import BundleAudit.Text.Blank
import Mathlib.Data.List.Basic
import Mathlib.Data.List.TakeWhile

/-!
# Trimmed texts

White space is cut off at the two ends of a text and nowhere else.  So where a text has a character
that is no white space, what stands before it is cut at its start only, and what stands behind it at
its end only.

* `trimStart_eq_self_iff`, `trimEnd_eq_self_iff` — which texts have nothing to cut off.
* `trim_append_cons` — the two sides of a character that is no white space.
* `trim_trim` — a text is trimmed once.
* `trim_append_of_isBlank_left`, `trim_append_of_isBlank_right` — white space at an end is cut off.
* `exists_append_trim_append` — what is cut off is white space.
* `length_splitOn` — a text has one piece more than it has separators.
* `mem_of_mem_splitOn`, `exists_mem_splitOn` — the pieces between separators hold all characters but
  the separators.
-/

namespace BundleAudit.Text

variable {cs front back : List Char} {c d : Char}

/-! ### One end -/

theorem mem_of_mem_trimStart (h : c ∈ trimStart cs) : c ∈ cs :=
  (List.dropWhile_sublist _).subset h

theorem mem_of_mem_trimEnd (h : c ∈ trimEnd cs) : c ∈ cs := by
  rw [trimEnd, List.mem_reverse] at h
  exact List.mem_reverse.1 (mem_of_mem_trimStart h)

theorem trimStart_eq_self_iff : trimStart cs = cs ↔ ∀ c, cs.head? = some c → ¬ isBlank c := by
  cases cs with
  | nil => simp
  | cons d cs =>
    by_cases hd : isBlank d
    · have hlength : (trimStart cs).length ≤ cs.length := (List.dropWhile_sublist _).length_le
      rw [trimStart_cons_of_isBlank hd]
      constructor
      · intro h
        rw [h, List.length_cons] at hlength
        omega
      · intro h
        exact absurd hd (h d rfl)
    · rw [trimStart_cons_of_not_isBlank hd]
      simpa using hd

theorem trimEnd_eq_self_iff : trimEnd cs = cs ↔ ∀ c, cs.getLast? = some c → ¬ isBlank c := by
  rw [trimEnd, List.reverse_eq_iff, trimStart_eq_self_iff, List.head?_reverse]

/-- A character that is no white space stops the cut. -/
theorem trimStart_append_cons (hc : ¬ isBlank c) :
    trimStart (front ++ c :: back) = trimStart front ++ c :: back := by
  induction front with
  | nil => exact trimStart_cons_of_not_isBlank hc back
  | cons d front ih =>
    by_cases hd : isBlank d
    · rw [List.cons_append, trimStart_cons_of_isBlank hd, trimStart_cons_of_isBlank hd, ih]
    · rw [List.cons_append, trimStart_cons_of_not_isBlank hd, trimStart_cons_of_not_isBlank hd,
        List.cons_append]

theorem trimEnd_append_cons (hc : ¬ isBlank c) :
    trimEnd (front ++ c :: back) = front ++ c :: trimEnd back := by
  rw [trimEnd, List.reverse_append, List.reverse_cons, List.append_assoc, List.singleton_append,
    trimStart_append_cons hc, List.reverse_append, List.reverse_cons, List.reverse_reverse,
    List.append_assoc, List.singleton_append, trimEnd]

/-- Either all is cut off, or a character that is no white space comes first. -/
theorem trimStart_cases (cs : List Char) :
    trimStart cs = [] ∨ ∃ c rest, trimStart cs = c :: rest ∧ ¬ isBlank c := by
  induction cs with
  | nil => exact Or.inl rfl
  | cons d cs ih =>
    by_cases hd : isBlank d
    · rwa [trimStart_cons_of_isBlank hd]
    · exact Or.inr ⟨d, cs, trimStart_cons_of_not_isBlank hd cs, hd⟩

theorem trimStart_trimStart (cs : List Char) : trimStart (trimStart cs) = trimStart cs := by
  rcases trimStart_cases cs with h | ⟨c, rest, h, hc⟩
  · rw [h, trimStart_nil]
  · rw [h, trimStart_cons_of_not_isBlank hc]

theorem trimEnd_trimEnd (cs : List Char) : trimEnd (trimEnd cs) = trimEnd cs := by
  rw [trimEnd, trimEnd, List.reverse_reverse, trimStart_trimStart]

/-! ### Both ends -/

theorem mem_of_mem_trim (h : c ∈ trim cs) : c ∈ cs :=
  mem_of_mem_trimStart (mem_of_mem_trimEnd h)

/-- What stands before a character that is no white space is cut at its start, and what stands
behind it at its end. -/
theorem trim_append_cons (hc : ¬ isBlank c) :
    trim (front ++ c :: back) = trimStart front ++ c :: trimEnd back := by
  rw [trim, trimStart_append_cons hc, trimEnd_append_cons hc]

theorem mem_trim_of_not_isBlank (h : c ∈ cs) (hc : ¬ isBlank c) : c ∈ trim cs := by
  obtain ⟨front, back, rfl⟩ := List.append_of_mem h
  rw [trim_append_cons hc]
  exact List.mem_append_right _ List.mem_cons_self

/-- What is left starts with what `trimStart` leaves, if that is anything. -/
theorem trim_cases (cs : List Char) :
    trim cs = [] ∨ ∃ c rest, trim cs = c :: trimEnd rest ∧ ¬ isBlank c := by
  rcases trimStart_cases cs with h | ⟨c, rest, h, hc⟩
  · rw [trim, h]
    exact Or.inl rfl
  · have hrest : trimEnd ([] ++ c :: rest) = [] ++ c :: trimEnd rest := trimEnd_append_cons hc
    rw [trim, h]
    exact Or.inr ⟨c, rest, hrest, hc⟩

/-- A text is trimmed once. -/
theorem trim_trim (cs : List Char) : trim (trim cs) = trim cs := by
  rcases trim_cases cs with hnil | ⟨c, rest, htrim, hc⟩
  · rw [hnil]
    rfl
  · calc trim (trim cs)
        = trim ([] ++ c :: trimEnd rest) := by rw [htrim, List.nil_append]
      _ = c :: trimEnd (trimEnd rest) := trim_append_cons hc
      _ = trim cs := by rw [trimEnd_trimEnd, htrim]

theorem not_isBlank_of_head?_trim (h : (trim cs).head? = some c) : ¬ isBlank c := by
  rcases trim_cases cs with hnil | ⟨d, rest, htrim, hd⟩
  · rw [hnil] at h
    cases h
  · rw [htrim] at h
    cases h
    exact hd

theorem not_isBlank_of_getLast?_trim (h : (trim cs).getLast? = some c) : ¬ isBlank c := by
  rw [trim, trimEnd, List.getLast?_reverse] at h
  rcases trimStart_cases (trimStart cs).reverse with hnil | ⟨d, rest, htrim, hd⟩
  · rw [hnil] at h
    cases h
  · rw [htrim] at h
    cases h
    exact hd

theorem trimStart_append_of_isBlank (h : IsBlank front) (cs : List Char) :
    trimStart (front ++ cs) = trimStart cs := by
  induction front with
  | nil => rfl
  | cons c front ih =>
    obtain ⟨hc, hfront⟩ := List.forall_mem_cons.1 h
    rw [List.cons_append, trimStart_cons_of_isBlank hc, ih hfront]

theorem trimEnd_append_of_isBlank (h : IsBlank back) (cs : List Char) :
    trimEnd (cs ++ back) = trimEnd cs := by
  have hback : IsBlank back.reverse := fun c hc => h c (List.mem_reverse.1 hc)
  rw [trimEnd, List.reverse_append, trimStart_append_of_isBlank hback, trimEnd]

theorem trim_eq_nil_of_isBlank (h : IsBlank cs) : trim cs = [] := by
  rw [trim, trimStart_eq_nil_iff.2 h]
  rfl

/-- White space in front of a text is cut off. -/
theorem trim_append_of_isBlank_left (h : IsBlank front) (cs : List Char) :
    trim (front ++ cs) = trim cs := by
  rw [trim, trimStart_append_of_isBlank h, trim]

/-- White space behind a text is cut off. -/
theorem trim_append_of_isBlank_right (h : IsBlank back) (cs : List Char) :
    trim (cs ++ back) = trim cs := by
  by_cases hcs : IsBlank cs
  · have hboth : IsBlank (cs ++ back) := fun c hc => (List.mem_append.1 hc).elim (hcs c) (h c)
    rw [trim_eq_nil_of_isBlank hcs, trim_eq_nil_of_isBlank hboth]
  · -- a character that is no white space keeps the two ends apart
    simp only [IsBlank, not_forall] at hcs
    obtain ⟨c, hmem, hc⟩ := hcs
    obtain ⟨a, b, rfl⟩ := List.append_of_mem hmem
    rw [List.append_assoc, List.cons_append, trim_append_cons hc, trim_append_cons hc,
      trimEnd_append_of_isBlank h]

/-- A text is what is left of it, with white space around. -/
theorem exists_append_trim_append (cs : List Char) :
    ∃ front back, IsBlank front ∧ IsBlank back ∧ cs = front ++ trim cs ++ back := by
  refine ⟨cs.takeWhile isBlank, ((trimStart cs).reverse.takeWhile isBlank).reverse,
    fun c hc => List.mem_takeWhile_imp hc,
    fun c hc => List.mem_takeWhile_imp (List.mem_reverse.1 hc), ?_⟩
  have hend : trim cs ++ ((trimStart cs).reverse.takeWhile isBlank).reverse = trimStart cs := by
    rw [trim, trimEnd, ← List.reverse_append, takeWhile_append_trimStart, List.reverse_reverse]
  rw [List.append_assoc, hend, takeWhile_append_trimStart]

/-! ### Pieces between separators -/

/-- A text has one piece more than it has separators. -/
theorem length_splitOn (c : Char) (cs : List Char) : (cs.splitOn c).length = cs.count c + 1 := by
  induction cs with
  | nil => rfl
  | cons d cs ih =>
    rw [List.splitOn_cons_eq_if_modifyHead, List.count_cons]
    split
    · rw [List.length_cons, ih]
    · rw [List.length_modifyHead, ih, Nat.add_zero]

/-- What is in a piece is in the text and is no separator. -/
theorem mem_of_mem_splitOn {piece : List Char} (h : piece ∈ cs.splitOn c) (hd : d ∈ piece) :
    d ∈ cs ∧ d ≠ c := by
  induction cs generalizing piece with
  | nil =>
    rw [List.splitOn_nil, List.mem_singleton] at h
    rw [h] at hd
    exact absurd hd List.not_mem_nil
  | cons e cs ih =>
    rw [List.splitOn_cons_eq_if_modifyHead] at h
    split at h
    · rcases List.mem_cons.1 h with rfl | h
      · exact absurd hd List.not_mem_nil
      · exact (ih h hd).imp_left (List.mem_cons_of_mem e)
    · next he =>
      -- the first piece gets one more character, which is no separator
      obtain ⟨first, rest, hpieces⟩ := List.exists_cons_of_ne_nil (List.splitOn_ne_nil c cs)
      rw [hpieces] at h ih
      rw [List.modifyHead_cons] at h
      rcases List.mem_cons.1 h with rfl | h
      · rcases List.mem_cons.1 hd with rfl | hd
        · exact ⟨List.mem_cons_self, fun heq => he (beq_iff_eq.2 heq)⟩
        · exact (ih List.mem_cons_self hd).imp_left (List.mem_cons_of_mem e)
      · exact (ih (List.mem_cons_of_mem first h) hd).imp_left (List.mem_cons_of_mem e)

/-- The pieces between separators hold no separator. -/
theorem not_mem_of_mem_splitOn {piece : List Char} (h : piece ∈ cs.splitOn c) : c ∉ piece :=
  fun hmem => (mem_of_mem_splitOn h hmem).2 rfl

/-- Every other character is in a piece. -/
theorem exists_mem_splitOn (h : d ∈ cs) (hd : d ≠ c) : ∃ piece ∈ cs.splitOn c, d ∈ piece := by
  induction cs with
  | nil => exact absurd h List.not_mem_nil
  | cons e cs ih =>
    rw [List.splitOn_cons_eq_if_modifyHead]
    split
    · next he =>
      have hne : d ≠ e := fun heq => hd (heq.trans (eq_of_beq he))
      obtain ⟨piece, hpiece, hmem⟩ := ih (List.mem_of_ne_of_mem hne h)
      exact ⟨piece, List.mem_cons_of_mem [] hpiece, hmem⟩
    · obtain ⟨first, rest, hpieces⟩ := List.exists_cons_of_ne_nil (List.splitOn_ne_nil c cs)
      rw [hpieces, List.modifyHead_cons]
      rcases List.mem_cons.1 h with rfl | h
      · exact ⟨d :: first, List.mem_cons_self, List.mem_cons_self⟩
      obtain ⟨piece, hpiece, hmem⟩ := ih h
      rw [hpieces] at hpiece
      rcases List.mem_cons.1 hpiece with rfl | hpiece
      · exact ⟨e :: piece, List.mem_cons_self, List.mem_cons_of_mem e hmem⟩
      · exact ⟨piece, List.mem_cons_of_mem _ hpiece, hmem⟩

end BundleAudit.Text
