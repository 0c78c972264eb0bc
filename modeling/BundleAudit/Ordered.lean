/-!
# Ascending lists

Files, bundles and settings are listed in a fixed order, each once.  An ascending list takes an
element in at its place unless it already has one that compares equal, so of equal elements the
first one stays.

## Main definitions

* `Ordered.insert cmp x xs` — `xs` with `x` at its place, or as it is if it has an equal element.
* `Ordered.ofList cmp xs` — the elements of `xs` in ascending order, of equal ones the first.

## Main results

* `Ordered.ascending_ofList` — the list is strictly ascending.
* `Ordered.mem_of_mem_ofList`, `Ordered.exists_mem_ofList` — it holds elements of the given list
  only, and one for each of them.
* `Ordered.find?_of_mem_ofList` — of equal elements it holds the first.
* `Ordered.Ascending.ext` — ascending lists of the same elements are equal.
-/

namespace BundleAudit.Ordered

variable {α : Type}

/-- Puts an element at its place in an ascending list, unless the list has an equal one. -/
def insert (cmp : α → α → Ordering) (x : α) : List α → List α
  | [] => [x]
  | y :: ys =>
    match cmp x y with
    | .lt => x :: y :: ys
    | .eq => y :: ys
    | .gt => y :: insert cmp x ys

/-- The elements of a list in ascending order.  Of elements that compare equal the first one stays.
-/
def ofList (cmp : α → α → Ordering) (xs : List α) : List α :=
  xs.foldl (fun sorted x => insert cmp x sorted) []

/-- Each element is smaller than all that follow it. -/
def Ascending (cmp : α → α → Ordering) (xs : List α) : Prop :=
  xs.Pairwise fun x y => cmp x y = .lt

@[simp] theorem insert_nil (cmp : α → α → Ordering) (x : α) : insert cmp x [] = [x] := rfl

@[simp] theorem ofList_nil (cmp : α → α → Ordering) : ofList cmp ([] : List α) = [] := rfl

/-- An element added at the end of the given list is inserted last. -/
theorem ofList_concat (cmp : α → α → Ordering) (xs : List α) (x : α) :
    ofList cmp (xs ++ [x]) = insert cmp x (ofList cmp xs) := by
  simp [ofList, List.foldl_append]

/-- Insertion brings in nothing but the element inserted. -/
theorem mem_of_mem_insert {cmp : α → α → Ordering} {x z : α} {ys : List α}
    (h : z ∈ insert cmp x ys) : z = x ∨ z ∈ ys := by
  induction ys with
  | nil => simpa using h
  | cons y ys ih =>
    unfold insert at h
    split at h
    · simpa using h
    · exact Or.inr h
    · rcases List.mem_cons.1 h with rfl | h
      · exact Or.inr List.mem_cons_self
      · exact (ih h).imp_right (List.mem_cons_of_mem y)

/-- Insertion loses nothing. -/
theorem mem_insert_of_mem {cmp : α → α → Ordering} (x : α) {z : α} {ys : List α} (h : z ∈ ys) :
    z ∈ insert cmp x ys := by
  induction ys with
  | nil => contradiction
  | cons y ys ih =>
    unfold insert
    split
    · exact List.mem_cons_of_mem x h
    · exact h
    · rcases List.mem_cons.1 h with rfl | h
      · exact List.mem_cons_self
      · exact List.mem_cons_of_mem y (ih h)

/-- After an insertion there is an element equal to the one inserted. -/
theorem exists_mem_insert (cmp : α → α → Ordering) [Std.ReflCmp cmp] (x : α) (ys : List α) :
    ∃ z ∈ insert cmp x ys, cmp x z = .eq := by
  induction ys with
  | nil => exact ⟨x, by simp, Std.ReflCmp.compare_self⟩
  | cons y ys ih =>
    unfold insert
    split
    · exact ⟨x, List.mem_cons_self, Std.ReflCmp.compare_self⟩
    · next h => exact ⟨y, List.mem_cons_self, h⟩
    · obtain ⟨z, hz, he⟩ := ih
      exact ⟨z, List.mem_cons_of_mem y hz, he⟩

/-- Insertion keeps a list strictly ascending. -/
theorem ascending_insert {cmp : α → α → Ordering} [Std.TransCmp cmp] (x : α) {ys : List α}
    (h : Ascending cmp ys) : Ascending cmp (insert cmp x ys) := by
  induction ys with
  | nil => exact List.pairwise_singleton _ _
  | cons y ys ih =>
    obtain ⟨hy, hys⟩ := List.pairwise_cons.1 h
    unfold insert
    split
    · next hxy =>
      refine List.pairwise_cons.2 ⟨fun z hz => ?_, h⟩
      rcases List.mem_cons.1 hz with rfl | hz
      · exact hxy
      · exact Std.TransCmp.lt_trans hxy (hy z hz)
    · exact h
    · next hxy =>
      refine List.pairwise_cons.2 ⟨fun z hz => ?_, ih hys⟩
      rcases mem_of_mem_insert hz with rfl | hz
      · exact Std.OrientedCmp.lt_of_gt hxy
      · exact hy z hz

/-- The elements come out strictly ascending. -/
theorem ascending_ofList {cmp : α → α → Ordering} [Std.TransCmp cmp] (xs : List α) :
    Ascending cmp (ofList cmp xs) := by
  suffices h : ∀ ys, Ascending cmp ys →
      Ascending cmp (xs.foldl (fun sorted x => insert cmp x sorted) ys) from h [] .nil
  induction xs with
  | nil => exact fun ys h => h
  | cons x xs ih => exact fun ys h => ih _ (ascending_insert x h)

/-- Nothing comes out that did not go in. -/
theorem mem_of_mem_ofList {cmp : α → α → Ordering} {z : α} {xs : List α}
    (h : z ∈ ofList cmp xs) : z ∈ xs := by
  suffices h : ∀ ys, z ∈ xs.foldl (fun sorted x => insert cmp x sorted) ys → z ∈ xs ∨ z ∈ ys from
    (h [] ‹_›).resolve_right (by simp)
  clear h
  induction xs with
  | nil => exact fun ys h => Or.inr h
  | cons x xs ih =>
    intro ys h
    rcases ih _ h with h | h
    · exact Or.inl (List.mem_cons_of_mem x h)
    · rcases mem_of_mem_insert h with rfl | h
      · exact Or.inl List.mem_cons_self
      · exact Or.inr h

/-- For each element that goes in an equal one comes out. -/
theorem exists_mem_ofList {cmp : α → α → Ordering} [Std.ReflCmp cmp] {x : α} {xs : List α}
    (h : x ∈ xs) : ∃ z ∈ ofList cmp xs, cmp x z = .eq := by
  suffices hmono : ∀ (xs ys : List α), ∀ z ∈ ys,
      z ∈ xs.foldl (fun sorted x => insert cmp x sorted) ys by
    suffices hall : ∀ ys, ∃ z ∈ xs.foldl (fun sorted x => insert cmp x sorted) ys,
        cmp x z = .eq from hall []
    induction xs with
    | nil => contradiction
    | cons y xs ih =>
      intro ys
      rcases List.mem_cons.1 h with rfl | h
      · obtain ⟨z, hz, he⟩ := exists_mem_insert cmp x ys
        exact ⟨z, hmono xs _ z hz, he⟩
      · exact ih h _
  intro xs
  induction xs with
  | nil => exact fun ys z hz => hz
  | cons y xs ih => exact fun ys z hz => ih _ z (mem_insert_of_mem y hz)

/-- What is inserted into an ascending list equals nothing that the list had. -/
theorem mem_or_new_of_mem_insert {cmp : α → α → Ordering} [Std.TransCmp cmp] {x z : α}
    {ys : List α} (hys : Ascending cmp ys) (h : z ∈ insert cmp x ys) :
    z ∈ ys ∨ (z = x ∧ ∀ y ∈ ys, cmp x y ≠ .eq) := by
  induction ys with
  | nil => exact Or.inr ⟨List.mem_singleton.1 h, fun y hy => absurd hy List.not_mem_nil⟩
  | cons y ys ih =>
    obtain ⟨hy, hys⟩ := List.pairwise_cons.1 hys
    unfold insert at h
    split at h
    · next hlt =>
      rcases List.mem_cons.1 h with rfl | h
      · right
        refine ⟨rfl, List.forall_mem_cons.2 ⟨by rw [hlt]; decide, fun y' hy' => ?_⟩⟩
        rw [Std.TransCmp.lt_trans hlt (hy y' hy')]
        decide
      · exact Or.inl h
    · exact Or.inl h
    · next hgt =>
      rcases List.mem_cons.1 h with rfl | h
      · exact Or.inl List.mem_cons_self
      · rcases ih hys h with h | ⟨rfl, hnew⟩
        · exact Or.inl (List.mem_cons_of_mem y h)
        · exact Or.inr ⟨rfl, List.forall_mem_cons.2 ⟨by rw [hgt]; decide, hnew⟩⟩

/-- Of elements that compare equal the first one stays. -/
theorem find?_of_mem_ofList {cmp : α → α → Ordering} [Std.TransCmp cmp] {z : α} {xs : List α}
    (h : z ∈ ofList cmp xs) : xs.find? (fun x => cmp z x == .eq) = some z := by
  -- the list is built from the front, so the induction takes elements off the end
  rw [← List.reverse_reverse xs] at h ⊢
  generalize xs.reverse = ys at h ⊢
  induction ys with
  | nil => exact absurd h List.not_mem_nil
  | cons x ys ih =>
    rw [List.reverse_cons, ofList_concat] at h
    rw [List.reverse_cons, List.find?_append]
    rcases mem_or_new_of_mem_insert (ascending_ofList ys.reverse) h with h | ⟨rfl, hnew⟩
    · rw [ih h]
      rfl
    · have hnone : ys.reverse.find? (fun x => cmp z x == .eq) = none := by
        refine List.find?_eq_none.2 fun y hy heq => ?_
        obtain ⟨y', hy', hsame⟩ : ∃ y' ∈ ofList cmp ys.reverse, cmp y y' = .eq :=
          exists_mem_ofList hy
        exact hnew y' hy' (Std.TransCmp.eq_trans (beq_iff_eq.1 heq) hsame)
      have hself : (cmp z z == .eq) = true := beq_iff_eq.2 Std.ReflCmp.compare_self
      rw [hnone, Option.none_or, List.find?_singleton, if_pos hself]

/-- If only equal elements compare equal, the list has the elements of the given one. -/
theorem mem_ofList_iff {cmp : α → α → Ordering} [Std.LawfulEqCmp cmp] {x : α} {xs : List α} :
    x ∈ ofList cmp xs ↔ x ∈ xs := by
  refine ⟨mem_of_mem_ofList, fun h => ?_⟩
  obtain ⟨y, hy, hcompare⟩ : ∃ y ∈ ofList cmp xs, cmp x y = .eq := exists_mem_ofList h
  rwa [Std.LawfulEqCmp.eq_of_compare hcompare]

/-- Ascending lists of the same elements are equal. -/
theorem Ascending.ext {cmp : α → α → Ordering} [Std.TransCmp cmp] {xs ys : List α}
    (hxs : Ascending cmp xs) (hys : Ascending cmp ys) (h : ∀ x, x ∈ xs ↔ x ∈ ys) : xs = ys := by
  have hne : ∀ {x y : α}, cmp x y = .lt → x ≠ y := by
    rintro x _ hlt rfl
    exact Std.OrientedCmp.not_lt_of_lt hlt hlt
  have hperm : xs.Perm ys := (List.perm_ext_iff_of_nodup (hxs.imp hne) (hys.imp hne)).2 h
  refine hperm.eq_of_pairwise (fun x y _ _ hxy hyx => ?_) hxs hys
  exact absurd hyx (Std.OrientedCmp.not_lt_of_lt hxy)

end BundleAudit.Ordered
