import BundleAudit.Proofs.Discovery.Descriptors

/-!
# Components of paths

The order of paths tells two of them apart exactly if their components differ.  A name seen from a
path is one component more, whether the path is empty, ends with a slash or does not.

## Main results

* `Path.compare_eq_iff` — which paths count as equal.
* `Path.components_descend` — the components of a path that leads through names.
-/

namespace BundleAudit

namespace Component

instance : Std.LawfulEqCmp compare where
  eq_of_compare {a b} h := by
    obtain ⟨hrank, htext⟩ := compareLex_eq_eq.1 h
    have hrank : a.rank = b.rank := Std.LawfulEqCmp.eq_of_compare hrank
    have htext : a.text = b.text := Std.LawfulEqCmp.eq_of_compare htext
    cases a <;> cases b <;> cases hrank
    · rfl
    · rfl
    · rfl
    · exact congrArg Component.name htext

end Component

namespace Path

variable {a b p : Path} {n : FileName} {first : List Char} {rest : List (List Char)}

/-- The order of paths looks at their components only. -/
theorem compare_eq_iff : compare a b = .eq ↔ a.components = b.components := by
  constructor
  · intro h
    have hlex : List.compareLex Component.compare a.components b.components = .eq := h
    exact Std.LawfulEqCmp.eq_of_compare hlex
  · intro h
    show List.compareLex Component.compare a.components b.components = .eq
    rw [h]
    exact Std.ReflCmp.compare_self

/-! ### A name more -/

/-- The components that a first part has if something follows it. -/
def leading (first : List Char) : List Component :=
  if first = [] then [.root]
  else if first = ['.'] then [.here]
  else (component? first).toList

/-- An empty first part is the root only if a slash follows it. -/
theorem components_eq_leading (hparts : p.parts = first :: rest) (h : first = [] → rest ≠ []) :
    p.components = leading first ++ rest.filterMap component? := by
  rw [components, hparts]
  dsimp only
  rw [leading]
  by_cases hfirst : first = []
  · rw [if_pos hfirst, if_neg (h hfirst), if_pos hfirst]
  · rw [if_neg hfirst, if_neg hfirst]

theorem toList_name_ne (n : FileName) :
    n.text.toList ≠ [] ∧ n.text.toList ≠ ['.'] ∧ n.text.toList ≠ ['.', '.'] := by
  obtain ⟨hempty, hpoint, hpoints, -⟩ := n.valid
  have hne : ∀ s : String, n.text ≠ s → n.text.toList ≠ s.toList := fun s hs heq =>
    hs (String.toList_inj.1 heq)
  exact ⟨hne "" hempty, hne "." hpoint, hne ".." hpoints⟩

theorem component?_name (n : FileName) : component? n.text.toList = some (.name n.text) := by
  obtain ⟨hempty, hpoint, hpoints⟩ := toList_name_ne n
  rw [component?, if_neg (not_or.2 ⟨hempty, hpoint⟩), if_neg hpoints, String.ofList_toList]

theorem filterMap_component?_name (n : FileName) :
    [n.text.toList].filterMap component? = [.name n.text] := by
  rw [List.filterMap_cons_some (component?_name n), List.filterMap_nil]

theorem leading_name (n : FileName) : leading n.text.toList = [.name n.text] := by
  obtain ⟨hempty, hpoint, -⟩ := toList_name_ne n
  rw [leading, if_neg hempty, if_neg hpoint, component?_name]
  rfl

/-- A name has no slash to be cut at. -/
theorem splitOn_name (n : FileName) : n.text.toList.splitOn '/' = [n.text.toList] :=
  List.splitOn_eq_singleton n.valid.2.2.2.1

theorem parts_child_of_empty (h : p.text = "") : (p.child n).parts = [n.text.toList] := by
  rw [child, join, not_isAbsolute_name, if_neg Bool.false_ne_true, if_pos (Or.inl h), parts, h,
    String.empty_append, splitOn_name]

/-- Behind a slash at the end of a path a name takes the place of an empty part. -/
theorem parts_child_of_slash (h : p.text.toList.getLast? = some '/') :
    ∃ front, front ≠ [] ∧ p.parts = front ++ [[]] ∧
      (p.child n).parts = front ++ [n.text.toList] := by
  obtain ⟨cs, hcs⟩ := List.getLast?_eq_some_iff.1 h
  refine ⟨cs.splitOn '/', List.splitOn_ne_nil '/' cs, ?_, ?_⟩
  · rw [parts, hcs, List.splitOn_append_cons_self, List.splitOn_nil]
  · rw [child, join, not_isAbsolute_name, if_neg Bool.false_ne_true, if_pos (Or.inr h), parts,
      String.toList_append, hcs, List.append_assoc, List.singleton_append,
      List.splitOn_append_cons_self, splitOn_name]

theorem parts_child_of_no_slash (hempty : p.text ≠ "")
    (hslash : p.text.toList.getLast? ≠ some '/') :
    (p.child n).parts = p.parts ++ [n.text.toList] := by
  have htext : (p.text ++ "/" ++ n.text).toList = p.text.toList ++ '/' :: n.text.toList := by
    rw [String.toList_append, String.toList_append, List.append_assoc]
    rfl
  rw [child, join, not_isAbsolute_name, if_neg Bool.false_ne_true,
    if_neg (not_or.2 ⟨hempty, hslash⟩), parts, htext, List.splitOn_append_cons_self, splitOn_name,
    parts]

/-- A path with one empty part is empty. -/
theorem rest_ne_nil_of_parts (hempty : p.text ≠ "") (hparts : p.parts = first :: rest)
    (hfirst : first = []) : rest ≠ [] := by
  rintro rfl
  have hjoin : ['/'].intercalate p.parts = p.text.toList := List.intercalate_splitOn '/'
  rw [hparts, hfirst] at hjoin
  exact hempty (String.toList_eq_nil_iff.1 hjoin.symm)

/-- A name seen from a path is one component more. -/
theorem components_child (p : Path) (n : FileName) :
    (p.child n).components = p.components ++ [.name n.text] := by
  by_cases hempty : p.text = ""
  · have hp : p.components = [] := by
      rw [components, parts, hempty]
      rfl
    have hname : n.text.toList = [] → ([] : List (List Char)) ≠ [] := fun h =>
      absurd h (toList_name_ne n).1
    rw [components_eq_leading (parts_child_of_empty hempty) hname, leading_name, hp]
    rfl
  by_cases hslash : p.text.toList.getLast? = some '/'
  · obtain ⟨front, hfront, hparts, hchild⟩ := parts_child_of_slash (n := n) hslash
    obtain ⟨first, rest, rfl⟩ := List.exists_cons_of_ne_nil hfront
    rw [List.cons_append] at hparts hchild
    have hne : ∀ part : List Char, first = [] → rest ++ [part] ≠ [] := fun part _ =>
      List.concat_ne_nil part rest
    have hnone : [([] : List Char)].filterMap component? = [] := rfl
    rw [components_eq_leading hparts (hne _), components_eq_leading hchild (hne _),
      List.filterMap_append, List.filterMap_append, filterMap_component?_name, hnone,
      List.append_nil, List.append_assoc]
  · obtain ⟨first, rest, hparts⟩ :=
      List.exists_cons_of_ne_nil (List.splitOn_ne_nil '/' p.text.toList)
    have hchild := parts_child_of_no_slash (n := n) hempty hslash
    have hparts : p.parts = first :: rest := hparts
    rw [hparts, List.cons_append] at hchild
    rw [components_eq_leading hparts (rest_ne_nil_of_parts hempty hparts),
      components_eq_leading hchild fun _ => List.concat_ne_nil _ rest, List.filterMap_append,
      filterMap_component?_name, List.append_assoc]

/-- A path that leads through names has them as its last components. -/
theorem components_descend (p : Path) (names : List FileName) :
    (p.descend names).components = p.components ++ names.map fun n => .name n.text := by
  induction names generalizing p with
  | nil => exact (List.append_nil _).symm
  | cons n names ih =>
    rw [descend, List.foldl_cons, ← descend, ih, components_child, List.append_assoc]
    rfl

end Path

end BundleAudit
