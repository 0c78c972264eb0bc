import BundleAudit.Files.FileSystem
import BundleAudit.Files.Walk

/-!
# Places in a tree of folders

What stands at a place is looked up name by name.  Here are the laws of that look-up: how it splits
along the names, what a change at one place does to every other place, and that a walk meets files
and folders exactly where the look-up finds them.

A change at a place leaves the places beside it as they are, makes those above it folders, and gives
its own place the new node.

## Main results

* `Folder.nodeAt?_append` — the look-up splits along the names.
* `Folder.nodeAt?_alterAt_of_beside`, `Folder.nodeAt?_alterAt_above`,
  `Folder.nodeAt?_alterAt_self` — a change, seen from every place.
* `Folder.hasFile_iff_nodeAt?`, `Folder.hasFolder_iff_nodeAt?` — a walk and the look-up agree.
-/

namespace BundleAudit.Folder

variable {f : Folder} {n : FileName} {ns ms : List FileName} {node : Node} {content : ByteArray}

/-! ### Splitting the names -/

/-- The entries of the folder that a name stands for. -/
theorem nodeAt?_cons_of_ne_nil (h : ns ≠ []) :
    f.nodeAt? (n :: ns) = ((f.find? n).bind Node.entries?).bind (·.nodeAt? ns) := by
  cases ns with
  | nil => exact absurd rfl h
  | cons m ns => exact nodeAt?_cons_cons f n m ns

theorem nodeAt?_append (h : ms ≠ []) :
    f.nodeAt? (ns ++ ms) = ((f.nodeAt? ns).bind Node.entries?).bind (·.nodeAt? ms) := by
  induction ns generalizing f with
  | nil => rfl
  | cons n ns ih =>
    have hne : ns ++ ms ≠ [] := List.append_ne_nil_of_right_ne_nil ns h
    rw [List.cons_append, nodeAt?_cons_of_ne_nil hne]
    cases hns : (f.find? n).bind Node.entries? with
    | none =>
      -- nothing is found in what is no folder
      cases ns with
      | nil => rw [nodeAt?_singleton, hns]; rfl
      | cons m ns => rw [nodeAt?_cons_cons, hns]; rfl
    | some inner =>
      rw [Option.bind_some, ih]
      cases ns with
      | nil => rw [nodeAt?_singleton, hns]; rfl
      | cons m ns => rw [nodeAt?_cons_cons, hns]; rfl

/-- What stands above something is a folder. -/
theorem exists_folder_of_nodeAt?_append (hms : ms ≠ []) (h : f.nodeAt? (ns ++ ms) = some node) :
    ∃ inner, f.nodeAt? ns = some (.folder inner) ∧ inner.nodeAt? ms = some node := by
  rw [nodeAt?_append hms, Option.bind_eq_some_iff] at h
  obtain ⟨inner, hinner, hnode⟩ := h
  obtain ⟨above, habove, hentries⟩ := Option.bind_eq_some_iff.1 hinner
  cases above with
  | file => cases hentries
  | folder entries =>
    cases hentries
    exact ⟨_, habove, hnode⟩

/-- What stands in a folder is an entry of it. -/
theorem nodeAt?_concat {entries : Folder} (h : f.nodeAt? ns = some (.folder entries)) :
    f.nodeAt? (ns ++ [n]) = entries.find? n := by
  rw [nodeAt?_append (List.cons_ne_nil n []), h]
  rfl

/-- Above an entry of a folder there are folders. -/
theorem exists_folder_above {entries : Folder} {above below : List FileName}
    (h : f.nodeAt? ns = some (.folder entries)) (hbelow : below ≠ [])
    (heq : above ++ below = ns ++ [n]) : ∃ inner, f.nodeAt? above = some (.folder inner) := by
  rcases List.eq_nil_or_concat below with rfl | ⟨rest, last, rfl⟩
  · exact absurd rfl hbelow
  · rw [List.concat_eq_append, ← List.append_assoc] at heq
    obtain ⟨rfl, -⟩ := List.append_inj' heq rfl
    by_cases hrest : rest = []
    · rw [hrest, List.append_nil] at h
      exact ⟨entries, h⟩
    · obtain ⟨inner, hinner, -⟩ := exists_folder_of_nodeAt?_append hrest h
      exact ⟨inner, hinner⟩

theorem distinct_of_nodeAt? (hf : f.Distinct) (h : f.nodeAt? ns = some node) : node.Distinct := by
  induction ns generalizing f with
  | nil =>
    cases h
    exact hf
  | cons n ns ih =>
    cases ns with
    | nil => exact distinct_of_find? hf h
    | cons m ns =>
      have happend : f.nodeAt? ([n] ++ m :: ns) = some node := h
      obtain ⟨inner, hinner, hnode⟩ :=
        exists_folder_of_nodeAt?_append (List.cons_ne_nil m ns) happend
      exact ih (distinct_of_find? hf hinner) hnode

/-! ### Changes -/

variable {change : Option Node → Node}

theorem alterAt_cons_of_ne_nil (h : ns ≠ []) :
    alterAt change f (n :: ns) = f.set n (.folder (alterAt change (f.subfolder n) ns)) := by
  cases ns with
  | nil => exact absurd rfl h
  | cons m ns => rfl

/-- What stands in a folder whose name may stand for nothing yet. -/
theorem nodeAt?_subfolder (h : ns ≠ []) : (f.subfolder n).nodeAt? ns = f.nodeAt? (n :: ns) := by
  rw [nodeAt?_cons_of_ne_nil h, subfolder]
  cases (f.find? n).bind Node.entries? with
  | some inner => rfl
  | none =>
    have hempty : ∀ m, empty.find? m = none := fun _ => rfl
    obtain ⟨m, ms, rfl⟩ := List.exists_cons_of_ne_nil h
    cases ms with
    | nil => rfl
    | cons k ms => rw [Option.getD_none, nodeAt?_cons_cons, hempty]; rfl

/-- The place that is changed has the new node. -/
theorem nodeAt?_alterAt_self (h : ns ≠ []) :
    (alterAt change f ns).nodeAt? ns = some (change (f.nodeAt? ns)) := by
  induction ns generalizing f with
  | nil => exact absurd rfl h
  | cons n ns ih =>
    cases ns with
    | nil => exact find?_set_self f n _
    | cons m ns =>
      have hne : m :: ns ≠ [] := List.cons_ne_nil m ns
      rw [alterAt_cons_of_ne_nil hne, nodeAt?_cons_cons, find?_set_self, ← nodeAt?_subfolder hne]
      exact ih hne

/-- A place above it has a folder. -/
theorem nodeAt?_alterAt_above (h : ms ≠ []) :
    ∃ entries, (alterAt change f (ns ++ ms)).nodeAt? ns = some (.folder entries) := by
  induction ns generalizing f with
  | nil => exact ⟨_, rfl⟩
  | cons n ns ih =>
    have hne : ns ++ ms ≠ [] := List.append_ne_nil_of_right_ne_nil ns h
    obtain ⟨entries, hentries⟩ := ih (f := f.subfolder n)
    rw [List.cons_append, alterAt_cons_of_ne_nil hne]
    cases ns with
    | nil => exact ⟨_, find?_set_self f n _⟩
    | cons m ns =>
      refine ⟨entries, ?_⟩
      rw [nodeAt?_cons_cons, find?_set_self]
      exact hentries

/-- A place beside it has what it had. -/
theorem nodeAt?_alterAt_of_beside (h : ¬ ns <+: ms) (h' : ¬ ms <+: ns) :
    (alterAt change f ns).nodeAt? ms = f.nodeAt? ms := by
  induction ns generalizing f ms with
  | nil => exact absurd (List.nil_prefix) h
  | cons n ns ih =>
    cases ms with
    | nil => exact absurd (List.nil_prefix) h'
    | cons m ms =>
      by_cases hnm : n = m
      · subst hnm
        rw [List.cons_prefix_cons] at h h'
        have hns : ns ≠ [] := fun hnil => h ⟨rfl, hnil ▸ List.nil_prefix⟩
        have hms : ms ≠ [] := fun hnil => h' ⟨rfl, hnil ▸ List.nil_prefix⟩
        have hset : (f.set n (.folder (alterAt change (f.subfolder n) ns))).find? n =
            some (.folder (alterAt change (f.subfolder n) ns)) := find?_set_self f n _
        calc (alterAt change f (n :: ns)).nodeAt? (n :: ms)
            = (alterAt change (f.subfolder n) ns).nodeAt? ms := by
              rw [alterAt_cons_of_ne_nil hns, nodeAt?_cons_of_ne_nil hms, hset]
              rfl
          _ = (f.subfolder n).nodeAt? ms := ih (fun hp => h ⟨rfl, hp⟩) fun hp => h' ⟨rfl, hp⟩
          _ = f.nodeAt? (n :: ms) := nodeAt?_subfolder hms
      · -- the first names differ, so the change is made behind another entry
        have hfind : ∀ node, (f.set n node).find? m = f.find? m := find?_set_of_ne hnm f
        have hlook : ∀ node, (f.set n node).nodeAt? (m :: ms) = f.nodeAt? (m :: ms) := by
          intro node
          cases ms with
          | nil => exact hfind node
          | cons k ms => rw [nodeAt?_cons_cons, nodeAt?_cons_cons, hfind]
        cases ns with
        | nil => exact hlook _
        | cons k ns => exact hlook _

/-! ### Walks -/

theorem HasFile.exists_mem_names (h : f.HasFile ns) : ∃ n ms, ns = n :: ms ∧ n ∈ f.names := by
  induction h with
  | here n c rest => exact ⟨n, [], rfl, List.mem_cons_self⟩
  | @inside n inner ns rest h ih => exact ⟨n, ns, rfl, List.mem_cons_self⟩
  | afterFile h ih | afterFolder h ih =>
    obtain ⟨n, ms, rfl, hn⟩ := ih
    exact ⟨n, ms, rfl, List.mem_cons_of_mem _ hn⟩

theorem nodeAt?_file_rest {rest : Folder} {m : FileName} (h : m ≠ n) :
    (file m content rest).nodeAt? (n :: ns) = rest.nodeAt? (n :: ns) := by
  cases ns <;> simp [find?, h]

theorem nodeAt?_sub_rest {inner rest : Folder} {m : FileName} (h : m ≠ n) :
    (sub m inner rest).nodeAt? (n :: ns) = rest.nodeAt? (n :: ns) := by
  cases ns <;> simp [find?, h]

theorem hasFile_of_find? (h : f.find? n = some (.file content)) : f.HasFile [n] := by
  induction f with
  | empty => cases h
  | file m c rest ih =>
    by_cases hm : m = n
    · exact hm ▸ .here m c rest
    · rw [find?, if_neg hm] at h
      exact .afterFile (ih h)
  | sub m inner rest _ ih =>
    rw [find?] at h
    split at h
    · cases h
    · exact .afterFolder (ih h)

theorem HasFile.cons_of_find? {inner : Folder} (h : f.find? n = some (.folder inner))
    (hin : inner.HasFile ns) : f.HasFile (n :: ns) := by
  induction f with
  | empty => cases h
  | file m c rest ih =>
    rw [find?] at h
    split at h
    · cases h
    · exact .afterFile (ih h)
  | sub m entries rest _ ih =>
    by_cases hm : m = n
    · rw [find?, if_pos hm] at h
      cases h
      exact hm ▸ .inside rest hin
    · rw [find?, if_neg hm] at h
      exact .afterFolder (ih h)

/-- A walk meets a file exactly where the look-up finds one. -/
theorem hasFile_iff_nodeAt? (hf : f.Distinct) :
    f.HasFile ns ↔ ∃ content, f.nodeAt? ns = some (.file content) := by
  constructor
  · intro h
    induction h with
    | here n c rest => exact ⟨c, if_pos rfl⟩
    | @inside n inner ns rest h ih =>
      obtain ⟨c, hc⟩ := ih hf.2.1
      refine ⟨c, ?_⟩
      rw [nodeAt?_cons_of_ne_nil h.ne_nil, find?, if_pos rfl]
      exact hc
    | @afterFile m c rest ns h ih =>
      -- the names are distinct, so the first entry has another name
      obtain ⟨n, ms, rfl, hn⟩ := h.exists_mem_names
      have hne : m ≠ n := fun heq => hf.1 (heq ▸ hn)
      rw [nodeAt?_file_rest hne]
      exact ih hf.2
    | @afterFolder m inner rest ns h ih =>
      obtain ⟨n, ms, rfl, hn⟩ := h.exists_mem_names
      have hne : m ≠ n := fun heq => hf.1 (heq ▸ hn)
      rw [nodeAt?_sub_rest hne]
      exact ih hf.2.2
  · rintro ⟨c, h⟩
    clear hf
    induction ns generalizing f with
    | nil => cases h
    | cons n ns ih =>
      cases ns with
      | nil => exact hasFile_of_find? h
      | cons m ns =>
        have happend : f.nodeAt? ([n] ++ m :: ns) = some (.file c) := h
        obtain ⟨inner, hinner, hnode⟩ :=
          exists_folder_of_nodeAt?_append (List.cons_ne_nil m ns) happend
        exact .cons_of_find? hinner (ih hnode)

theorem HasFolder.ne_nil (h : f.HasFolder ns) : ns ≠ [] := by
  induction h <;> simp_all

theorem HasFolder.exists_mem_names (h : f.HasFolder ns) : ∃ n ms, ns = n :: ms ∧ n ∈ f.names := by
  induction h with
  | here n inner rest => exact ⟨n, [], rfl, List.mem_cons_self⟩
  | @inside n inner ns rest h ih => exact ⟨n, ns, rfl, List.mem_cons_self⟩
  | afterFile h ih | afterFolder h ih =>
    obtain ⟨n, ms, rfl, hn⟩ := ih
    exact ⟨n, ms, rfl, List.mem_cons_of_mem _ hn⟩

theorem HasFolder.cons_of_find? {inner : Folder} (h : f.find? n = some (.folder inner))
    (hin : ns = [] ∨ inner.HasFolder ns) : f.HasFolder (n :: ns) := by
  induction f with
  | empty => cases h
  | file m c rest ih =>
    rw [find?] at h
    split at h
    · cases h
    · exact .afterFile (ih h)
  | sub m entries rest _ ih =>
    by_cases hm : m = n
    · rw [find?, if_pos hm] at h
      cases h
      rcases hin with rfl | hin
      · exact hm ▸ .here m inner rest
      · exact hm ▸ .inside rest hin
    · rw [find?, if_neg hm] at h
      exact .afterFolder (ih h)

/-- A walk meets a folder exactly where the look-up finds one, its start apart. -/
theorem hasFolder_iff_nodeAt? (hf : f.Distinct) :
    f.HasFolder ns ↔ ns ≠ [] ∧ ∃ entries, f.nodeAt? ns = some (.folder entries) := by
  constructor
  · intro h
    refine ⟨h.ne_nil, ?_⟩
    induction h with
    | here n inner rest => exact ⟨inner, if_pos rfl⟩
    | @inside n inner ns rest h ih =>
      obtain ⟨entries, hentries⟩ := ih hf.2.1
      refine ⟨entries, ?_⟩
      rw [nodeAt?_cons_of_ne_nil h.ne_nil, find?, if_pos rfl]
      exact hentries
    | @afterFile m c rest ns h ih =>
      obtain ⟨n, ms, rfl, hn⟩ := h.exists_mem_names
      have hne : m ≠ n := fun heq => hf.1 (heq ▸ hn)
      rw [nodeAt?_file_rest hne]
      exact ih hf.2
    | @afterFolder m inner rest ns h ih =>
      obtain ⟨n, ms, rfl, hn⟩ := h.exists_mem_names
      have hne : m ≠ n := fun heq => hf.1 (heq ▸ hn)
      rw [nodeAt?_sub_rest hne]
      exact ih hf.2.2
  · rintro ⟨hne, entries, h⟩
    clear hf
    induction ns generalizing f with
    | nil => exact absurd rfl hne
    | cons n ns ih =>
      cases ns with
      | nil => exact .cons_of_find? h (Or.inl rfl)
      | cons m ns =>
        have happend : f.nodeAt? ([n] ++ m :: ns) = some (.folder entries) := h
        obtain ⟨inner, hinner, hnode⟩ :=
          exists_folder_of_nodeAt?_append (List.cons_ne_nil m ns) happend
        exact .cons_of_find? hinner (Or.inr (ih (List.cons_ne_nil m ns) hnode))

end BundleAudit.Folder
