import BundleAudit.Discovery

/-!
# What a descriptor is

Names lead to a descriptor if they pass through a descriptors folder and end with the descriptor
extension.  The names behind the first descriptors folder make up the relative path, and everything
that is known of the descriptor follows from that path: names hold no slash, so the path can be cut
into them again.

## Main definitions

* `Settings.IsDescriptor s names below d` — `names` lead to the descriptor `d`, which has the names
  `below` behind the first descriptors folder.

## Main results

* `relativePath_injective` — names are told apart by their relative path.
* `Settings.descriptor?_eq_some_iff` — which descriptor names lead to.
* `Settings.IsDescriptor.unique` — **descriptors are told apart by their relative path**.
* `Settings.mem_descriptorsIn_iff` — which descriptors a walk lists.
-/

namespace BundleAudit

open Text

/-! ### Relative paths -/

theorem FileName.text_injective {m n : FileName} (h : m.text = n.text) : m = n := by
  cases m
  cases n
  cases h
  rfl

theorem toList_relativePath (ns : List FileName) :
    (relativePath ns).toList = ['/'].intercalate (ns.map fun n => n.text.toList) := by
  rw [relativePath, String.toList_intercalate, List.map_map]
  rfl

/-- A relative path can be cut into its names again. -/
theorem splitOn_relativePath {ns : List FileName} (h : ns ≠ []) :
    (relativePath ns).toList.splitOn '/' = ns.map fun n => n.text.toList := by
  rw [toList_relativePath]
  refine List.splitOn_intercalate '/' ?_ (by simpa using h)
  intro cs hcs
  obtain ⟨n, -, rfl⟩ := List.mem_map.1 hcs
  exact n.valid.2.2.2.1

theorem relativePath_ne_empty {n : FileName} {ns : List FileName} :
    relativePath (n :: ns) ≠ "" := by
  intro h
  have hsplit := splitOn_relativePath (List.cons_ne_nil n ns)
  rw [h] at hsplit
  have hname : n.text.toList = [] := (List.cons.inj hsplit).1.symm
  exact n.valid.1 (String.toList_eq_nil_iff.1 hname)

/-- Names are told apart by their relative path. -/
theorem relativePath_injective {ns ms : List FileName} (h : relativePath ns = relativePath ms) :
    ns = ms := by
  cases ns with
  | nil =>
    cases ms with
    | nil => rfl
    | cons m ms => exact absurd h.symm relativePath_ne_empty
  | cons n ns =>
    cases ms with
    | nil => exact absurd h relativePath_ne_empty
    | cons m ms =>
      have hmap : (n :: ns).map (fun n => n.text.toList) =
          (m :: ms).map fun n => n.text.toList := by
        rw [← splitOn_relativePath (List.cons_ne_nil n ns),
          ← splitOn_relativePath (List.cons_ne_nil m ms), h]
      exact (List.map_inj_right fun a b hab =>
        FileName.text_injective (String.toList_inj.1 hab)).1 hmap

/-! ### Descriptors -/

/-- What stands behind a folder stands behind the first place where its name is met. -/
theorem belowFolder_eq_some_iff {folder : String} {names below : List FileName} :
    belowFolder folder names = some below ↔
      ∃ front n, names = front ++ n :: below ∧ n.text = folder ∧ ∀ m ∈ front, m.text ≠ folder := by
  induction names with
  | nil => simp [belowFolder]
  | cons n names ih =>
    rw [belowFolder]
    by_cases hn : n.text = folder
    · rw [if_pos hn]
      constructor
      · intro h
        cases h
        exact ⟨[], n, rfl, hn, fun m hm => absurd hm List.not_mem_nil⟩
      · rintro ⟨front, m, heq, hm, hfront⟩
        cases front with
        | nil => rw [(List.cons.inj heq).2]
        | cons k front =>
          exact absurd ((List.cons.inj heq).1 ▸ hn) (hfront k List.mem_cons_self)
    · rw [if_neg hn, ih]
      constructor
      · rintro ⟨front, m, rfl, hm, hfront⟩
        exact ⟨n :: front, m, rfl, hm, List.forall_mem_cons.2 ⟨hn, hfront⟩⟩
      · rintro ⟨front, m, heq, hm, hfront⟩
        cases front with
        | nil => exact absurd ((List.cons.inj heq).1 ▸ hm) hn
        | cons k front =>
          exact ⟨front, m, (List.cons.inj heq).2, hm, (List.forall_mem_cons.1 hfront).2⟩

namespace Settings

variable {s : Settings} {names names' below below' : List FileName} {d d' : Descriptor}

/-- Names lead to a descriptor. -/
structure IsDescriptor (s : Settings) (names below : List FileName) (d : Descriptor) : Prop where
  /-- Its relative path starts behind the first descriptors folder, which may be the file itself. -/
  folder : ∃ front n, names = front ++ n :: below ∧ n.text = s.descriptorsFolder ∧
    ∀ m ∈ front, m.text ≠ s.descriptorsFolder
  /-- The file has the extension. -/
  file : ∃ last, names.getLast? = some last ∧
    s.descriptorExtension.toList <:+ last.text.toList ∧ d.name = last.text
  /-- The relative path. -/
  path : d.relativePath = relativePath below
  /-- It is left out if the path of its folder has one of the fragments in it. -/
  excluded : d.excluded = true ↔ ∃ fragment ∈ s.excludedFragments,
    fragment.toList <:+: (relativePath below.dropLast).toList

theorem excludes_iff {folder : String} : s.excludes folder = true ↔
    ∃ fragment ∈ s.excludedFragments, fragment.toList <:+: folder.toList := by
  rw [excludes, List.any_eq_true]
  exact exists_congr fun fragment => and_congr_right fun _ => occursIn_iff

theorem descriptor?_eq_some_iff :
    s.descriptor? names = some d ↔ ∃ below, s.IsDescriptor names below d := by
  rw [descriptor?]
  constructor
  · intro h
    split at h
    · cases h
    next last hlast =>
    split at h
    next hextension =>
      obtain ⟨below, hbelow, rfl⟩ := Option.map_eq_some_iff.1 h
      exact ⟨below, belowFolder_eq_some_iff.1 hbelow,
        ⟨last, hlast, List.isSuffixOf_iff_suffix.1 hextension, rfl⟩, rfl, excludes_iff⟩
    · cases h
  · rintro ⟨below, hfolder, ⟨last, hlast, hextension, hname⟩, hpath, hexcluded⟩
    rw [hlast]
    dsimp only
    rw [if_pos (List.isSuffixOf_iff_suffix.2 hextension), belowFolder_eq_some_iff.2 hfolder,
      Option.map_some]
    have hexcludes : s.excludes (relativePath below.dropLast) = d.excluded :=
      Bool.eq_iff_iff.2 (excludes_iff.trans hexcluded.symm)
    rw [← hname, ← hpath, hexcludes]

/-- The name of a descriptor follows from the names behind the descriptors folder. -/
theorem IsDescriptor.name_eq (h : s.IsDescriptor names below d) :
    d.name = (below.getLast?.map FileName.text).getD s.descriptorsFolder := by
  -- with no names behind it, the descriptors folder is the file itself
  obtain ⟨front, n, rfl, hn, -⟩ := h.folder
  obtain ⟨last, hlast, -, hname⟩ := h.file
  rw [List.getLast?_append, List.getLast?_cons, Option.some_or, Option.some.injEq] at hlast
  rw [hname, ← hlast]
  cases below.getLast? with
  | none => exact hn
  | some m => rfl

/-- **Descriptors are told apart by their relative path**, whatever names lead to them. -/
theorem IsDescriptor.unique (h : s.IsDescriptor names below d)
    (h' : s.IsDescriptor names' below' d') (hpath : d.relativePath = d'.relativePath) : d = d' := by
  have hbelow : below = below' := relativePath_injective (h.path.symm.trans (hpath.trans h'.path))
  subst hbelow
  have hname : d.name = d'.name := h.name_eq.trans h'.name_eq.symm
  have hexcluded : d.excluded = d'.excluded := Bool.eq_iff_iff.2 (h.excluded.trans h'.excluded.symm)
  cases d
  cases d'
  cases hname
  cases hpath
  cases hexcluded
  rfl

theorem mem_filterMap_descriptor?_iff {walk : List (List FileName)} :
    d ∈ walk.filterMap s.descriptor? ↔
      ∃ names ∈ walk, ∃ below, s.IsDescriptor names below d := by
  rw [List.mem_filterMap]
  exact exists_congr fun names => and_congr_right fun _ => descriptor?_eq_some_iff

/-- All descriptors that names lead to are listed: of those with one path any will do. -/
theorem mem_ofList_descriptor?_iff {walk : List (List FileName)} :
    d ∈ Ordered.ofList (compareOn Descriptor.relativePath) (walk.filterMap s.descriptor?) ↔
      ∃ names ∈ walk, ∃ below, s.IsDescriptor names below d := by
  constructor
  · exact fun h => mem_filterMap_descriptor?_iff.1 (Ordered.mem_of_mem_ofList h)
  · intro h
    obtain ⟨d', hd', hcompare⟩ : ∃ d' ∈ Ordered.ofList (compareOn Descriptor.relativePath)
        (walk.filterMap s.descriptor?), compareOn Descriptor.relativePath d d' = .eq :=
      Ordered.exists_mem_ofList (mem_filterMap_descriptor?_iff.2 h)
    obtain ⟨names, -, below, hdescriptor⟩ := h
    obtain ⟨names', -, below', hdescriptor'⟩ :=
      mem_filterMap_descriptor?_iff.1 (Ordered.mem_of_mem_ofList hd')
    have hpath : d.relativePath = d'.relativePath := Std.LawfulEqCmp.eq_of_compare hcompare
    rwa [hdescriptor.unique hdescriptor' hpath]

end Settings

end BundleAudit
