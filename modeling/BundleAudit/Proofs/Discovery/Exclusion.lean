import BundleAudit.Proofs.Discovery.Exactness

/-!
# Descriptors that are left out

Whether a descriptor is left out is asked of the path of its folder, which ends in front of the last
slash of its relative path.  A fragment that ends with a slash can only stand for folders.  It finds
a folder inside another one, where a slash follows it, but not the last folder of a path, whose
slash has been cut off.

## Main results

* `excluded_iff_of_mem_files` — which descriptors are left out, by their relative paths.
* `infix_append_cons_iff` — where a fragment that ends with a slash occurs in a path.
* `discover_slashFragments_iff` — **when fragments that end with a slash leave out what they are
  part of**.
-/

namespace BundleAudit

open Text

variable {fs : FileSystem} {s : Settings} {root : Path} {d : Descriptor}

/-! ### The folder of a path -/

/-- A path is cut at its last slash in one way only. -/
theorem folder_unique {folder name folder' name' : List Char} (hname : '/' ∉ name)
    (hname' : '/' ∉ name') (h : folder ++ '/' :: name = folder' ++ '/' :: name') :
    folder = folder' := by
  have hcut : cutLast? '/' (folder ++ '/' :: name) = some (folder, name) :=
    cutLast?_eq_some_iff.2 ⟨rfl, hname⟩
  rw [h, cutLast?_eq_some_iff.2 ⟨rfl, hname'⟩] at hcut
  exact (Prod.mk.inj (Option.some.inj hcut)).1.symm

theorem toList_relativePath_concat {ns : List FileName} (hne : ns ≠ []) (n : FileName) :
    (relativePath (ns ++ [n])).toList = (relativePath ns).toList ++ '/' :: n.text.toList := by
  rw [toList_relativePath, toList_relativePath, List.map_append]
  generalize hparts : ns.map (fun n => n.text.toList) = parts
  have hparts_ne : parts ≠ [] := by simpa [← hparts] using hne
  clear hparts
  induction parts with
  | nil => exact absurd rfl hparts_ne
  | cons part parts ih =>
    cases parts with
    | nil => simp [List.intercalate_cons_cons]
    | cons next parts =>
      rw [List.cons_append, List.cons_append, List.intercalate_cons_cons,
        List.intercalate_cons_cons, ← List.cons_append, ih (List.cons_ne_nil _ _)]
      simp

/-- A descriptor is left out if a fragment occurs in front of the last slash of its relative path.
The empty fragment occurs everywhere. -/
theorem excluded_iff_of_mem_files (h : d ∈ (discover fs s root).files) :
    d.excluded = true ↔ ∃ g ∈ s.excludedFragments, g.toList = [] ∨
      ∃ folder name, d.relativePath.toList = folder ++ '/' :: name ∧ '/' ∉ name ∧
        g.toList <:+: folder := by
  obtain ⟨entries, hnode⟩ := exists_folder_of_mem_files h
  obtain ⟨names, below, -, -, -, hd⟩ := (mem_files_discover_iff hnode).1 h
  rw [hd.excluded, hd.path]
  refine exists_congr fun g => and_congr_right fun _ => ?_
  -- without a slash there is no folder, and only the empty fragment occurs in its path
  have hflat (hslash : '/' ∉ (relativePath below).toList) :
      g.toList <:+: [] ↔ g.toList = [] ∨ ∃ folder name,
        (relativePath below).toList = folder ++ '/' :: name ∧ '/' ∉ name ∧
          g.toList <:+: folder := by
    rw [List.infix_nil]
    refine ⟨Or.inl, fun hor => hor.resolve_right ?_⟩
    rintro ⟨folder, name, hpath, -, -⟩
    apply hslash
    simp [hpath]
  rcases List.eq_nil_or_concat below with hbelow | ⟨ns, n, hbelow⟩
  · subst hbelow
    exact hflat (by simp [relativePath])
  rw [List.concat_eq_append] at hbelow
  subst hbelow
  rw [List.dropLast_concat]
  by_cases hns : ns = []
  · subst hns
    refine hflat ?_
    rw [toList_relativePath]
    simpa using n.valid.2.2.2.1
  · rw [toList_relativePath_concat hns]
    constructor
    · intro hwithin
      exact Or.inr ⟨_, _, rfl, n.valid.2.2.2.1, hwithin⟩
    · rintro (hnil | ⟨folder, name, hpath, hname, hwithin⟩)
      · rw [hnil]
        exact List.nil_infix
      · rwa [folder_unique n.valid.2.2.2.1 hname hpath]

/-! ### Fragments that end with a slash -/

/-- A fragment that ends with a slash and occurs in a path occurs in the path of the folder, or it
ends with the slash that follows this. -/
theorem infix_append_cons_iff {fragment folder name : List Char}
    (hfragment : fragment.getLast? = some '/') (hname : '/' ∉ name) :
    fragment <:+: folder ++ '/' :: name ↔
      fragment <:+: folder ∨ fragment <:+ folder ++ ['/'] := by
  constructor
  · rintro ⟨front, back, hpath⟩
    obtain ⟨rest, rfl⟩ := List.getLast?_eq_some_iff.1 hfragment
    cases hcut : cutLast? '/' back with
    | none =>
      -- the slash of the fragment is the last one of the path
      have hpath' : (front ++ rest) ++ '/' :: back = folder ++ '/' :: name := by
        rw [← hpath]
        simp
      have hfolder := folder_unique (cutLast?_eq_none_iff.1 hcut) hname hpath'
      right
      refine ⟨front, ?_⟩
      rw [← hfolder, List.append_assoc]
    | some p =>
      obtain ⟨hback, hlast⟩ := cutLast?_eq_some_iff.1 hcut
      have hpath' : (front ++ (rest ++ ['/']) ++ p.1) ++ '/' :: p.2 = folder ++ '/' :: name := by
        rw [← hpath, hback]
        simp
      left
      exact ⟨front, p.1, folder_unique hlast hname hpath'⟩
  · rintro (hwithin | hsuffix)
    · exact hwithin.trans (List.prefix_append _ _).isInfix
    · have hprefix : folder ++ ['/'] <+: folder ++ '/' :: name := ⟨name, by simp⟩
      exact hsuffix.isInfix.trans hprefix.isInfix

/-- **When fragments that end with a slash leave out what they are part of.**  Such a fragment is to
leave out every descriptor whose relative path it occurs in.  It does so exactly if this makes no
difference to the descriptors that lie directly in a folder that it names: those whose folder, with
the slash behind it, ends with the fragment.  Each of these has to be left out because of a fragment
that occurs in the path of its folder without that slash. -/
theorem discover_slashFragments_iff (fs : FileSystem) (s : Settings) (root : Path) :
    (∀ g ∈ s.excludedFragments, g.toList.getLast? = some '/' →
      ∀ d ∈ (discover fs s root).files, g.toList <:+: d.relativePath.toList →
        d.excluded = true) ↔
    ∀ g ∈ s.excludedFragments, g.toList.getLast? = some '/' →
      ∀ d ∈ (discover fs s root).files, ∀ folder name,
        d.relativePath.toList = folder ++ '/' :: name → '/' ∉ name →
          g.toList <:+ folder ++ ['/'] → ∃ g' ∈ s.excludedFragments, g'.toList <:+: folder := by
  constructor
  · intro h g hg hlast d hd folder name hpath hname hsuffix
    have hwithin : g.toList <:+: d.relativePath.toList := by
      rw [hpath]
      exact (infix_append_cons_iff hlast hname).2 (Or.inr hsuffix)
    obtain ⟨g', hg', hfound⟩ := (excluded_iff_of_mem_files hd).1 (h g hg hlast d hd hwithin)
    refine ⟨g', hg', ?_⟩
    rcases hfound with hnil | ⟨folder', name', hpath', hname', hwithin'⟩
    · rw [hnil]
      exact List.nil_infix
    · rwa [folder_unique hname hname' (hpath.symm.trans hpath')]
  · intro h g hg hlast d hd hwithin
    rw [excluded_iff_of_mem_files hd]
    cases hcut : cutLast? '/' d.relativePath.toList with
    | none =>
      -- the fragment has a slash, so the path has one too
      exact absurd (hwithin.subset (List.mem_of_getLast? hlast)) (cutLast?_eq_none_iff.1 hcut)
    | some p =>
      obtain ⟨hpath, hname⟩ := cutLast?_eq_some_iff.1 hcut
      rw [hpath] at hwithin
      rcases (infix_append_cons_iff hlast hname).1 hwithin with hinfolder | hsuffix
      · exact ⟨g, hg, Or.inr ⟨p.1, p.2, hpath, hname, hinfolder⟩⟩
      · obtain ⟨g', hg', hinfolder⟩ := h g hg hlast d hd p.1 p.2 hpath hname hsuffix
        exact ⟨g', hg', Or.inr ⟨p.1, p.2, hpath, hname, hinfolder⟩⟩

/-- A fragment that names a folder leaves out what lies deeper in it, but not a descriptor directly
in it. -/
theorem discover_slashFragments_directly :
    let fs := ((FileSystem.emptyAt []).putFile [⟨"m", by decide⟩, ⟨"OSGI-INF", by decide⟩,
        ⟨"a", by decide⟩, ⟨"x.xml", by decide⟩] ByteArray.empty).putFile [⟨"m", by decide⟩,
        ⟨"OSGI-INF", by decide⟩, ⟨"a", by decide⟩, ⟨"b", by decide⟩, ⟨"y.xml", by decide⟩]
        ByteArray.empty
    let s : Settings := { excludedFragments := ["a/"] }
    (discover fs s ⟨"m"⟩).files =
        [⟨"y.xml", "a/b/y.xml", true⟩, ⟨"x.xml", "a/x.xml", false⟩] ∧
      ¬ ∀ g ∈ s.excludedFragments, g.toList.getLast? = some '/' →
        ∀ d ∈ (discover fs s ⟨"m"⟩).files, g.toList <:+: d.relativePath.toList →
          d.excluded = true := by
  intro fs s
  have hfiles : (discover fs s ⟨"m"⟩).files =
      [⟨"y.xml", "a/b/y.xml", true⟩, ⟨"x.xml", "a/x.xml", false⟩] := by decide +kernel
  refine ⟨hfiles, fun h => ?_⟩
  have hwithin : "a/".toList <:+: "a/".toList ++ "x.xml".toList := (List.prefix_append _ _).isInfix
  have hexcluded := h "a/" (by decide) (by decide) ⟨"x.xml", "a/x.xml", false⟩
    (by rw [hfiles]; decide) hwithin
  cases hexcluded

end BundleAudit
