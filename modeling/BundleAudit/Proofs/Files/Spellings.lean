import BundleAudit.Proofs.Files.Components
import BundleAudit.Proofs.Files.Extension
import Mathlib.Data.List.Induction

/-!
# Spellings of a folder

A folder can be reached by many paths.  Paths with the same components lead to the same place, and
the converse holds among paths that start alike and never go up: behind the start their components
are the names on the way.  A point at the start, a slash there, or two points anywhere give a place
components that have nothing to do with those of its other spellings.

## Main definitions

* `FileSystem.LeadsTo fs p place` — following the path ends at the folder of a place.
* `Path.opening p` — how a path starts.

## Main results

* `FileSystem.LeadsTo.eq_of_components` — the components settle the place.
* `FileSystem.LeadsTo.components_eq` — the place and the start settle the components of a path that
  never goes up.
* `FileSystem.LeadsTo.descend` — names lead from the place of a path to places below.
-/

namespace BundleAudit

/-- Following a path ends at a place, and there is a folder. -/
def FileSystem.LeadsTo (fs : FileSystem) (p : Path) (place : List FileName) : Prop :=
  fs.follow p p.segments = .ok place ∧ ∃ entries, fs.root.nodeAt? place = some (.folder entries)

/-- How a path starts: with a slash, with a point, or with neither. -/
def Path.opening (p : Path) : List Component := p.components.filter fun c => c.rank < 2

/-! ### Components and places -/

namespace Component

variable {place target : List FileName} {cs : List Component}

/-- The place that a component leads to from a place. -/
def move? (place : List FileName) : Component → Option (List FileName)
  | .root => some []
  | .here => some place
  | .up => some place.dropLast
  | .name text => if h : FileName.Valid text then some (place ++ [⟨text, h⟩]) else none

/-- Components that are names lead to a place below by these names. -/
theorem exists_names_of_foldlM (h : cs.foldlM move? place = some target)
    (hcs : ∀ c ∈ cs, 2 < c.rank) :
    ∃ names : List FileName, target = place ++ names ∧ cs = names.map fun n => .name n.text := by
  induction cs generalizing place with
  | nil =>
    cases h
    exact ⟨[], (List.append_nil _).symm, rfl⟩
  | cons c cs ih =>
    obtain ⟨hc, htail⟩ := List.forall_mem_cons.1 hcs
    rw [List.foldlM_cons, Option.bind_eq_bind, Option.bind_eq_some_iff] at h
    obtain ⟨next, hmove, hrest⟩ := h
    cases c with
    | name text =>
      rw [move?] at hmove
      split at hmove
      · next hvalid =>
        cases hmove
        obtain ⟨names, rfl, rfl⟩ := ih hrest htail
        refine ⟨⟨text, hvalid⟩ :: names, ?_, rfl⟩
        rw [List.append_assoc, List.singleton_append]
      · cases hmove
    | root | here | up => exact absurd hc (by decide)

end Component

namespace FileSystem

variable {fs : FileSystem} {root : Folder} {place place' target : List FileName} {p q : Path}
  {n : FileName} {names : List FileName} {part : List Char} {parts : List (List Char)}

theorem eq_of_enter_stay (h : enter root place .stay = .ok target) : target = place := by
  simpa using (enter_eq_ok_iff.1 h).2

theorem eq_of_enter_up (h : enter root place .up = .ok target) : target = place.dropLast := by
  simpa using (enter_eq_ok_iff.1 h).2

theorem eq_of_enter_name (h : enter root place (.name n) = .ok target) :
    target = place ++ [n] := by
  obtain ⟨-, ⟨hstay, -⟩ | ⟨hup, -⟩ | ⟨m, node, hm, -, htarget⟩⟩ := enter_eq_ok_iff.1 h
  · cases hstay
  · cases hup
  · cases hm
    exact htarget

theorem enter_overlong_ne : enter root place .overlong ≠ .ok target := by
  intro h
  simpa using (enter_eq_ok_iff.1 h).2

/-- A part that can be entered leads where its component does. -/
theorem foldlM_component?_of_enter
    (h : enter root place (Segment.ofText (String.ofList part)) = .ok target) :
    (Path.component? part).toList.foldlM Component.move? place = some target := by
  rw [Path.component?]
  by_cases hstay : part = [] ∨ part = ['.']
  · have hofText : Segment.ofText (String.ofList part) = .stay := by
      rcases hstay with rfl | rfl <;> decide
    rw [hofText] at h
    rw [if_pos hstay, eq_of_enter_stay h]
    rfl
  rw [if_neg hstay]
  by_cases hup : part = ['.', '.']
  · have hofText : Segment.ofText (String.ofList part) = .up := by
      subst hup
      decide
    rw [hofText] at h
    rw [if_pos hup, eq_of_enter_up h]
    rfl
  rw [if_neg hup]
  rw [not_or] at hstay
  by_cases hvalid : FileName.Valid (String.ofList part)
  · rw [Segment.ofText, dif_pos hvalid] at h
    rw [eq_of_enter_name h]
    show Component.move? place (.name (String.ofList part)) >>= pure = _
    rw [Component.move?, dif_pos hvalid]
    rfl
  · have hne (cs : List Char) (hcs : part ≠ cs) : String.ofList part ≠ String.ofList cs :=
      fun heq => hcs (String.ofList_injective heq)
    have hnostay : ¬(String.ofList part = "" ∨ String.ofList part = ".") := by
      rintro (hempty | hpoint)
      · exact hne [] hstay.1 hempty
      · exact hne ['.'] hstay.2 hpoint
    rw [Segment.ofText, dif_neg hvalid, if_neg (hne ['.', '.'] hup), if_neg hnostay] at h
    exact absurd h enter_overlong_ne

theorem foldlM_components_of_enter
    (h : (parts.map fun part => Segment.ofText (String.ofList part)).foldlM (enter root) place =
      .ok target) :
    (parts.filterMap Path.component?).foldlM Component.move? place = some target := by
  induction parts generalizing place with
  | nil =>
    cases h
    rfl
  | cons part parts ih =>
    rw [List.map_cons, List.foldlM_cons, bind_eq_ok_iff] at h
    obtain ⟨next, henter, hrest⟩ := h
    have hcons : (part :: parts).filterMap Path.component? =
        (Path.component? part).toList ++ parts.filterMap Path.component? := by
      rw [List.filterMap_cons]
      cases Path.component? part <;> rfl
    rw [hcons, List.foldlM_append, foldlM_component?_of_enter henter]
    exact ih hrest

end FileSystem

namespace Path

variable {p : Path} {first part : List Char} {rest : List (List Char)} {c : Component}

/-- An absolute path is one that has nothing in front of its first slash. -/
theorem isAbsolute_iff (hempty : p.text ≠ "") (hparts : p.parts = first :: rest) :
    p.isAbsolute = true ↔ first = [] := by
  obtain ⟨d, cs, hcs⟩ := List.exists_cons_of_ne_nil (mt String.toList_eq_nil_iff.1 hempty)
  rw [parts, hcs, List.splitOn_cons_eq_if_modifyHead] at hparts
  rw [isAbsolute, hcs, List.head?_cons, beq_iff_eq, Option.some.injEq]
  split at hparts
  · next hd =>
    cases hparts
    exact iff_of_true (eq_of_beq hd) rfl
  · next hd =>
    obtain ⟨front, back, hpieces⟩ := List.exists_cons_of_ne_nil (List.splitOn_ne_nil '/' cs)
    rw [hpieces, List.modifyHead_cons] at hparts
    cases hparts
    exact iff_of_false (fun heq => hd (beq_iff_eq.2 heq)) (List.cons_ne_nil d front)

theorem rank_component? (h : c ∈ component? part) : 1 < c.rank := by
  rw [component?] at h
  split at h
  · cases h
  · split at h
    · cases h
      decide
    · cases h
      show 1 < 3
      decide

theorem isAbsolute_child (p : Path) (n : FileName) : (p.child n).isAbsolute = p.isAbsolute := by
  rw [child, join, not_isAbsolute_name, if_neg Bool.false_ne_true]
  by_cases hempty : p.text = ""
  · rw [if_pos (Or.inl hempty), isAbsolute, isAbsolute, hempty, String.empty_append]
    exact not_isAbsolute_name n
  · obtain ⟨c, cs, hcs⟩ := List.exists_cons_of_ne_nil (mt String.toList_eq_nil_iff.1 hempty)
    split
    · rw [isAbsolute, isAbsolute, String.toList_append, hcs]
      rfl
    · rw [isAbsolute, isAbsolute, String.toList_append, String.toList_append, hcs]
      rfl

/-- A name seen from a path is one segment more, or it takes the place of an empty one. -/
theorem segments_child (p : Path) (n : FileName) :
    ∃ front, (p.segments = front ∨ p.segments = front ++ [.stay]) ∧
      (p.child n).segments = front ++ [.name n] := by
  have hname : [n.text.toList].map (fun part => Segment.ofText (String.ofList part)) =
      [.name n] := by
    rw [List.map_singleton, String.ofList_toList, Segment.ofText_text]
  have hstay : [[]].map (fun part => Segment.ofText (String.ofList part)) = [.stay] := by decide
  by_cases hempty : p.text = ""
  · refine ⟨[], Or.inr ?_, ?_⟩
    · rw [segments, parts, hempty]
      exact hstay
    · rw [segments, parts_child_of_empty hempty]
      exact hname
  by_cases hslash : p.text.toList.getLast? = some '/'
  · obtain ⟨front, -, hparts, hchild⟩ := parts_child_of_slash (n := n) hslash
    refine ⟨front.map fun part => Segment.ofText (String.ofList part), Or.inr ?_, ?_⟩
    · rw [segments, hparts, List.map_append, hstay]
    · rw [segments, hchild, List.map_append, hname]
  · refine ⟨p.segments, Or.inl rfl, ?_⟩
    rw [segments, parts_child_of_no_slash hempty hslash, List.map_append, hname, ← segments]

/-- Behind the start of a path there are names and double points. -/
theorem components_eq_opening (p : Path) :
    ∃ steps, p.components = p.opening ++ steps ∧ ∀ c ∈ steps, 1 < c.rank := by
  have hnone {cs : List Component} (hcs : ∀ c ∈ cs, 1 < c.rank) :
      cs.filter (fun c => c.rank < 2) = [] := by
    rw [List.filter_eq_nil_iff]
    intro c hc
    rw [decide_eq_true_iff, Nat.not_lt]
    exact hcs c hc
  have hsteps {ps : List (List Char)} : ∀ c ∈ ps.filterMap component?, 1 < c.rank := by
    intro c hc
    obtain ⟨part, -, hpart⟩ := List.mem_filterMap.1 hc
    exact rank_component? hpart
  -- the first part gives the start, or one more step
  have hstart {c : Component} {cs : List Component} (h : p.components = c :: cs)
      (hc : c.rank < 2) (hcs : ∀ c ∈ cs, 1 < c.rank) :
      ∃ steps, p.components = p.opening ++ steps ∧ ∀ c ∈ steps, 1 < c.rank := by
    refine ⟨cs, ?_, hcs⟩
    rw [opening, h, List.filter_cons_of_pos (by simpa using hc), hnone hcs]
    rfl
  have hstep {cs : List Component} (h : p.components = cs) (hcs : ∀ c ∈ cs, 1 < c.rank) :
      ∃ steps, p.components = p.opening ++ steps ∧ ∀ c ∈ steps, 1 < c.rank := by
    refine ⟨cs, ?_, hcs⟩
    rw [opening, h, hnone hcs]
    rfl
  by_cases hempty : p.text = ""
  · have hcomponents : p.components = [] := by
      rw [components, parts, hempty]
      rfl
    exact hstep hcomponents fun c hc => absurd hc List.not_mem_nil
  obtain ⟨first, rest, hparts⟩ :=
    List.exists_cons_of_ne_nil (List.splitOn_ne_nil '/' p.text.toList)
  have hcomponents := components_eq_leading hparts (rest_ne_nil_of_parts hempty hparts)
  by_cases hroot : first = []
  · rw [leading, if_pos hroot] at hcomponents
    exact hstart hcomponents (by decide) hsteps
  by_cases hhere : first = ['.']
  · rw [leading, if_neg hroot, if_pos hhere] at hcomponents
    exact hstart hcomponents (by decide) hsteps
  · rw [leading, if_neg hroot, if_neg hhere] at hcomponents
    refine hstep hcomponents (List.forall_mem_append.2 ⟨fun c hc => ?_, hsteps⟩)
    exact rank_component? (Option.mem_toList.1 hc)

end Path

namespace FileSystem

variable {fs : FileSystem} {place place' : List FileName} {p q : Path} {n : FileName}
  {names : List FileName}

/-- A path leads where its components lead from the current directory. -/
theorem foldlM_components (h : fs.follow p p.segments = .ok place) :
    p.components.foldlM Component.move? fs.here = some place := by
  rw [follow, start] at h
  by_cases hempty : p.text = ""
  · have hrelative : p.isAbsolute = false := by
      rw [Path.isAbsolute, hempty]
      rfl
    have hcomponents : p.components = p.parts.filterMap Path.component? := by
      rw [Path.components, Path.parts, hempty]
      rfl
    rw [hrelative, if_neg Bool.false_ne_true] at h
    rw [hcomponents]
    exact foldlM_components_of_enter h
  obtain ⟨first, rest, hparts⟩ :=
    List.exists_cons_of_ne_nil (List.splitOn_ne_nil '/' p.text.toList)
  have hparts : p.parts = first :: rest := hparts
  rw [Path.segments, hparts, List.map_cons, List.foldlM_cons, bind_eq_ok_iff] at h
  obtain ⟨next, henter, hfollow⟩ := h
  have hmove := foldlM_component?_of_enter henter
  have hleading : (Path.leading first).foldlM Component.move? fs.here = some next := by
    have habsolute := Path.isAbsolute_iff hempty hparts
    rw [Path.leading]
    by_cases hroot : first = []
    · rw [if_pos (habsolute.2 hroot), hroot] at hmove
      rw [if_pos hroot]
      exact hmove
    rw [if_neg (mt habsolute.1 hroot)] at hmove
    rw [if_neg hroot]
    by_cases hhere : first = ['.']
    · rw [hhere] at hmove
      rw [if_pos hhere]
      exact hmove
    · rwa [if_neg hhere]
  rw [Path.components_eq_leading hparts (Path.rest_ne_nil_of_parts hempty hparts),
    List.foldlM_append, hleading]
  exact foldlM_components_of_enter hfollow

namespace LeadsTo

/-- **The components of a path settle its place.** -/
theorem eq_of_components (hp : fs.LeadsTo p place) (hq : fs.LeadsTo q place')
    (h : p.components = q.components) : place = place' := by
  have hplace := foldlM_components hp.1
  rw [h, foldlM_components hq.1] at hplace
  exact (Option.some.inj hplace).symm

/-- **The place and the start settle the components** of a path that never goes up. -/
theorem components_eq (hp : fs.LeadsTo p place) (hq : fs.LeadsTo q place)
    (hopening : p.opening = q.opening) (hup : .up ∉ p.components) (hup' : .up ∉ q.components) :
    p.components = q.components := by
  obtain ⟨steps, hsteps, hrank⟩ := p.components_eq_opening
  obtain ⟨steps', hsteps', hrank'⟩ := q.components_eq_opening
  have hname {r : Path} {cs : List Component} (hcs : r.components = r.opening ++ cs)
      (hrank : ∀ c ∈ cs, 1 < c.rank) (hup : .up ∉ r.components) : ∀ c ∈ cs, 2 < c.rank := by
    intro c hc
    have hrankc := hrank c hc
    have hmem : c ∈ r.components := by
      rw [hcs]
      exact List.mem_append_right _ hc
    cases c with
    | root => exact absurd hrankc (by decide)
    | here => exact absurd hrankc (by decide)
    | up => exact absurd hmem hup
    | name text =>
      show 2 < 3
      decide
  have hplace := foldlM_components hp.1
  have hplace' := foldlM_components hq.1
  rw [hsteps, List.foldlM_append, Option.bind_eq_bind, Option.bind_eq_some_iff] at hplace
  rw [hsteps', ← hopening, List.foldlM_append, Option.bind_eq_bind, Option.bind_eq_some_iff]
    at hplace'
  obtain ⟨base, hbase, hnames⟩ := hplace
  obtain ⟨base', hbase', hnames'⟩ := hplace'
  rw [hbase, Option.some.injEq] at hbase'
  subst hbase'
  obtain ⟨ns, rfl, hns⟩ := Component.exists_names_of_foldlM hnames (hname hsteps hrank hup)
  obtain ⟨ms, heq, hms⟩ := Component.exists_names_of_foldlM hnames' (hname hsteps' hrank' hup')
  rw [hsteps, hsteps', hopening, hns, hms, List.append_cancel_left heq]

/-! ### Places below -/

/-- A name leads from the place of a path to the folder of that name. -/
theorem child {entries : Folder} (h : fs.LeadsTo p place)
    (hnode : fs.root.nodeAt? (place ++ [n]) = some (.folder entries)) :
    fs.LeadsTo (p.child n) (place ++ [n]) := by
  obtain ⟨hfollow, hfolder⟩ := h
  obtain ⟨front, hsegments, hchild⟩ := p.segments_child n
  have hfront : front.foldlM (enter fs.root) (fs.start p) = .ok place := by
    rw [follow] at hfollow
    rcases hsegments with heq | heq
    · rwa [heq] at hfollow
    · -- a slash at the end of the path leads nowhere else
      rw [heq, List.foldlM_append, bind_eq_ok_iff] at hfollow
      obtain ⟨next, hnext, hlast⟩ := hfollow
      rw [List.foldlM_cons, bind_eq_ok_iff] at hlast
      obtain ⟨last, henter, hnil⟩ := hlast
      cases hnil
      rwa [eq_of_enter_stay henter]
  have henter : enter fs.root place (.name n) = .ok (place ++ [n]) :=
    enter_eq_ok_iff.2 ⟨hfolder, Or.inr (Or.inr ⟨n, _, rfl, hnode, rfl⟩)⟩
  refine ⟨?_, entries, hnode⟩
  rw [follow, hchild, start, Path.isAbsolute_child, ← start, List.foldlM_append, hfront]
  show [Segment.name n].foldlM (enter fs.root) place = _
  rw [List.foldlM_cons, henter]
  rfl

/-- Names lead from the place of a path to the folder below that has these names. -/
theorem descend {entries : Folder} (h : fs.LeadsTo p place)
    (hnode : fs.root.nodeAt? (place ++ names) = some (.folder entries)) :
    fs.LeadsTo (p.descend names) (place ++ names) := by
  induction names using List.reverseRecOn generalizing entries with
  | nil =>
    rw [List.append_nil]
    exact h
  | append_singleton names n ih =>
    rw [← List.append_assoc] at hnode ⊢
    obtain ⟨above, habove, -⟩ :=
      Folder.exists_folder_of_nodeAt?_append (List.cons_ne_nil n []) hnode
    have hchild : p.descend (names ++ [n]) = (p.descend names).child n := by
      rw [Path.descend, List.foldl_append]
      rfl
    rw [hchild]
    exact (ih habove).child hnode

end LeadsTo

/-- What a folder is named by leads to it. -/
theorem exists_leadsTo {entries : Folder} (h : fs.node p = .ok (.folder entries)) :
    ∃ place, fs.LeadsTo p place ∧ fs.root.nodeAt? place = some (.folder entries) := by
  obtain ⟨place, hplace, hnode⟩ := node_eq_ok_iff.1 h
  exact ⟨place, ⟨(resolve_eq_ok_iff.1 hplace).2, entries, hnode⟩, hnode⟩

end FileSystem

end BundleAudit
