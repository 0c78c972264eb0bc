import BundleAudit.Proofs.Files.Extension

/-!
# Where a file has been written

A path that a file has been written to can be followed once more.  The write has added or replaced
one entry of a folder, so the path leads to the same place as before, and there stands the file.

A path that ends with a slash asks for a folder, and writing to it fails.  So the last part of a
path that has been written to is the name of the file.

## Main results

* `FileSystem.exists_of_write_eq_ok` — what a write has done.
* `FileSystem.resolve_of_write_eq_ok` — **the path leads to the file that has been written**.
-/

namespace BundleAudit

namespace Path

variable {p : Path}

/-- The parts of a path make it up, so behind other parts the last one is empty only after a
slash. -/
theorem hasSlashAtEnd_of_parts {front : List (List Char)} (hfront : front ≠ [])
    (h : p.parts = front ++ [[]]) : p.hasSlashAtEnd = true := by
  have htext : ['/'].intercalate p.parts = p.text.toList := List.intercalate_splitOn '/'
  have hlast : (['/'].intercalate (front ++ [[]])).getLast? = some '/' := by
    clear h htext
    induction front with
    | nil => exact absurd rfl hfront
    | cons part front ih =>
      have hne : front ++ [[]] ≠ [] := List.append_ne_nil_of_right_ne_nil front (by decide)
      rw [List.cons_append, List.intercalate_cons_of_ne_nil hne, List.getLast?_append]
      cases front with
      | nil => simp
      | cons second front => rw [ih (List.cons_ne_nil second front), Option.some_or]
  rw [hasSlashAtEnd, ← htext, h, hlast]
  rfl

/-- Without a slash at its end, a path has its last segment behind the others. -/
theorem segments_eq {front : List Segment} {last : Segment} (htext : p.text ≠ "")
    (hslash : p.hasSlashAtEnd = false) (h : p.lastSegment? = some (front, last)) :
    p.segments = front ++ [last] := by
  rw [lastSegment?] at h
  cases hparts : p.parts.reverse with
  | nil =>
    rw [hparts] at h
    cases h
  | cons part rest =>
    have hall : p.parts = rest.reverse ++ [part] := by
      rw [← List.reverse_reverse p.parts, hparts, List.reverse_cons]
    have hpart : part ≠ [] := by
      rintro rfl
      by_cases hrest : rest.reverse = []
      · have hempty : ['/'].intercalate p.parts = p.text.toList := List.intercalate_splitOn '/'
        rw [hall, hrest] at hempty
        exact htext (String.toList_eq_nil_iff.1 hempty.symm)
      · rw [hasSlashAtEnd_of_parts hrest hall] at hslash
        cases hslash
    rw [hparts, List.dropWhile_cons_of_neg (by simpa using hpart)] at h
    dsimp only at h
    obtain ⟨rfl, rfl⟩ := Prod.mk.inj (Option.some.inj h)
    rw [segments, hall, List.map_append]
    rfl

end Path

namespace FileSystem

variable {fs fs' : FileSystem} {p : Path} {content : ByteArray}

theorem text_ne_of_read_eq_ok (h : fs.read p = .ok content) : p.text ≠ "" := by
  obtain ⟨place, hplace, -⟩ := node_eq_ok_iff.1 (read_eq_ok_iff.1 h)
  exact (checkPath_eq_ok_iff.1 (resolve_eq_ok_iff.1 hplace).1).1

/-- Above the last segment of a path there has to be a folder. -/
theorem exists_of_enclosing_eq_ok {atRoot : SystemError} {place : List FileName} {entries : Folder}
    {last : Segment} (h : fs.enclosing p atRoot = .ok (place, entries, last)) :
    checkPath p = .ok () ∧ ∃ front, p.lastSegment? = some (front, last) ∧
      fs.follow p front = .ok place ∧ fs.root.nodeAt? place = some (.folder entries) := by
  rw [enclosing, bind_eq_ok_iff] at h
  obtain ⟨⟨⟩, hcheck, h⟩ := h
  refine ⟨hcheck, ?_⟩
  cases hlast : p.lastSegment? with
  | none =>
    rw [hlast] at h
    cases h
  | some parts =>
    obtain ⟨front, last'⟩ := parts
    rw [hlast] at h
    dsimp only at h
    rw [bind_eq_ok_iff] at h
    obtain ⟨place', hfollow, h⟩ := h
    cases hnode : fs.root.nodeAt? place' with
    | none =>
      rw [hnode] at h
      cases h
    | some node =>
      rw [hnode] at h
      cases node with
      | file => cases h
      | folder inner =>
        cases h
        exact ⟨front, rfl, hfollow, hnode⟩

/-- A write puts the file into the folder above the last name of the path, where no folder has that
name. -/
theorem exists_of_write_eq_ok (h : fs.write p content = .ok fs') :
    ∃ place n entries, checkPath p = .ok () ∧
      (∃ front, p.segments = front ++ [.name n] ∧ fs.follow p front = .ok place) ∧
      fs.root.nodeAt? place = some (.folder entries) ∧
      (∀ inner, entries.find? n ≠ some (.folder inner)) ∧
      fs' = fs.putFile (place ++ [n]) content := by
  rw [write, bind_eq_ok_iff] at h
  obtain ⟨⟨place, entries, last⟩, henclosing, hput⟩ := h
  obtain ⟨hcheck, front, hlast, hfollow, hnode⟩ := exists_of_enclosing_eq_ok henclosing
  cases last with
  | stay => cases hput
  | up => cases hput
  | overlong =>
    dsimp only at hput
    split at hput <;> cases hput
  | name n =>
    dsimp only at hput
    split at hput
    · cases hput
    · next hfree =>
      cases hput
      simp only [Bool.or_eq_true, not_or, Bool.not_eq_true, Option.isSome_eq_false_iff,
        Option.isNone_iff_eq_none] at hfree
      obtain ⟨hslash, hfile⟩ := hfree
      have hsegments := Path.segments_eq (checkPath_eq_ok_iff.1 hcheck).1 hslash hlast
      refine ⟨place, n, entries, hcheck, ⟨front, hsegments, hfollow⟩, hnode, ?_, rfl⟩
      intro inner hinner
      rw [hinner] at hfile
      cases hfile

/-- Above a place in a folder there is no file. -/
theorem not_file_above {place : List FileName} {n : FileName} {entries : Folder}
    (h : fs.root.nodeAt? place = some (.folder entries)) (above below : List FileName)
    (c : ByteArray) (hbelow : below ≠ []) (heq : place ++ [n] = above ++ below) :
    fs.root.nodeAt? above ≠ some (.file c) := by
  intro hfile
  obtain ⟨inner, hinner⟩ := Folder.exists_folder_above h hbelow heq.symm
  rw [hfile] at hinner
  cases hinner

/-- A path leads to an entry of the folder that its segments in front lead to. -/
theorem resolve_of_segments {front back : List Segment} {place : List FileName} {n : FileName}
    {entries : Folder} {node : Node} (hcheck : checkPath p = .ok ())
    (hsegments : p.segments = front ++ .name n :: back) (hfollow : fs.follow p front = .ok place)
    (hplace : fs.root.nodeAt? place = some (.folder entries))
    (hnode : fs.root.nodeAt? (place ++ [n]) = some node)
    (hback : back.foldlM (enter fs.root) (place ++ [n]) = .ok (place ++ [n])) :
    fs.resolve p = .ok (place ++ [n]) := by
  refine resolve_eq_ok_iff.2 ⟨hcheck, ?_⟩
  rw [hsegments, follow, List.foldlM_append, bind_eq_ok_iff]
  refine ⟨place, hfollow, ?_⟩
  rw [List.foldlM_cons, bind_eq_ok_iff]
  refine ⟨place ++ [n], enter_eq_ok_iff.2 ⟨⟨entries, hplace⟩, ?_⟩, hback⟩
  exact Or.inr (Or.inr ⟨n, node, rfl, hnode, rfl⟩)

/-- The path that has been written to leads to the file. -/
theorem resolve_of_write_eq_ok (h : fs.write p content = .ok fs') :
    ∃ place n entries, fs.root.nodeAt? place = some (.folder entries) ∧
      (∀ inner, entries.find? n ≠ some (.folder inner)) ∧
      fs' = fs.putFile (place ++ [n]) content ∧ fs.Keeps fs' ∧
      fs'.resolve p = .ok (place ++ [n]) := by
  obtain ⟨place, n, entries, hcheck, ⟨front, hsegments, hfollow⟩, hplace, hfree, rfl⟩ :=
    exists_of_write_eq_ok h
  have hkeeps : fs.Keeps (fs.putFile (place ++ [n]) content) := by
    refine keeps_putFile (not_file_above hplace) fun inner hinner => ?_
    rw [Folder.nodeAt?_concat hplace] at hinner
    exact hfree inner hinner
  obtain ⟨entries', hentries'⟩ := hkeeps.folder hplace
  refine ⟨place, n, entries, hplace, hfree, rfl, hkeeps, ?_⟩
  -- the segments in front lead where they led, and the last one finds the file there
  exact resolve_of_segments hcheck hsegments (hkeeps.follow hfollow) hentries'
    (nodeAt?_putFile_self (List.concat_ne_nil n place)) rfl

end FileSystem

end BundleAudit
