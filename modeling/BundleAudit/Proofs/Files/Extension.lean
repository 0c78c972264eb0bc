import BundleAudit.Proofs.Files.Places

/-!
# File systems that have more in them

What a path denotes depends on the folders on its way.  As long as these stay, and nothing that was
there is taken away, the path leads to the same place.  So a folder that a path denotes has at least
the files that it had.

A file is added at a place where nothing stands, with no file above it.  The folders on the way to
it are made.

## Main definitions

* `FileSystem.Keeps fs fs'` — folders are still folders and files still files.
* `FileSystem.Extends fs fs'` — and the files have the bytes that they had.
* `FileSystem.IsFree fs place` — a file can be added there.

## Main results

* `Keeps.resolve` — paths lead where they led.
* `Extends.node_folder` — the folders that they denote have not lost anything.
* `extends_putFile` — adding a file is an extension.
-/

namespace BundleAudit.FileSystem

/-- Folders are still folders, and files are still files. -/
structure Keeps (fs fs' : FileSystem) : Prop where
  here : fs'.here = fs.here
  folder {place : List FileName} {entries : Folder}
    (h : fs.root.nodeAt? place = some (.folder entries)) :
    ∃ entries', fs'.root.nodeAt? place = some (.folder entries')
  file {place : List FileName} {content : ByteArray}
    (h : fs.root.nodeAt? place = some (.file content)) :
    ∃ content', fs'.root.nodeAt? place = some (.file content')

/-- Every folder of the one file system is in the other one, and every file with its bytes. -/
structure Extends (fs fs' : FileSystem) : Prop where
  here : fs'.here = fs.here
  folder {place : List FileName} {entries : Folder}
    (h : fs.root.nodeAt? place = some (.folder entries)) :
    ∃ entries', fs'.root.nodeAt? place = some (.folder entries')
  file {place : List FileName} {content : ByteArray}
    (h : fs.root.nodeAt? place = some (.file content)) :
    fs'.root.nodeAt? place = some (.file content)

/-- Nothing stands at a place, and no file stands above it. -/
def IsFree (fs : FileSystem) (place : List FileName) : Prop :=
  fs.root.nodeAt? place = none ∧
    ∀ i < place.length, (fs.root.nodeAt? (place.take i)).bind Node.content? = none

instance (fs : FileSystem) (place : List FileName) : Decidable (fs.IsFree place) :=
  inferInstanceAs (Decidable (_ ∧ _))

variable {fs fs' fs'' : FileSystem} {place target ns : List FileName} {p : Path} {node : Node}
  {entries : Folder}

theorem Extends.keeps (h : fs.Extends fs') : fs.Keeps fs' :=
  ⟨h.here, h.folder, fun hfile => ⟨_, h.file hfile⟩⟩

theorem Extends.trans (h : fs.Extends fs') (h' : fs'.Extends fs'') : fs.Extends fs'' where
  here := h'.here.trans h.here
  folder hfolder := by
    obtain ⟨entries, hentries⟩ := h.folder hfolder
    exact h'.folder hentries
  file hfile := h'.file (h.file hfile)

/-! ### Following paths -/

theorem Keeps.exists_node (h : fs.Keeps fs') (hnode : fs.root.nodeAt? place = some node) :
    ∃ node', fs'.root.nodeAt? place = some node' := by
  cases node with
  | file content =>
    obtain ⟨content', hfile⟩ := h.file hnode
    exact ⟨_, hfile⟩
  | folder entries =>
    obtain ⟨entries', hfolder⟩ := h.folder hnode
    exact ⟨_, hfolder⟩

/-- A segment is entered from a folder, and a name has to stand for something there. -/
theorem enter_eq_ok_iff {root : Folder} {segment : Segment} :
    enter root place segment = .ok target ↔
      (∃ entries, root.nodeAt? place = some (.folder entries)) ∧
        ((segment = .stay ∧ target = place) ∨ (segment = .up ∧ target = place.dropLast) ∨
          ∃ n node, segment = .name n ∧ root.nodeAt? (place ++ [n]) = some node ∧
            target = place ++ [n]) := by
  have hlook : ∀ n, root.nodeAt? (place ++ [n]) =
      ((root.nodeAt? place).bind Node.entries?).bind (·.find? n) := fun n =>
    Folder.nodeAt?_append (List.cons_ne_nil n [])
  unfold enter
  cases hplace : root.nodeAt? place with
  | none => simp
  | some node =>
    cases node with
    | file content => simp
    | folder entries =>
      have hfind : ∀ n, root.nodeAt? (place ++ [n]) = entries.find? n := fun n => by
        rw [hlook, hplace]
        rfl
      cases segment with
      | stay => simp [eq_comm]
      | up => simp [eq_comm]
      | overlong => simp
      | name n =>
        cases hn : entries.find? n with
        | none => simp [hfind, hn]
        | some node => simp [hfind, hn, eq_comm]

theorem Keeps.enter (h : fs.Keeps fs') {segment : Segment}
    (henter : enter fs.root place segment = .ok target) :
    enter fs'.root place segment = .ok target := by
  obtain ⟨⟨entries, hentries⟩, hsegment⟩ := enter_eq_ok_iff.1 henter
  refine enter_eq_ok_iff.2 ⟨h.folder hentries, ?_⟩
  refine hsegment.imp_right (Or.imp_right ?_)
  rintro ⟨n, node, hn, hnode, htarget⟩
  obtain ⟨node', hnode'⟩ := h.exists_node hnode
  exact ⟨n, node', hn, hnode', htarget⟩

theorem toOption_eq_some_iff {ε α : Type} {x : Except ε α} {a : α} :
    x.toOption = some a ↔ x = .ok a := by
  cases x <;> simp [Except.toOption]

/-- An operation in two steps succeeds if both do. -/
theorem bind_eq_ok_iff {ε α β : Type} {x : Except ε α} {next : α → Except ε β} {b : β} :
    (x >>= next) = .ok b ↔ ∃ a, x = .ok a ∧ next a = .ok b := by
  cases x with
  | error e =>
    constructor
    · intro h
      cases h
    · rintro ⟨a, h, -⟩
      cases h
  | ok a =>
    constructor
    · exact fun h => ⟨a, rfl, h⟩
    · rintro ⟨a', h, hnext⟩
      cases h
      exact hnext

/-- An operation in two steps fails if one of them does. -/
theorem bind_eq_error_iff {ε α β : Type} {x : Except ε α} {next : α → Except ε β} {e : ε} :
    (x >>= next) = .error e ↔ x = .error e ∨ ∃ a, x = .ok a ∧ next a = .error e := by
  cases x with
  | error e' =>
    constructor
    · intro h
      cases h
      exact Or.inl rfl
    · rintro (h | ⟨a, h, -⟩)
      · cases h
        rfl
      · cases h
  | ok a =>
    constructor
    · exact fun h => Or.inr ⟨a, rfl, h⟩
    · rintro (h | ⟨a', h, hnext⟩)
      · cases h
      · cases h
        exact hnext

theorem Keeps.follow (h : fs.Keeps fs') {segments : List Segment}
    (hfollow : fs.follow p segments = .ok target) : fs'.follow p segments = .ok target := by
  have hstart : fs'.start p = fs.start p := by rw [start, start, h.here]
  rw [FileSystem.follow] at hfollow ⊢
  rw [hstart]
  generalize fs.start p = place at hfollow ⊢
  induction segments generalizing place with
  | nil => exact hfollow
  | cons segment segments ih =>
    rw [List.foldlM_cons, bind_eq_ok_iff] at hfollow ⊢
    obtain ⟨next, henter, hrest⟩ := hfollow
    exact ⟨next, h.enter henter, ih next hrest⟩

/-- Which paths are followed at all. -/
theorem checkPath_eq_ok_iff : checkPath p = .ok () ↔
    p.text ≠ "" ∧ '\x00' ∉ p.text.toList ∧ p.isTooLong = false := by
  rw [checkPath]
  constructor
  · intro h
    split at h
    · cases h
    next htext =>
    split at h
    · cases h
    next hnul =>
    split at h
    · cases h
    next hlong => exact ⟨htext, hnul, Bool.not_eq_true _ ▸ hlong⟩
  · rintro ⟨htext, hnul, hlong⟩
    rw [if_neg htext, if_neg hnul, hlong, if_neg Bool.false_ne_true]

theorem resolve_eq_ok_iff :
    fs.resolve p = .ok place ↔ checkPath p = .ok () ∧ fs.follow p p.segments = .ok place := by
  rw [FileSystem.resolve, bind_eq_ok_iff]
  constructor
  · rintro ⟨⟨⟩, h⟩
    exact h
  · exact fun h => ⟨(), h⟩

/-- Paths lead where they led. -/
theorem Keeps.resolve (h : fs.Keeps fs') (hp : fs.resolve p = .ok place) :
    fs'.resolve p = .ok place := by
  obtain ⟨hcheck, hfollow⟩ := resolve_eq_ok_iff.1 hp
  exact resolve_eq_ok_iff.2 ⟨hcheck, h.follow hfollow⟩

theorem node_eq_ok_iff : fs.node p = .ok node ↔
    ∃ place, fs.resolve p = .ok place ∧ fs.root.nodeAt? place = some node := by
  rw [FileSystem.node, bind_eq_ok_iff]
  refine exists_congr fun place => and_congr_right fun _ => ?_
  cases fs.root.nodeAt? place with
  | none => constructor <;> intro h <;> cases h
  | some found => constructor <;> intro h <;> cases h <;> rfl

/-- Seen from the root, what lies in a folder stands behind the place of the folder. -/
theorem hasFile_iff_nodeAt?_root (hfolder : fs.root.nodeAt? place = some (.folder entries)) :
    entries.HasFile ns ↔ ns ≠ [] ∧ ∃ c, fs.root.nodeAt? (place ++ ns) = some (.file c) := by
  have hdistinct : entries.Distinct := Folder.distinct_of_nodeAt? fs.distinct hfolder
  by_cases hns : ns = []
  · exact iff_of_false (fun hfile => hfile.ne_nil hns) fun hroot => hroot.1 hns
  · rw [Folder.hasFile_iff_nodeAt? hdistinct, and_iff_right hns, Folder.nodeAt?_append hns, hfolder]
    rfl

theorem hasFolder_iff_nodeAt?_root (hfolder : fs.root.nodeAt? place = some (.folder entries)) :
    entries.HasFolder ns ↔ ns ≠ [] ∧ ∃ e, fs.root.nodeAt? (place ++ ns) = some (.folder e) := by
  have hdistinct : entries.Distinct := Folder.distinct_of_nodeAt? fs.distinct hfolder
  rw [Folder.hasFolder_iff_nodeAt? hdistinct]
  refine and_congr_right fun hns => ?_
  rw [Folder.nodeAt?_append hns, hfolder]
  rfl

/-- A folder that a path denotes still has the files that it had. -/
theorem Extends.node_folder (h : fs.Extends fs') {entries : Folder}
    (hp : fs.node p = .ok (.folder entries)) :
    ∃ entries', fs'.node p = .ok (.folder entries') ∧
      ∀ ns, entries.HasFile ns → entries'.HasFile ns := by
  obtain ⟨place, hplace, hnode⟩ := node_eq_ok_iff.1 hp
  obtain ⟨entries', hnode'⟩ := h.folder hnode
  refine ⟨entries', node_eq_ok_iff.2 ⟨place, h.keeps.resolve hplace, hnode'⟩, ?_⟩
  intro ns hns
  obtain ⟨hne, content, hroot⟩ := (hasFile_iff_nodeAt?_root hnode).1 hns
  exact (hasFile_iff_nodeAt?_root hnode').2 ⟨hne, content, h.file hroot⟩

/-! ### Putting files -/

/-- What stands elsewhere stays, if the way to the new file is clear; folders may get more
entries. -/
theorem nodeAt?_putFile {content : ByteArray}
    (hway : ∀ above below c, below ≠ [] → place = above ++ below →
      fs.root.nodeAt? above ≠ some (.file c))
    (hfolder : ∀ entries, fs.root.nodeAt? place ≠ some (.folder entries))
    (hne : target ≠ place) (hnode : fs.root.nodeAt? target = some node) :
    (fs.putFile place content).root.nodeAt? target = some node ∨
      ∃ entries entries', node = .folder entries ∧
        (fs.putFile place content).root.nodeAt? target = some (.folder entries') := by
  by_cases habove : target <+: place
  · obtain ⟨below, rfl⟩ := habove
    have hbelow : below ≠ [] := fun hnil => hne (by rw [hnil, List.append_nil])
    cases node with
    | file c => exact absurd hnode (hway target below c hbelow rfl)
    | folder entries =>
      obtain ⟨entries', hentries'⟩ := Folder.nodeAt?_alterAt_above hbelow
      exact Or.inr ⟨entries, entries', rfl, hentries'⟩
  · by_cases hbelow : place <+: target
    · obtain ⟨below, rfl⟩ := hbelow
      have hne' : below ≠ [] := fun hnil => hne (by rw [hnil, List.append_nil])
      obtain ⟨entries, hentries, -⟩ := Folder.exists_folder_of_nodeAt?_append hne' hnode
      exact absurd hentries (hfolder entries)
    · left
      rw [← hnode]
      exact Folder.nodeAt?_alterAt_of_beside hbelow habove

theorem nodeAt?_putFile_self {content : ByteArray} (h : place ≠ []) :
    (fs.putFile place content).root.nodeAt? place = some (.file content) :=
  Folder.nodeAt?_alterAt_self h

/-- A file may be put where nothing or another file stands, if the way to it is clear. -/
theorem keeps_putFile {content : ByteArray}
    (hway : ∀ above below c, below ≠ [] → place = above ++ below →
      fs.root.nodeAt? above ≠ some (.file c))
    (hfolder : ∀ entries, fs.root.nodeAt? place ≠ some (.folder entries)) :
    fs.Keeps (fs.putFile place content) where
  here := rfl
  folder {target entries} h := by
    have hne : target ≠ place := fun heq => hfolder entries (heq ▸ h)
    rcases nodeAt?_putFile hway hfolder hne h with hsame | ⟨-, entries', -, h'⟩
    · exact ⟨entries, hsame⟩
    · exact ⟨entries', h'⟩
  file {target c} h := by
    by_cases hne : target = place
    · subst hne
      have hplace : target ≠ [] := fun hnil => hfolder fs.root (hnil ▸ rfl)
      exact ⟨content, nodeAt?_putFile_self hplace⟩
    · rcases nodeAt?_putFile hway hfolder hne h with hsame | ⟨entries, -, heq, -⟩
      · exact ⟨c, hsame⟩
      · cases heq

theorem IsFree.not_file_above (h : fs.IsFree place) (above below : List FileName) (c : ByteArray)
    (hbelow : below ≠ []) (heq : place = above ++ below) :
    fs.root.nodeAt? above ≠ some (.file c) := by
  intro hfile
  have hlength : above.length < place.length := by
    rw [heq, List.length_append]
    have hpos := List.length_pos_iff.2 hbelow
    omega
  have hnone := h.2 above.length hlength
  rw [heq, List.take_left, hfile] at hnone
  cases hnone

/-- Adding a file at a free place takes nothing away. -/
theorem extends_putFile (h : fs.IsFree place) (content : ByteArray) :
    fs.Extends (fs.putFile place content) := by
  have hnone := h.1
  have hway := h.not_file_above
  have hfolder : ∀ entries, fs.root.nodeAt? place ≠ some (.folder entries) := by simp [hnone]
  refine ⟨rfl, (keeps_putFile hway hfolder).folder, ?_⟩
  intro target c hc
  have hne : target ≠ place := by
    rintro rfl
    rw [hnone] at hc
    cases hc
  rcases nodeAt?_putFile hway hfolder hne hc with hsame | ⟨entries, -, heq, -⟩
  · exact hsame
  · cases heq

end BundleAudit.FileSystem
