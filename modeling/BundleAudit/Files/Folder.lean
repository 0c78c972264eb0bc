import BundleAudit.Files.Path

/-!
# Folders

The files that an audit looks at form a tree of folders.  A folder lists its entries; looking up a
name finds the first entry of that name, and all operations keep the names of a folder distinct.

## Main definitions

* `Folder` — the entries of a folder, each a file with its bytes or a folder again.
* `Node` — what a name stands for.
* `Folder.find?`, `Folder.set`, `Folder.erase` — look-up, replacement and removal of one entry.
* `Folder.nodeAt?`, `Folder.alterAt`, `Folder.eraseAt` — the same along a list of names.
* `Folder.Distinct` — no two entries of a folder, or of one below it, have the same name.

## Main results

* `Folder.find?_set_self`, `Folder.find?_set_of_ne` — a replacement changes one entry.
* `Folder.distinct_alterAt`, `Folder.distinct_eraseAt` — changes keep names distinct.
-/

namespace BundleAudit

/-- Contents of files are compared byte by byte. -/
instance decidableEqContent : DecidableEq ByteArray := ByteArray.instDecidableEq

/-- The entries of a folder. -/
inductive Folder where
  /-- No entries. -/
  | empty
  /-- A file with its bytes, and the other entries. -/
  | file (name : FileName) (content : ByteArray) (rest : Folder)
  /-- A folder with its entries, and the other entries. -/
  | sub (name : FileName) (inner : Folder) (rest : Folder)
deriving DecidableEq

/-- What a name stands for. -/
inductive Node where
  /-- A file with its bytes. -/
  | file (content : ByteArray)
  /-- A folder with its entries. -/
  | folder (entries : Folder)
deriving DecidableEq

/-- The bytes of a file. -/
def Node.content? : Node → Option ByteArray
  | .file content => some content
  | .folder _ => none

/-- The entries of a folder. -/
def Node.entries? : Node → Option Folder
  | .file _ => none
  | .folder entries => some entries

namespace Folder

/-! ### One entry -/

/-- A folder with one more entry in front. -/
def cons (n : FileName) : Node → Folder → Folder
  | .file content, rest => .file n content rest
  | .folder entries, rest => .sub n entries rest

/-- What a name stands for in a folder. -/
def find? : Folder → FileName → Option Node
  | .empty, _ => none
  | .file m content rest, n => if m = n then some (.file content) else rest.find? n
  | .sub m inner rest, n => if m = n then some (.folder inner) else rest.find? n

/-- The folder in which a name stands for a node, and every other name for what it did. -/
def set : Folder → FileName → Node → Folder
  | .empty, n, node => cons n node .empty
  | .file m content rest, n, node =>
    if m = n then cons n node rest else .file m content (rest.set n node)
  | .sub m inner rest, n, node =>
    if m = n then cons n node rest else .sub m inner (rest.set n node)

/-- The folder without the entries of a name. -/
def erase : Folder → FileName → Folder
  | .empty, _ => .empty
  | .file m content rest, n => if m = n then rest.erase n else .file m content (rest.erase n)
  | .sub m inner rest, n => if m = n then rest.erase n else .sub m inner (rest.erase n)

/-- The folder that a name stands for, empty if it stands for none. -/
def subfolder (f : Folder) (n : FileName) : Folder := ((f.find? n).bind Node.entries?).getD .empty

@[simp] theorem find?_cons_self (n : FileName) (node : Node) (rest : Folder) :
    (cons n node rest).find? n = some node := by
  cases node <;> simp [cons, find?]

theorem find?_cons_of_ne {m n : FileName} (h : m ≠ n) (node : Node) (rest : Folder) :
    (cons m node rest).find? n = rest.find? n := by
  cases node <;> simp [cons, find?, h]

/-- The name that was set stands for its node. -/
@[simp] theorem find?_set_self (f : Folder) (n : FileName) (node : Node) :
    (f.set n node).find? n = some node := by
  induction f with
  | empty => simp [set]
  | file m c rest ih => by_cases h : m = n <;> simp [set, find?, h, ih]
  | sub m inner rest _ ih => by_cases h : m = n <;> simp [set, find?, h, ih]

/-- Another name stands for what it did. -/
theorem find?_set_of_ne {m n : FileName} (h : n ≠ m) (f : Folder) (node : Node) :
    (f.set n node).find? m = f.find? m := by
  induction f with
  | empty => simp [set, find?_cons_of_ne h, find?]
  | file k c rest ih =>
    by_cases hk : k = n
    · subst hk
      simp [set, find?_cons_of_ne h, find?, h]
    · simp [set, hk, find?, ih]
  | sub k inner rest _ ih =>
    by_cases hk : k = n
    · subst hk
      simp [set, find?_cons_of_ne h, find?, h]
    · simp [set, hk, find?, ih]

/-! ### Along a list of names -/

/-- What a list of names leads to, starting in a folder. -/
def nodeAt? : Folder → List FileName → Option Node
  | f, [] => some (.folder f)
  | f, [n] => f.find? n
  | f, n :: ns =>
    match f.find? n with
    | some (.folder inner) => inner.nodeAt? ns
    | _ => none

/-- Replaces what a list of names leads to by a node that may depend on it.  Folders on the way that
do not exist are made. -/
def alterAt (change : Option Node → Node) : Folder → List FileName → Folder
  | f, [] => f
  | f, [n] => f.set n (change (f.find? n))
  | f, n :: ns => f.set n (.folder (alterAt change (f.subfolder n) ns))

/-- Removes what a list of names leads to. -/
def eraseAt : Folder → List FileName → Folder
  | f, [] => f
  | f, [n] => f.erase n
  | f, n :: ns =>
    match f.find? n with
    | some (.folder inner) => f.set n (.folder (inner.eraseAt ns))
    | _ => f

/-- The node that makes a name a file. -/
def putFile (content : ByteArray) : Option Node → Node := fun _ => .file content

/-- The node that makes a name a folder; one that is there already keeps its entries. -/
def putFolder : Option Node → Node
  | some (.folder entries) => .folder entries
  | _ => .folder .empty

@[simp] theorem nodeAt?_nil (f : Folder) : f.nodeAt? [] = some (.folder f) := rfl

@[simp] theorem nodeAt?_singleton (f : Folder) (n : FileName) : f.nodeAt? [n] = f.find? n := rfl

/-- The first name has to lead to a folder. -/
@[simp] theorem nodeAt?_cons_cons (f : Folder) (n m : FileName) (ns : List FileName) :
    f.nodeAt? (n :: m :: ns) = ((f.find? n).bind Node.entries?).bind (·.nodeAt? (m :: ns)) := by
  rw [nodeAt?]
  · cases f.find? n with
    | none => rfl
    | some node => cases node <;> rfl
  · simp

/-! ### Distinct names -/

/-- The names of the entries of a folder. -/
def names : Folder → List FileName
  | .empty => []
  | .file n _ rest => n :: rest.names
  | .sub n _ rest => n :: rest.names

/-- No two entries of a folder have the same name, and so in every folder below it. -/
def Distinct : Folder → Prop
  | .empty => True
  | .file n _ rest => n ∉ rest.names ∧ rest.Distinct
  | .sub n inner rest => n ∉ rest.names ∧ inner.Distinct ∧ rest.Distinct

/-- Whether names are distinct can be decided. -/
instance decidableDistinct : (f : Folder) → Decidable f.Distinct
  | .empty => .isTrue trivial
  | .file n _ rest =>
    have := decidableDistinct rest
    inferInstanceAs (Decidable (n ∉ rest.names ∧ rest.Distinct))
  | .sub n inner rest =>
    have := decidableDistinct inner
    have := decidableDistinct rest
    inferInstanceAs (Decidable (n ∉ rest.names ∧ inner.Distinct ∧ rest.Distinct))

end Folder

/-- No two entries of a folder below a node have the same name. -/
def Node.Distinct : Node → Prop
  | .file _ => True
  | .folder entries => entries.Distinct

namespace Folder

theorem names_cons (n : FileName) (node : Node) (rest : Folder) :
    (cons n node rest).names = n :: rest.names := by
  cases node <;> rfl

theorem distinct_cons {n : FileName} {node : Node} {rest : Folder} :
    (cons n node rest).Distinct ↔ n ∉ rest.names ∧ node.Distinct ∧ rest.Distinct := by
  cases node <;> simp [cons, Distinct, Node.Distinct]

/-- Setting a name brings in no other name. -/
theorem mem_names_set {f : Folder} {n m : FileName} {node : Node} (h : m ∈ (f.set n node).names) :
    m = n ∨ m ∈ f.names := by
  induction f with
  | empty => simpa [set, names_cons, names] using h
  | file k c rest ih =>
    by_cases hk : k = n
    · subst hk
      rw [set, if_pos rfl, names_cons] at h
      exact Or.inr h
    · rw [set, if_neg hk, names] at h
      rcases List.mem_cons.1 h with rfl | h
      · exact Or.inr List.mem_cons_self
      · exact (ih h).imp_right (List.mem_cons_of_mem k)
  | sub k inner rest _ ih =>
    by_cases hk : k = n
    · subst hk
      rw [set, if_pos rfl, names_cons] at h
      exact Or.inr h
    · rw [set, if_neg hk, names] at h
      rcases List.mem_cons.1 h with rfl | h
      · exact Or.inr List.mem_cons_self
      · exact (ih h).imp_right (List.mem_cons_of_mem k)

/-- Erasing a name brings in no name. -/
theorem mem_names_erase {f : Folder} {n m : FileName} (h : m ∈ (f.erase n).names) :
    m ∈ f.names := by
  induction f with
  | empty => exact h
  | file k c rest ih =>
    by_cases hk : k = n
    · rw [erase, if_pos hk] at h
      exact List.mem_cons_of_mem k (ih h)
    · rw [erase, if_neg hk, names] at h
      exact List.mem_cons.2 ((List.mem_cons.1 h).imp_right ih)
  | sub k inner rest _ ih =>
    by_cases hk : k = n
    · rw [erase, if_pos hk] at h
      exact List.mem_cons_of_mem k (ih h)
    · rw [erase, if_neg hk, names] at h
      exact List.mem_cons.2 ((List.mem_cons.1 h).imp_right ih)

/-- What a name stands for has distinct names if the folder has. -/
theorem distinct_of_find? {f : Folder} {n : FileName} {node : Node} (hf : f.Distinct)
    (h : f.find? n = some node) : node.Distinct := by
  induction f with
  | empty => simp [find?] at h
  | file k c rest ih =>
    rw [find?] at h
    split at h
    · injection h with h
      subst h
      exact trivial
    · exact ih hf.2 h
  | sub k inner rest _ ih =>
    rw [find?] at h
    split at h
    · injection h with h
      subst h
      exact hf.2.1
    · exact ih hf.2.2 h

/-- Setting a name keeps names distinct. -/
theorem distinct_set {f : Folder} (n : FileName) {node : Node} (hf : f.Distinct)
    (hnode : node.Distinct) : (f.set n node).Distinct := by
  induction f with
  | empty => exact distinct_cons.2 ⟨by simp [names], hnode, trivial⟩
  | file k c rest ih =>
    by_cases hk : k = n
    · subst hk
      rw [set, if_pos rfl]
      exact distinct_cons.2 ⟨hf.1, hnode, hf.2⟩
    · rw [set, if_neg hk]
      exact ⟨fun h => (mem_names_set h).elim hk hf.1, ih hf.2⟩
  | sub k inner rest _ ih =>
    by_cases hk : k = n
    · subst hk
      rw [set, if_pos rfl]
      exact distinct_cons.2 ⟨hf.1, hnode, hf.2.2⟩
    · rw [set, if_neg hk]
      exact ⟨fun h => (mem_names_set h).elim hk hf.1, hf.2.1, ih hf.2.2⟩

/-- Erasing a name keeps names distinct. -/
theorem distinct_erase {f : Folder} (n : FileName) (hf : f.Distinct) : (f.erase n).Distinct := by
  induction f with
  | empty => exact trivial
  | file k c rest ih =>
    rw [erase]
    split
    · exact ih hf.2
    · exact ⟨fun h => hf.1 (mem_names_erase h), ih hf.2⟩
  | sub k inner rest _ ih =>
    rw [erase]
    split
    · exact ih hf.2.2
    · exact ⟨fun h => hf.1 (mem_names_erase h), hf.2.1, ih hf.2.2⟩

theorem distinct_subfolder {f : Folder} (n : FileName) (hf : f.Distinct) :
    (f.subfolder n).Distinct := by
  unfold subfolder
  cases h : f.find? n with
  | none => exact trivial
  | some node =>
    cases node with
    | file content => exact trivial
    | folder entries => exact distinct_of_find? hf h

/-- A change at one place keeps names distinct if the node put there has distinct names. -/
theorem distinct_alterAt {change : Option Node → Node} {f : Folder} (ns : List FileName)
    (hf : f.Distinct)
    (hchange : ∀ old, (∀ node, old = some node → node.Distinct) → (change old).Distinct) :
    (alterAt change f ns).Distinct := by
  induction ns generalizing f with
  | nil => exact hf
  | cons n ns ih =>
    cases ns with
    | nil => exact distinct_set n hf (hchange _ fun node h => distinct_of_find? hf h)
    | cons m ns => exact distinct_set n hf (ih (distinct_subfolder n hf))

/-- A removal at one place keeps names distinct. -/
theorem distinct_eraseAt {f : Folder} (ns : List FileName) (hf : f.Distinct) :
    (f.eraseAt ns).Distinct := by
  induction ns generalizing f with
  | nil => exact hf
  | cons n ns ih =>
    cases ns with
    | nil => exact distinct_erase n hf
    | cons m ns =>
      rw [eraseAt]
      · split
        · next inner h => exact distinct_set n hf (ih (distinct_of_find? hf h))
        · exact hf
      · simp

/-- A new file has no names in it. -/
theorem distinct_putFile (content : ByteArray) (old : Option Node) :
    (putFile content old).Distinct := trivial

/-- A folder that is there already keeps its names. -/
theorem distinct_putFolder {old : Option Node} (h : ∀ node, old = some node → node.Distinct) :
    (putFolder old).Distinct := by
  unfold putFolder
  split
  · exact h _ rfl
  · exact trivial

end Folder

end BundleAudit
