import BundleAudit.Manifest.Attributes
import Mathlib.Data.List.Basic

/-!
# The grammar of a main section

A main section is a list of headers, each on a line of its own with the lines that continue its
value right below it, up to a blank line or the end.  The reader of manifests goes through the lines
one by one and remembers the header that a continuation would continue; here the grammar stands by
itself, one rule for a whole header, and the reader is shown to accept exactly what it describes.

## Main definitions

* `IsContinuation line` — the line continues a value.
* `Attribute.IsName name` — the text can be the name of a header.
* `mainSection lines` — the lines up to the first blank one.
* `HasEntries lines as` — the main section that lines start with is made up of these headers.

## Main results

* `Attributes.ofLines_eq_ok_iff` — the reader accepts exactly the lines of the grammar, and reads
  from them the headers that the grammar says.
-/

namespace BundleAudit

open Text

/-- A line that starts with a space. -/
def IsContinuation (line : List Char) : Prop := line.head? = some ' '

instance (line : List Char) : Decidable (IsContinuation line) :=
  inferInstanceAs (Decidable (_ = _))

/-- The lines before the first blank one. -/
def mainSection (lines : List (List Char)) : List (List Char) := lines.takeWhile (· ≠ [])

/-- The name of a header has neither a space nor a colon, and there is something to it. -/
structure Attribute.IsName (name : List Char) : Prop where
  ne_nil : name ≠ []
  not_mem_space : ' ' ∉ name
  not_mem_colon : ':' ∉ name

/-- The main section that lines start with is made up of headers.  A header takes the line that
opens it and the continuations below that line. -/
inductive HasEntries : List (List Char) → List Attribute → Prop where
  /-- The lines may come to an end. -/
  | nil : HasEntries [] []
  /-- What follows a blank line is of no concern. -/
  | blank (lines : List (List Char)) : HasEntries ([] :: lines) []
  /-- A header and the headers after it. -/
  | header {name value : List Char} {more lines : List (List Char)} {as : List Attribute}
      (name_ok : Attribute.IsName name) (more_ok : ∀ line ∈ more, IsContinuation line)
      (rest : HasEntries lines as) :
      HasEntries ((name ++ ':' :: value) :: (more ++ lines))
        (⟨String.ofList name,
          String.ofList (Attribute.dropSpace value ++ more.flatMap List.tail)⟩ :: as)

/-! ### Lines -/

theorem IsContinuation.ne_nil {line : List Char} (h : IsContinuation line) : line ≠ [] := by
  rintro rfl
  exact absurd h (by decide)

theorem IsContinuation.eq_cons {line : List Char} (h : IsContinuation line) :
    line = ' ' :: line.tail := by
  cases line with
  | nil => exact absurd rfl h.ne_nil
  | cons c cs =>
    rw [IsContinuation, List.head?_cons, Option.some.injEq] at h
    rw [h, List.tail_cons]

namespace Attribute

theorem IsName.not_isContinuation {name : List Char} (h : IsName name) (value : List Char) :
    ¬ IsContinuation (name ++ ':' :: value) := by
  intro hline
  cases name with
  | nil => exact h.ne_nil rfl
  | cons c cs =>
    rw [IsContinuation, List.cons_append, List.head?_cons, Option.some.injEq] at hline
    exact h.not_mem_space (hline ▸ List.mem_cons_self)

/-- The name ends at the first colon of the line, so a line opens one header at most. -/
theorem IsName.eq_of_append_eq {name value head rest : List Char} (h : IsName name)
    (hhead : ':' ∉ head) (heq : name ++ ':' :: value = head ++ ':' :: rest) :
    name = head ∧ value = rest := by
  have hname : cutFirst? ':' (name ++ ':' :: value) = some (name, value) :=
    cutFirst?_eq_some_iff.2 ⟨rfl, h.not_mem_colon⟩
  have hother : cutFirst? ':' (name ++ ':' :: value) = some (head, rest) :=
    cutFirst?_eq_some_iff.2 ⟨heq, hhead⟩
  rw [hname, Option.some.injEq, Prod.mk.injEq] at hother
  exact hother

theorem ofLine?_eq_some_iff {line : List Char} {a : Attribute} :
    ofLine? line = some a ↔ ∃ name value, line = name ++ ':' :: value ∧ IsName name ∧
      a = ⟨String.ofList name, String.ofList (dropSpace value)⟩ := by
  unfold ofLine?
  constructor
  · intro h
    split at h
    · contradiction
    · next name value hcut =>
      obtain ⟨hline, hcolon⟩ := cutFirst?_eq_some_iff.1 hcut
      split at h
      · contradiction
      · next hname =>
        rw [not_or] at hname
        exact ⟨name, value, hline, ⟨hname.1, hname.2, hcolon⟩, (Option.some.inj h).symm⟩
  · rintro ⟨name, value, rfl, hname, rfl⟩
    rw [cutFirst?_eq_some_iff.2 ⟨rfl, hname.not_mem_colon⟩]
    simp [hname.ne_nil, hname.not_mem_space]

@[simp] theorem extend_nil (a : Attribute) : a.extend [] = a := by
  simp [extend]

theorem extend_extend (a : Attribute) (some more : List Char) :
    (a.extend some).extend more = a.extend (some ++ more) := by
  simp [extend, String.append_assoc]

end Attribute

/-! ### Main sections -/

section

variable {lines more : List (List Char)} {as : List Attribute}

theorem mainSection_cons {line : List Char} (h : line ≠ []) :
    mainSection (line :: lines) = line :: mainSection lines := by
  simp [mainSection, h]

theorem mainSection_append (h : ∀ line ∈ more, IsContinuation line) :
    mainSection (more ++ lines) = more ++ mainSection lines := by
  induction more with
  | nil => rfl
  | cons line more ih =>
    have hline : line ≠ [] := (h line List.mem_cons_self).ne_nil
    have hmore : ∀ l ∈ more, IsContinuation l := fun l hl => h l (List.mem_cons_of_mem _ hl)
    rw [List.cons_append, mainSection_cons hline, ih hmore, List.cons_append]

/-- The first line opens a header if it is not blank. -/
theorem HasEntries.not_isContinuation_head (h : HasEntries lines as) :
    ∀ line ∈ lines.head?, ¬ IsContinuation line := by
  intro line hline
  cases h with
  | nil => cases hline
  | blank => cases hline; decide
  | header name_ok _ _ => cases hline; exact name_ok.not_isContinuation _

end

/-! ### The reader -/

namespace Attributes

variable {lines : List (List Char)} {as : List Attribute}

/-- Continuations are taken up one by one. -/
theorem entriesFrom_append {more : List (List Char)} (h : ∀ line ∈ more, IsContinuation line)
    (a : Attribute) (i : Nat) (lines : List (List Char)) :
    entriesFrom (some a) i (more ++ lines) =
      entriesFrom (some (a.extend (more.flatMap List.tail))) (i + more.length) lines := by
  induction more generalizing a i with
  | nil => simp
  | cons line more ih =>
    have hline := (h line List.mem_cons_self).eq_cons
    have hmore : ∀ l ∈ more, IsContinuation l := fun l hl => h l (List.mem_cons_of_mem _ hl)
    rw [hline, List.cons_append, entriesFrom_continuation_some, ih hmore, Attribute.extend_extend,
      List.flatMap_cons, List.length_cons, List.tail_cons, Nat.add_assoc, Nat.add_comm 1]

/-- A line that is neither blank nor a continuation is read only if it opens a header. -/
theorem entriesFrom_cons_eq_ok_iff {current : Option Attribute} {i : Nat} {line : List Char}
    (hne : line ≠ []) (hline : ¬ IsContinuation line) :
    entriesFrom current i (line :: lines) = .ok as ↔
      ∃ name value bs, line = name ++ ':' :: value ∧ Attribute.IsName name ∧
        entriesFrom (some ⟨String.ofList name, String.ofList (Attribute.dropSpace value)⟩) (i + 1)
          lines = .ok bs ∧ as = current.toList ++ bs := by
  obtain ⟨c, cs, rfl⟩ := List.exists_cons_of_ne_nil hne
  have hc : c ≠ ' ' := fun hc => hline (by rw [hc]; rfl)
  rw [entriesFrom_cons current i hc]
  constructor
  · intro h
    cases hopens : Attribute.ofLine? (c :: cs) with
    | none => rw [hopens] at h; cases h
    | some a =>
      obtain ⟨name, value, heq, hname, rfl⟩ := Attribute.ofLine?_eq_some_iff.1 hopens
      rw [hopens] at h
      dsimp only at h
      cases hrest : entriesFrom (some ⟨String.ofList name,
          String.ofList (Attribute.dropSpace value)⟩) (i + 1) lines with
      | error e => rw [hrest] at h; cases h
      | ok bs =>
        rw [hrest] at h
        exact ⟨name, value, bs, heq, hname, hrest, (Except.ok.inj h).symm⟩
  · rintro ⟨name, value, bs, heq, hname, hrest, rfl⟩
    rw [Attribute.ofLine?_eq_some_iff.2 ⟨name, value, heq, hname, rfl⟩]
    dsimp only
    rw [hrest]
    rfl

/-- What the grammar describes is read. -/
theorem entriesFrom_of_hasEntries (h : HasEntries lines as) (current : Option Attribute) (i : Nat) :
    entriesFrom current i lines = .ok (current.toList ++ as) := by
  induction h generalizing current i with
  | nil => simp
  | blank lines => simp
  | header name_ok more_ok rest ih =>
    refine (entriesFrom_cons_eq_ok_iff (by simp) (name_ok.not_isContinuation _)).2
      ⟨_, _, _, rfl, name_ok, ?_, rfl⟩
    rw [entriesFrom_append more_ok, ih]
    simp [Attribute.extend]

/-- What is read is as the grammar describes it.  The reader may be in the middle of a value, and
then the lines start with continuations of it. -/
theorem hasEntries_of_entriesFrom {current : Option Attribute} {i : Nat}
    (h : entriesFrom current i lines = .ok as) :
    ∃ more rest bs, lines = more ++ rest ∧ (∀ line ∈ more, IsContinuation line) ∧
      HasEntries rest bs ∧ (current = none → more = []) ∧
      as = (current.map (Attribute.extend · (more.flatMap List.tail))).toList ++ bs := by
  induction lines generalizing current i as with
  | nil =>
    cases h
    exact ⟨[], [], [], rfl, by simp, .nil, fun _ => rfl, by cases current <;> simp⟩
  | cons line lines ih =>
    by_cases hblank : line = []
    · subst hblank
      cases h
      exact ⟨[], [] :: lines, [], rfl, by simp, .blank lines, fun _ => rfl,
        by cases current <;> simp⟩
    · by_cases hline : IsContinuation line
      · -- the line goes to the value that the reader is in the middle of
        rw [hline.eq_cons] at h ⊢
        cases current with
        | none => cases h
        | some a =>
          rw [entriesFrom_continuation_some] at h
          obtain ⟨more, rest, bs, rfl, hmore, hrest, -, rfl⟩ := ih h
          refine ⟨(' ' :: line.tail) :: more, rest, bs, rfl, ?_, hrest, by simp, ?_⟩
          · exact List.forall_mem_cons.2 ⟨rfl, hmore⟩
          · simp [Attribute.extend_extend]
      · -- the line opens a header, and the reader goes on in the middle of its value
        obtain ⟨name, value, bs, rfl, hname, hread, rfl⟩ :=
          (entriesFrom_cons_eq_ok_iff hblank hline).1 h
        obtain ⟨more, rest, cs, rfl, hmore, hrest, -, rfl⟩ := ih hread
        have hentries : HasEntries ((name ++ ':' :: value) :: (more ++ rest)) _ :=
          .header hname hmore hrest
        refine ⟨[], _, _, rfl, by simp, hentries, fun _ => rfl, ?_⟩
        cases current <;> simp [Attribute.extend]

/-- **The reader accepts exactly the grammar.** -/
theorem ofLines_eq_ok_iff {attributes : Attributes} :
    ofLines lines = .ok attributes ↔ HasEntries lines attributes.entries := by
  rw [ofLines]
  constructor
  · intro h
    cases hread : entriesFrom none 0 lines with
    | error e => rw [hread] at h; cases h
    | ok as =>
      rw [hread] at h
      cases h
      obtain ⟨more, rest, bs, rfl, -, hrest, hmore, rfl⟩ := hasEntries_of_entriesFrom hread
      rw [hmore rfl]
      exact hrest
  · intro h
    rw [entriesFrom_of_hasEntries h]
    rfl

end Attributes

end BundleAudit
