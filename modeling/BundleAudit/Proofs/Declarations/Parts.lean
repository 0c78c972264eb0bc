import BundleAudit.Declaration
import BundleAudit.Proofs.Text.Trimming
import Mathlib.Data.List.Induction
import Mathlib.Logic.Relation

/-!
# Parts of a declaration

The text of a declaration is a path: names between slashes, of which the last is the base name and
the last one before that which is not empty is the folder.  Both are cut off from the right, by two
different cuts.  Seen from the names between the slashes the cuts agree, and it becomes clear that
further slashes beside the ones that are there make no difference.

## Main definitions

* `namedParts cs` — the names between the slashes of a path, empty ones left out.
* `AddsSlash cs cs'` — one more slash, at a place where it says nothing.

## Main results

* `lastFolder_eq` — the folder is the last of the names that are not empty.
* `AddsSlash.parts` — a further slash changes neither the base name nor the names before it.
* `Declaration.ofText_parts` — **what the parts of a declaration are**.
-/

namespace BundleAudit

open Text

variable {s : Settings} {cs cs' front back a b : List Char}

/-! ### Names between slashes -/

/-- The names between the slashes of a path, empty ones left out. -/
def namedParts (cs : List Char) : List (List Char) := (cs.splitOn '/').filter (· ≠ [])

theorem namedParts_append_cons (a b : List Char) :
    namedParts (a ++ '/' :: b) = namedParts a ++ namedParts b := by
  rw [namedParts, List.splitOn_append_cons_self, List.filter_append, namedParts, namedParts]

theorem namedParts_of_not_mem (h : '/' ∉ cs) (hne : cs ≠ []) : namedParts cs = [cs] := by
  rw [namedParts, List.splitOn_eq_singleton h]
  exact List.filter_cons_of_pos (decide_eq_true hne)

@[simp] theorem namedParts_nil : namedParts [] = [] := rfl

/-- A slash in front of a path starts no further name. -/
theorem namedParts_cons_slash (cs : List Char) : namedParts ('/' :: cs) = namedParts cs :=
  namedParts_append_cons [] cs

/-- Nor does one behind it. -/
theorem namedParts_concat_slash (cs : List Char) : namedParts (cs ++ ['/']) = namedParts cs := by
  rw [namedParts_append_cons, namedParts_nil, List.append_nil]

theorem lastFolder_concat_slash (cs : List Char) : lastFolder (cs ++ ['/']) = lastFolder cs := by
  rw [lastFolder, List.reverse_concat, List.dropWhile_cons_of_pos (by decide), lastFolder]

/-- Without a slash at its end a path ends with what stands behind the last one. -/
theorem lastFolder_append (ha : a = [] ∨ a.getLast? = some '/') (hb : '/' ∉ b) (hne : b ≠ []) :
    lastFolder (a ++ b) = b := by
  have hslash : ∀ c ∈ b.reverse, decide (c ≠ '/') = true := fun c hc =>
    decide_eq_true fun heq => hb (heq ▸ List.mem_reverse.1 hc)
  have hdrop : (b.reverse ++ a.reverse).dropWhile (· = '/') = b.reverse ++ a.reverse := by
    cases hrev : b.reverse with
    | nil => exact absurd (List.reverse_eq_nil_iff.1 hrev) hne
    | cons c rest =>
      have hc := hslash c (hrev ▸ List.mem_cons_self)
      exact List.dropWhile_cons_of_neg (by simpa using hc)
  have htake : a.reverse.takeWhile (fun c => decide (c ≠ '/')) = [] := by
    rcases ha with rfl | ha
    · rfl
    · rw [← List.head?_reverse] at ha
      cases hrev : a.reverse with
      | nil => rfl
      | cons c rest =>
        rw [hrev, List.head?_cons, Option.some.injEq] at ha
        exact List.takeWhile_cons_of_neg (by simp [ha])
  rw [lastFolder, List.reverse_append, hdrop, List.takeWhile_append_of_pos hslash, htake,
    List.append_nil, List.reverse_reverse]

theorem lastFolder_of_not_mem (h : '/' ∉ cs) : lastFolder cs = cs := by
  by_cases hne : cs = []
  · rw [hne]
    rfl
  · have hlast : lastFolder ([] ++ cs) = cs := lastFolder_append (Or.inl rfl) h hne
    exact hlast

/-- The folder is the last of the names that are not empty. -/
theorem lastFolder_eq (cs : List Char) : lastFolder cs = (namedParts cs).getLast?.getD [] := by
  induction cs using List.reverseRecOn with
  | nil => rfl
  | append_singleton cs c ih =>
    by_cases hc : c = '/'
    · rw [hc, lastFolder_concat_slash, namedParts_concat_slash, ih]
    -- the last name ends with this character and starts behind the last slash
    cases hcut : cutLast? '/' cs with
    | none =>
      have hmem : '/' ∉ cs ++ [c] := by
        simpa [Ne.symm hc] using cutLast?_eq_none_iff.1 hcut
      have hne : cs ++ [c] ≠ [] := List.append_ne_nil_of_right_ne_nil cs (List.cons_ne_nil c [])
      rw [lastFolder_of_not_mem hmem, namedParts_of_not_mem hmem hne]
      rfl
    | some p =>
      obtain ⟨hcs, hmem⟩ := cutLast?_eq_some_iff.1 hcut
      have hmem' : '/' ∉ p.2 ++ [c] := by simpa [Ne.symm hc] using hmem
      have hne : p.2 ++ [c] ≠ [] := List.append_ne_nil_of_right_ne_nil _ (List.cons_ne_nil c [])
      have hlast : lastFolder ((p.1 ++ ['/']) ++ (p.2 ++ [c])) = p.2 ++ [c] :=
        lastFolder_append (Or.inr List.getLast?_concat) hmem' hne
      have hcut' : cs ++ [c] = p.1 ++ '/' :: (p.2 ++ [c]) := by rw [hcs]; simp
      have happend : (p.1 ++ ['/']) ++ (p.2 ++ [c]) = p.1 ++ '/' :: (p.2 ++ [c]) := by simp
      rw [happend] at hlast
      rw [hcut', hlast, namedParts_append_cons, namedParts_of_not_mem hmem' hne,
        List.getLast?_concat]
      rfl

/-! ### The two cuts -/

namespace Declaration

theorem split_of_not_mem (h : '/' ∉ cs) : split cs = ([], cs) := by
  rw [split, cutLast?_eq_none_iff.2 h, Option.getD_none]

theorem split_append_cons (h : '/' ∉ b) : split (a ++ '/' :: b) = (a, b) := by
  rw [split, cutLast?_eq_some_iff.2 ⟨rfl, h⟩, Option.getD_some]

/-- A text with a slash is its folder part, that slash and its base name. -/
theorem append_split (h : '/' ∈ cs) : cs = (split cs).1 ++ '/' :: (split cs).2 := by
  cases hcut : cutLast? '/' cs with
  | none => exact absurd h (cutLast?_eq_none_iff.1 hcut)
  | some p =>
    rw [split, hcut, Option.getD_some]
    exact (cutLast?_eq_some_iff.1 hcut).1

end Declaration

/-! ### Further slashes -/

/-- One more slash, beside one that is there or, if there is none, in front of the base name. -/
inductive AddsSlash : List Char → List Char → Prop where
  /-- Beside a slash. -/
  | beside (front back : List Char) : AddsSlash (front ++ '/' :: back) (front ++ '/' :: '/' :: back)
  /-- In front of a text that is nothing but a base name. -/
  | inFront {cs : List Char} (h : '/' ∉ cs) : AddsSlash cs ('/' :: cs)

/-- Further slashes. -/
def AddsSlashes : List Char → List Char → Prop := Relation.ReflTransGen AddsSlash

/-- A further slash is not at the end of a name, so the text is as trimmed as before. -/
theorem AddsSlash.trim_eq (h : AddsSlash cs cs') (htrim : trim cs = cs) : trim cs' = cs' := by
  have hslash : ¬ isBlank '/' := by decide
  cases h with
  | beside front back =>
    rw [trim_append_cons hslash] at htrim
    have hfront : trimStart front = front := by
      refine trimStart_eq_self_iff.2 fun c hc => ?_
      rw [← trim_append_cons hslash] at htrim
      have hhead : (trim (front ++ '/' :: back)).head? = some c := by
        rw [htrim, List.head?_append, hc, Option.some_or]
      exact not_isBlank_of_head?_trim hhead
    have hback : trimEnd back = back := by
      rw [hfront] at htrim
      exact (List.cons.inj (List.append_cancel_left htrim)).2
    have hcons : trimEnd ([] ++ '/' :: back) = [] ++ '/' :: trimEnd back :=
      trimEnd_append_cons hslash
    rw [List.nil_append, List.nil_append] at hcons
    rw [trim_append_cons hslash, hfront, hcons, hback]
  | inFront =>
    have hend : trimEnd cs = cs := by
      refine trimEnd_eq_self_iff.2 fun c hc => ?_
      rw [← htrim] at hc
      exact not_isBlank_of_getLast?_trim hc
    have hcons : trim ([] ++ '/' :: cs) = trimStart [] ++ '/' :: trimEnd cs :=
      trim_append_cons hslash
    rw [hend] at hcons
    exact hcons

/-- A further slash changes neither the base name nor the names before it. -/
theorem AddsSlash.parts (h : AddsSlash cs cs') :
    (Declaration.split cs').2 = (Declaration.split cs).2 ∧
      namedParts (Declaration.split cs').1 = namedParts (Declaration.split cs).1 := by
  cases h with
  | beside front back =>
    cases hcut : cutLast? '/' back with
    | none =>
      -- the slash is the last one
      have hback := cutLast?_eq_none_iff.1 hcut
      have hsplit : Declaration.split ((front ++ ['/']) ++ '/' :: back) =
          (front ++ ['/'], back) := Declaration.split_append_cons hback
      rw [List.append_assoc, List.singleton_append] at hsplit
      rw [hsplit, Declaration.split_append_cons hback]
      exact ⟨rfl, namedParts_concat_slash front⟩
    | some p =>
      obtain ⟨rfl, hbase⟩ := cutLast?_eq_some_iff.1 hcut
      have hsplit : ∀ mid, Declaration.split (front ++ (mid ++ '/' :: p.2)) =
          (front ++ mid, p.2) := fun mid => by
        rw [← List.append_assoc]
        exact Declaration.split_append_cons hbase
      have hone := hsplit ('/' :: p.1)
      have htwo := hsplit ('/' :: '/' :: p.1)
      rw [List.cons_append] at hone
      rw [List.cons_append, List.cons_append] at htwo
      rw [hone, htwo]
      refine ⟨rfl, ?_⟩
      rw [namedParts_append_cons, namedParts_append_cons, namedParts_cons_slash]
  | inFront hcs =>
    have hsplit : Declaration.split ([] ++ '/' :: cs) = ([], cs) :=
      Declaration.split_append_cons hcs
    rw [List.nil_append] at hsplit
    rw [hsplit, Declaration.split_of_not_mem hcs]
    exact ⟨rfl, rfl⟩

/-- Any number of further slashes: the text stays trimmed and keeps its names. -/
theorem AddsSlashes.parts (h : AddsSlashes cs cs') (htrim : trim cs = cs) :
    trim cs' = cs' ∧ (Declaration.split cs').2 = (Declaration.split cs).2 ∧
      namedParts (Declaration.split cs').1 = namedParts (Declaration.split cs).1 := by
  induction h with
  | refl => exact ⟨htrim, rfl, rfl⟩
  | tail _ hstep ih =>
    obtain ⟨htrim', hbase, hnames⟩ := ih
    obtain ⟨hbase', hnames'⟩ := hstep.parts
    exact ⟨hstep.trim_eq htrim', hbase'.trans hbase, hnames'.trans hnames⟩

/-! ### Declarations -/

namespace Declaration

/-- What is left of a declaration without the extension, with the extension put back. -/
theorem stem_append_eq_iff (s : Settings) (text : String) :
    (ofText s text).stem s ++ s.descriptorExtension = (ofText s text).baseName ↔
      (ofText s text).hasExtension = true := by
  rw [stem, Settings.stem, ← String.toList_inj, String.toList_append, String.toList_ofList]
  simp only [ofText, String.toList_ofList]
  generalize (split (trim text.toList)).2 = base
  cases hstem : s.descriptorExtension.toList.isSuffixOf? base with
  | some stem =>
    have hsuffix : s.descriptorExtension.toList.isSuffixOf base = true := by
      rw [← List.isSome_isSuffixOf?_eq_isSuffixOf, hstem]
      rfl
    rw [hsuffix]
    exact iff_of_true (List.isSuffixOf?_eq_some_iff_append_eq.1 hstem) rfl
  | none =>
    have hsuffix : s.descriptorExtension.toList.isSuffixOf base = false := by
      rw [← List.isSome_isSuffixOf?_eq_isSuffixOf, hstem]
      rfl
    -- with the empty extension nothing would be missing
    have happend : base ++ s.descriptorExtension.toList ≠ base := by
      intro heq
      have hnil : s.descriptorExtension.toList = [] := List.append_right_eq_self.1 heq
      rw [hnil] at hsuffix
      exact absurd hsuffix (by simp)
    rw [hsuffix]
    exact iff_of_false happend (by decide)

/-- The parts of a declaration, and nothing else of its text, make up what it says. -/
theorem ofText_congr {text text' : String}
    (hbase : (split (trim text'.toList)).2 = (split (trim text.toList)).2)
    (hnames : namedParts (split (trim text'.toList)).1 = namedParts (split (trim text.toList)).1) :
    ofText s text' = { ofText s text with raw := String.ofList (trim text'.toList) } := by
  simp only [ofText, lastFolder_eq, hbase, hnames]

/-- **What the parts of a declaration are.**  Its text is the given one without the white space
around it.  The base name has no slash in it; it is the whole text if that has no slash, and else
what follows the last one.  The folder is the last of the names before that slash which is not
empty, and empty if there is none.  A declaration has the extension exactly if its base name is its
stem with the extension behind it.  The text of a declaration leads to the same declaration again.
Further slashes in front of the base name or beside another slash change nothing but the text.  And
a declaration is in the descriptors folder, which has a name, exactly if that name is the last one
before the base name. -/
theorem ofText_parts (s : Settings) (text : String) :
    let r := trim text.toList
    let d := ofText s text
    d.raw.toList = r ∧ '/' ∉ d.baseName.toList ∧
      ('/' ∉ r → d.baseName.toList = r ∧ d.parentDirectory = "") ∧
      ('/' ∈ r → ∃ dir, r = dir ++ '/' :: d.baseName.toList ∧
        d.parentDirectory.toList = ((dir.splitOn '/').filter (· ≠ [])).getLast?.getD []) ∧
      (d.stem s ++ s.descriptorExtension = d.baseName ↔ d.hasExtension = true) ∧
      ofText s d.raw = d ∧
      (∀ front back cs, IsBlank front → IsBlank back → AddsSlashes r cs →
        ofText s (String.ofList (front ++ cs ++ back)) = { d with raw := String.ofList cs }) ∧
      (s.descriptorsFolder ≠ "" → (d.inDescriptorsFolder s = true ↔
        ∃ dir, r = dir ++ '/' :: d.baseName.toList ∧
          ((dir.splitOn '/').filter (· ≠ [])).getLast? = some s.descriptorsFolder.toList)) := by
  intro r d
  have hraw : d.raw.toList = r := String.toList_ofList
  have hbase : d.baseName.toList = (split r).2 := String.toList_ofList
  have hfolder : d.parentDirectory.toList = (namedParts (split r).1).getLast?.getD [] := by
    rw [← lastFolder_eq]
    exact String.toList_ofList
  have hslash : '/' ∉ (split r).2 := not_mem_split_slash r
  -- the text determines the folder part
  have hdir : ∀ {dir}, r = dir ++ '/' :: (split r).2 → (split r).1 = dir := by
    intro dir hr
    have hsplit := split_append_cons (a := dir) hslash
    rw [← hr] at hsplit
    rw [hsplit]
  refine ⟨hraw, hbase ▸ hslash, fun hr => ?_, fun hr => ?_, stem_append_eq_iff s text, ?_, ?_, ?_⟩
  · rw [split_of_not_mem hr] at hbase hfolder
    exact ⟨hbase, String.toList_eq_nil_iff.1 hfolder⟩
  · exact ⟨(split r).1, hbase ▸ append_split hr, hfolder⟩
  · have htrim : trim d.raw.toList = trim text.toList := by rw [hraw, trim_trim]
    have hsame : ofText s d.raw = { d with raw := String.ofList (trim d.raw.toList) } :=
      ofText_congr (by rw [htrim]) (by rw [htrim])
    rw [hsame, htrim]
    rfl
  · intro front back cs hfront hback hcs
    obtain ⟨htrim, hbase', hnames'⟩ := hcs.parts (trim_trim text.toList)
    have hspaced : trim (String.ofList (front ++ cs ++ back)).toList = cs := by
      rw [String.toList_ofList, trim_append_of_isBlank_right hback,
        trim_append_of_isBlank_left hfront, htrim]
    have hsame : ofText s (String.ofList (front ++ cs ++ back)) =
        { d with raw := String.ofList (trim (String.ofList (front ++ cs ++ back)).toList) } :=
      ofText_congr (by rw [hspaced, hbase']) (by rw [hspaced, hnames'])
    rw [hsame, hspaced]
  · intro hne
    have hne' : s.descriptorsFolder.toList ≠ [] := fun h => hne (String.toList_eq_nil_iff.1 h)
    rw [inDescriptorsFolder, beq_iff_eq, ← String.toList_inj, hfolder, hbase]
    constructor
    · intro hlast
      -- a name is there, so there is a slash
      have hr : '/' ∈ r := by
        by_contra hr
        rw [split_of_not_mem hr] at hlast
        exact hne' hlast.symm
      refine ⟨(split r).1, append_split hr, ?_⟩
      cases hparts : (namedParts (split r).1).getLast? with
      | none => exact absurd (by rw [← hlast, hparts]; rfl) hne'
      | some name => rw [← hlast, hparts]; exact hparts
    · rintro ⟨dir, hr, hlast⟩
      rw [hdir hr, namedParts, hlast, Option.getD_some]

/-- An absolute path with white space around it, a doubled slash and further slashes at two places;
and a text that is nothing but a base name. -/
theorem ofText_parts_absolute :
    let s : Settings := {}
    let text := "\u3000//OSGI-INF/*.xml\t"
    let cs := "///OSGI-INF//*.xml".toList
    '/' ∈ trim text.toList ∧ '/' ∉ trim " a.xml".toList ∧ IsBlank ['\n'] ∧ IsBlank [] ∧
      AddsSlashes (trim text.toList) cs ∧ s.descriptorsFolder ≠ "" ∧
      (∃ dir, trim text.toList = dir ++ '/' :: (ofText s text).baseName.toList ∧
        (ofText s text).parentDirectory.toList =
          ((dir.splitOn '/').filter (· ≠ [])).getLast?.getD []) ∧
      (ofText s " a.xml").baseName.toList = trim " a.xml".toList ∧
      ofText s (String.ofList (['\n'] ++ cs ++ [])) =
        { ofText s text with raw := String.ofList cs } ∧
      (ofText s text).inDescriptorsFolder s = true := by
  intro s text cs
  have hslash : '/' ∈ trim text.toList := by decide +kernel
  have hplain : '/' ∉ trim " a.xml".toList := by decide +kernel
  have hadds : AddsSlashes (trim text.toList) cs := by
    have htrim : trim text.toList = [] ++ '/' :: "/OSGI-INF/*.xml".toList := by decide +kernel
    have hfirst : AddsSlash (trim text.toList) ("//".toList ++ '/' :: "OSGI-INF/*.xml".toList) := by
      rw [htrim]
      exact .beside [] _
    exact (Relation.ReflTransGen.single hfirst).tail (.beside "///OSGI-INF".toList "*.xml".toList)
  have hne : s.descriptorsFolder ≠ "" := by decide
  obtain ⟨-, -, -, hdir, -, -, hmore, hfolder⟩ := ofText_parts s text
  refine ⟨hslash, hplain, by decide, by decide, hadds, hne, hdir hslash,
    ((ofText_parts s " a.xml").2.2.1 hplain).1, hmore _ _ cs (by decide) (by decide) hadds,
    (hfolder hne).2 ⟨"//OSGI-INF".toList, by decide +kernel, by decide +kernel⟩⟩

end Declaration

end BundleAudit
