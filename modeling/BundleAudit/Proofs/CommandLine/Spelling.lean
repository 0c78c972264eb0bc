import BundleAudit.CommandLine.Arguments

/-!
# Spelling options

An option can be spelled in two ways: as one argument, with an equals sign between its name and its
value, or as two, if the value does not look like an option itself.  Options that are spelled in
either way are read.

## Main definitions

* `Spells args options` — the arguments spell the options.

## Main results

* `readOptions_of_spells` — options that are spelled are read.
* `Command.ofArguments_config` — arguments that ask for the settings in effect of a document.
-/

namespace BundleAudit

open Text

variable {args : List String} {options : List Argument} {allowed : List OptionName}

/-- Arguments that spell options, one after the other. -/
inductive Spells : List String → List Argument → Prop where
  /-- No arguments spell no options. -/
  | nil : Spells [] []
  /-- The name and the value are one argument. -/
  | joined (name : OptionName) (value : String) {args : List String} {options : List Argument}
      (h : Spells args options) :
      Spells ((name.text ++ "=" ++ value) :: args) (.option name value :: options)
  /-- The value is an argument of its own. -/
  | apart (name : OptionName) {value : String} {args : List String} {options : List Argument}
      (hvalue : looksLikeOption value = false) (h : Spells args options) :
      Spells (name.text :: value :: args) (.option name value :: options)

/-! ### One option -/

namespace OptionName

theorem text_injective {a b : OptionName} (h : a.text = b.text) : a = b := by
  cases a <;> cases b <;> first | rfl | exact absurd h (by decide)

theorem find?_text {name : OptionName} (h : name ∈ allowed) :
    allowed.find? (fun other => other.text == name.text) = some name := by
  cases hfind : allowed.find? (fun other => other.text == name.text) with
  | none => exact absurd BEq.rfl (List.find?_eq_none.1 hfind name h)
  | some other =>
    have htext : other.text = name.text := by simpa using List.find?_some hfind
    rw [text_injective htext]

end OptionName

theorem splitArgument_append {name : String} (h : '=' ∉ name.toList) (value : String) :
    splitArgument (name ++ "=" ++ value) = (name, some value) := by
  have hcut : cutFirst? '=' (name ++ "=" ++ value).toList = some (name.toList, value.toList) := by
    refine cutFirst?_eq_some_iff.2 ⟨?_, h⟩
    simp
  rw [splitArgument, hcut]
  simp

theorem readOptions_joined {name : OptionName} (h : name ∈ allowed) (value : String) :
    readOptions allowed ((name.text ++ "=" ++ value) :: args) =
      (readOptions allowed args).map (.option name value :: ·) := by
  have hsplit : splitArgument (name.text ++ "=" ++ value) = (name.text, some value) :=
    splitArgument_append (by cases name <;> decide) value
  -- an argument that has no equals sign is not this one
  have hother : ∀ other, splitArgument other = (other, none) →
      name.text ++ "=" ++ value ≠ other := by
    intro other hnone heq
    rw [← heq, hsplit] at hnone
    cases (Prod.mk.inj hnone).2
  have hflag : startsWithFlag 'h' (name.text ++ "=" ++ value) = false := by
    rw [startsWithFlag, String.toList_append, String.toList_append]
    cases name <;> rfl
  rw [readOptions.eq_def]
  dsimp only
  rw [if_neg (hother "--" (by decide)), hflag, hsplit,
    if_neg (not_or.2 ⟨hother "--help" (by decide), Bool.false_ne_true⟩)]
  dsimp only
  rw [OptionName.find?_text h]

theorem readOptions_apart {name : OptionName} (h : name ∈ allowed) {value : String}
    (hvalue : looksLikeOption value = false) :
    readOptions allowed (name.text :: value :: args) =
      (readOptions allowed args).map (.option name value :: ·) := by
  have hsplit : splitArgument name.text = (name.text, none) := by cases name <;> decide
  have hplain : name.text ≠ "--" ∧
      ¬(name.text = "--help" ∨ startsWithFlag 'h' name.text = true) := by
    cases name <;> decide
  rw [readOptions, if_neg hplain.1, if_neg hplain.2, hsplit]
  dsimp only
  rw [OptionName.find?_text h]
  dsimp only
  rw [hvalue, if_neg Bool.false_ne_true]

/-! ### All options -/

/-- Options that are spelled are read, if they are allowed. -/
theorem readOptions_of_spells (h : Spells args options)
    (hallowed : ∀ name value, .option name value ∈ options → name ∈ allowed) :
    readOptions allowed args = .ok options := by
  induction h with
  | nil => rw [readOptions]
  | joined name value h ih =>
    rw [readOptions_joined (hallowed name value List.mem_cons_self),
      ih fun other v hmem => hallowed other v (List.mem_cons_of_mem _ hmem)]
    rfl
  | apart name hvalue h ih =>
    rw [readOptions_apart (hallowed name _ List.mem_cons_self) hvalue,
      ih fun other v hmem => hallowed other v (List.mem_cons_of_mem _ hmem)]
    rfl

theorem Spells.help_not_mem (h : Spells args options) : .help ∉ options := by
  induction h <;> simp_all

/-! ### Settings in effect -/

/-- The options that name a document and fragments. -/
def configOptions (p : Path) (fragments : List String) : List Argument :=
  .option .config p.text :: fragments.map (.option .excludedSubfolder)

theorem valuesOf_cons (name other : OptionName) (value : String) (options : List Argument) :
    valuesOf name (.option other value :: options) =
      (if other = name then [value] else []) ++ valuesOf name options := by
  rw [valuesOf, List.filterMap_cons]
  dsimp only
  by_cases h : other = name
  · rw [if_pos h, if_pos h]
    rfl
  · rw [if_neg h, if_neg h]
    rfl

theorem valuesOf_map_option (name other : OptionName) (values : List String) :
    valuesOf name (values.map (.option other)) = if other = name then values else [] := by
  induction values with
  | nil => split <;> rfl
  | cons value values ih =>
    rw [List.map_cons, valuesOf_cons, ih]
    split <;> rfl

theorem valuesOf_configOptions (name : OptionName) (p : Path) (fragments : List String) :
    valuesOf name (configOptions p fragments) = (if .config = name then [p.text] else []) ++
      if .excludedSubfolder = name then fragments else [] := by
  rw [configOptions, valuesOf_cons, valuesOf_map_option]

/-- The settings in effect can be asked for with the options in any order. -/
theorem Command.ofArguments_config {p : Path} {fragments : List String} (hp : p.text ≠ "")
    (h : Spells args options) (horder : options.Perm (configOptions p fragments)) :
    ∃ again, again.Perm fragments ∧
      ofArguments ("config" :: args) = .ok (.config ⟨some p, again⟩ none) := by
  have hallowed : ∀ name value, .option name value ∈ options → name ∈ OptionName.ofConfig := by
    intro name value hmem
    have hmem : .option name value ∈ configOptions p fragments := horder.subset hmem
    rcases List.mem_cons.1 hmem with heq | hmem
    · cases heq
      decide
    · obtain ⟨f, -, heq⟩ := List.mem_map.1 hmem
      cases heq
      decide
  have hvalues : ∀ name, (valuesOf name options).Perm ((if .config = name then [p.text] else []) ++
      if .excludedSubfolder = name then fragments else []) := by
    intro name
    rw [← valuesOf_configOptions]
    exact horder.filterMap _
  have hconfig : valuesOf .config options = [p.text] :=
    List.perm_singleton.1 (hvalues .config)
  have hout : valuesOf .out options = [] :=
    List.perm_nil.1 (hvalues .out)
  have hexcluded : (valuesOf .excludedSubfolder options).Perm fragments :=
    hvalues .excludedSubfolder
  have honce : checkRepeated OptionName.ofConfig options = .ok () := by
    rw [checkRepeated, OptionName.ofConfig]
    simp [OptionName.isRepeatable, hconfig, hout]
  refine ⟨valuesOf .excludedSubfolder options, hexcluded, ?_⟩
  rw [ofArguments, withOptions, readOptions_of_spells h hallowed]
  simp [honce, sourceOf, pathOf?, valueOf?, hconfig, hout, pathOf, hp, h.help_not_mem, bind,
    Except.bind, pure, Except.pure, Functor.map, Except.map]

end BundleAudit
