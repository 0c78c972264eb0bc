import BundleAudit.CommandLine.Run
import BundleAudit.Proofs.CommandLine.Spelling
import BundleAudit.Proofs.Files.Effects
import BundleAudit.Proofs.Settings.RoundTrip

/-!
# Settings in effect

The settings of a run are the defaults, changed by a document, with further fragments of excluded
paths.  Put into a file and taken as the document of another run they come out unchanged, even if
fragments are given once more: a fragment that is there is not added again.

## Main results

* `Settings.addExcluded_eq_self` — fragments that are there already change nothing.
* `writesFile_of_deliverAnswer` — a run that ends well has put its answer into the file that it was
  asked to write, and has changed nothing else but folders above it.
* `run_config_again` — **settings that have been written are in effect again**.
-/

namespace BundleAudit

open Text

/-! ### Fragments -/

theorem mem_addNew_of_mem {xs : List String} {x : String} (y : String) (h : x ∈ xs) :
    x ∈ addNew xs y := by
  rw [addNew]
  split
  · exact h
  · exact List.mem_append_left _ h

theorem mem_addNew_self (xs : List String) (x : String) : x ∈ addNew xs x := by
  rw [addNew]
  split
  · next h => exact h
  · exact List.mem_append_right _ (List.mem_singleton_self x)

theorem mem_foldl_addNew {xs ys : List String} {x : String} (h : x ∈ xs ∨ x ∈ ys) :
    x ∈ ys.foldl addNew xs := by
  induction ys generalizing xs with
  | nil => exact h.resolve_right List.not_mem_nil
  | cons y ys ih =>
    refine ih ?_
    rcases h with h | h
    · exact Or.inl (mem_addNew_of_mem y h)
    · rcases List.mem_cons.1 h with rfl | h
      · exact Or.inl (mem_addNew_self xs x)
      · exact Or.inr h

namespace Settings

variable {s : Settings} {fragments : List String}

/-- Fragments that are there already change nothing, however often and in whatever order they
come. -/
theorem addExcluded_eq_self (h : ∀ f ∈ fragments, f ∈ s.excludedFragments) :
    s.addExcluded fragments = s := by
  have hfold : fragments.foldl addNew s.excludedFragments = s.excludedFragments := by
    induction fragments with
    | nil => rfl
    | cons f fragments ih =>
      obtain ⟨hf, hrest⟩ := List.forall_mem_cons.1 h
      rw [List.foldl_cons, addNew, if_pos hf]
      exact ih hrest
  rw [addExcluded, hfold]

end Settings

namespace SettingsSource

variable {source : SettingsSource} {fs : FileSystem} {s : Settings}

/-- What the further fragments are added to: the settings of the document, or the defaults. -/
def base (fs : FileSystem) (source : SettingsSource) : Except Failure Settings :=
  match source.document with
  | none => .ok {}
  | some path =>
    match Settings.load fs path with
    | .ok s => .ok s
    | .error e => .error (.document path e)

/-- Settings as they are, if they are acceptable. -/
def accept (s : Settings) : Except Failure Settings :=
  match s.fault? with
  | some fault => .error (.settings fault)
  | none => .ok s

theorem accept_eq_ok_iff {t : Settings} : accept t = .ok s ↔ s = t ∧ t.fault? = none := by
  rw [accept]
  cases t.fault? with
  | none => simp [eq_comm]
  | some fault => simp

theorem resolve_eq : source.resolve fs =
    source.base fs >>= fun before => accept (before.addExcluded source.excluded) := by
  rw [resolve, base]
  -- what the defaults are makes no difference
  generalize ({} : Settings) = defaults
  cases source.document with
  | none =>
    simp only [bind, Except.bind, pure, Except.pure, accept]
    cases (defaults.addExcluded source.excluded).fault? <;> rfl
  | some path =>
    dsimp only
    cases Settings.load fs path with
    | error e => simp only [bind, Except.bind, throw, throwThe, MonadExceptOf.throw]
    | ok s =>
      simp only [bind, Except.bind, pure, Except.pure, accept]
      cases (s.addExcluded source.excluded).fault? <;> rfl

/-- The settings of a run are acceptable and have the fragments asked for. -/
theorem of_resolve (h : source.resolve fs = .ok s) :
    s.fault? = none ∧ ∀ f ∈ source.excluded, f ∈ s.excludedFragments := by
  rw [resolve_eq, FileSystem.bind_eq_ok_iff] at h
  obtain ⟨before, -, haccept⟩ := h
  obtain ⟨rfl, hfault⟩ := accept_eq_ok_iff.1 haccept
  exact ⟨hfault, fun f hf => mem_foldl_addNew (Or.inr hf)⟩

/-- Settings that are loaded are in effect if fragments that they lack are not asked for. -/
theorem resolve_of_load {p : Path} {fragments : List String} (h : Settings.load fs p = .ok s)
    (hfault : s.fault? = none) (hfragments : ∀ f ∈ fragments, f ∈ s.excludedFragments) :
    (SettingsSource.mk (some p) fragments).resolve fs = .ok s := by
  have hbase : (SettingsSource.mk (some p) fragments).base fs = .ok s := by
    rw [base]
    dsimp only
    rw [h]
  rw [resolve_eq, FileSystem.bind_eq_ok_iff]
  refine ⟨s, hbase, ?_⟩
  rw [Settings.addExcluded_eq_self hfragments]
  exact accept_eq_ok_iff.2 ⟨rfl, hfault⟩

end SettingsSource

/-! ### The file -/

theorem Settings.load_of_read {fs : FileSystem} {p : Path} {s : Settings}
    (hfault : s.fault? = none) (h : fs.read p = .ok s.json.spreadLines.toUTF8) :
    Settings.load fs p = .ok s := by
  rw [load, h]
  dsimp only
  rw [ofBytes_spreadLines hfault]

/-- A text is put into a file, and into new folders if need be. -/
theorem writesFile_of_writeText {fs fs' : FileSystem} {p : Path} {text : String}
    (h : writeText fs p text = (fs', none)) : FileSystem.WritesFile p text.toUTF8 fs fs' := by
  rw [writeText] at h
  split at h
  next fs₁ failure hfolders =>
  have hadds : FileSystem.AddsFolders p.parents fs fs₁ := by
    rw [Path.parents]
    cases hparent : p.parent? with
    | none =>
      rw [hparent] at hfolders
      cases hfolders
      exact .refl _ fs
    | some folder =>
      have hmake := FileSystem.addsFolders_makeFoldersUnder folder folder.above fs
      rw [hparent] at hfolders
      cases hfolders
      exact hmake
  split at h
  · cases h
  · split at h
    · next hwrite =>
      cases h
      exact FileSystem.writesFile_of_write hadds hwrite
    · cases h

/-- A run that ends well has changed nothing but its file and folders above it. -/
theorem writesFile_of_deliverAnswer {fs : FileSystem} {p : Path} {code : Nat} {answer note : String}
    (h : (deliverAnswer fs (some p) code answer note).exitCode ≠ 2) :
    ∃ fs', deliverAnswer fs (some p) code answer note = ⟨code, "", note, fs'⟩ ∧
      FileSystem.WritesFile p answer.toUTF8 fs fs' := by
  rw [deliverAnswer] at h ⊢
  cases hwrite : writeText fs p answer with
  | mk fs' failure? =>
    rw [hwrite] at h
    cases failure? with
    | none => exact ⟨fs', rfl, writesFile_of_writeText hwrite⟩
    | some failure => exact absurd rfl h

/-- A run that has put its answer into a file and does not end with 2 has the answer there. -/
theorem read_of_deliverAnswer {fs : FileSystem} {p : Path} {code : Nat} {answer note : String}
    (h : (deliverAnswer fs (some p) code answer note).exitCode ≠ 2) :
    (deliverAnswer fs (some p) code answer note).files.read p = .ok answer.toUTF8 := by
  obtain ⟨fs', heq, hwrites⟩ := writesFile_of_deliverAnswer h
  rw [heq]
  exact hwrites.read

/-! ### Two runs -/

/-- A run that prints the settings in effect. -/
theorem Command.run_config {fs : FileSystem} {source : SettingsSource} {s : Settings}
    (out : Option Path) (h : source.resolve fs = .ok s) :
    (Command.config source out).run fs = deliverAnswer fs out 0 s.json.spreadLines "" := by
  rw [Command.run, h]

/-- A run that ends well has settings. -/
theorem exists_resolve_of_exitCode {fs : FileSystem} {source : SettingsSource} {out : Option Path}
    (h : ((Command.config source out).run fs).exitCode = 0) :
    ∃ s, source.resolve fs = .ok s := by
  cases hresolve : source.resolve fs with
  | ok s => exact ⟨s, rfl⟩
  | error failure =>
    rw [Command.run, hresolve] at h
    cases h

/-- **Settings that have been written are in effect again.**  Acceptable settings are loaded from
the document that is printed for them.  After a run that has put its settings into a file, a run
with that file as its document prints what is in the file, even if it asks once more for fragments
that the first run asked for, as often as it likes and in any order. -/
theorem run_config_again :
    (∀ s : Settings, s.fault? = none →
      (∀ (fs : FileSystem) (source : SettingsSource), source.resolve fs = .ok s →
        (Command.config source none).run fs = ⟨0, s.json.spreadLines, "", fs⟩) ∧
      ∀ (fs : FileSystem) (p : Path), fs.read p = .ok s.json.spreadLines.toUTF8 →
        Settings.load fs p = .ok s) ∧
    ∀ (fs : FileSystem) (arguments : List String) (source : SettingsSource) (p : Path),
      Command.ofArguments arguments = .ok (.config source (some p)) →
      (run fs arguments).exitCode = 0 →
      ∃ text : String, (run fs arguments).files.read p = .ok text.toUTF8 ∧
        ∀ (again : List String) (options : List Argument) (fragments : List String),
          Spells again options → options.Perm (configOptions p fragments) →
          (∀ f ∈ fragments, f ∈ source.excluded) →
          run (run fs arguments).files ("config" :: again) =
            ⟨0, text, "", (run fs arguments).files⟩ := by
  refine ⟨fun s hfault => ⟨fun fs source h => ?_, fun fs p h => Settings.load_of_read hfault h⟩, ?_⟩
  · rw [Command.run_config none h, deliverAnswer]
  intro fs arguments source p harguments hcode
  have hrun : run fs arguments = (Command.config source (some p)).run fs := by
    rw [run, harguments]
  rw [hrun] at hcode ⊢
  obtain ⟨s, hresolve⟩ := exists_resolve_of_exitCode hcode
  obtain ⟨hfault, hexcluded⟩ := SettingsSource.of_resolve hresolve
  rw [Command.run_config (some p) hresolve] at hcode ⊢
  have hread := read_of_deliverAnswer (by rw [hcode]; decide)
  refine ⟨s.json.spreadLines, hread, fun again options fragments hspells horder hfragments => ?_⟩
  -- the file is read in the files that the first run has left
  generalize (deliverAnswer fs (some p) 0 s.json.spreadLines "").files = files at hread ⊢
  obtain ⟨asked, hasked, hagain⟩ :=
    Command.ofArguments_config (FileSystem.text_ne_of_read_eq_ok hread) hspells horder
  have hresolve' : (SettingsSource.mk (some p) asked).resolve files = .ok s :=
    SettingsSource.resolve_of_load (Settings.load_of_read hfault hread) hfault
      fun f hf => hexcluded f (hfragments f (hasked.subset hf))
  rw [run, hagain]
  dsimp only
  rw [Command.run_config none hresolve', deliverAnswer]

/-- Fragments that JSON has to escape are asked for twice, and the file lies in a new folder. -/
theorem run_config_again_escaped :
    let fs := FileSystem.emptyAt []
    let arguments := ["config", "--out", "out/s.json", "--excluded-subfolder=a\"\\\n",
      "--excluded-subfolder", "é", "--excluded-subfolder=é"]
    let files := (run fs arguments).files
    (run fs arguments).exitCode = 0 ∧
      ∃ text : String, files.read ⟨"out/s.json"⟩ = .ok text.toUTF8 ∧
        run files ["config", "--excluded-subfolder", "é", "--config=out/s.json",
          "--excluded-subfolder=a\"\\\n", "--excluded-subfolder=é"] = ⟨0, text, "", files⟩ := by
  intro fs arguments files
  have hcode : (run fs arguments).exitCode = 0 := by decide +kernel
  have harguments : Command.ofArguments arguments =
      .ok (.config ⟨none, ["a\"\\\n", "é", "é"]⟩ (some ⟨"out/s.json"⟩)) :=
    FileSystem.toOption_eq_some_iff.1 (by decide +kernel)
  obtain ⟨text, htext, hagain⟩ := run_config_again.2 fs arguments _ _ harguments hcode
  have hspells : Spells ["--excluded-subfolder", "é", "--config=out/s.json",
      "--excluded-subfolder=a\"\\\n", "--excluded-subfolder=é"]
      [.option .excludedSubfolder "é", .option .config "out/s.json",
        .option .excludedSubfolder "a\"\\\n", .option .excludedSubfolder "é"] :=
    .apart .excludedSubfolder (by decide) (.joined .config "out/s.json"
      (.joined .excludedSubfolder "a\"\\\n" (.joined .excludedSubfolder "é" .nil)))
  exact ⟨hcode, text, htext,
    hagain _ _ ["é", "a\"\\\n", "é"] hspells (List.Perm.swap _ _ _) (by decide)⟩

end BundleAudit
