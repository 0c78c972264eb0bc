import BundleAudit.Proofs.Bundles.Collection
import BundleAudit.Proofs.CommandLine.EffectiveSettings

/-!
# Where an answer goes

A command settles what it answers before it looks at where the answer goes.  So a run that puts its
answer into a file puts there what another run would have printed, even if the file is one that the
run has read; apart from that file, and folders above it that were missing, it leaves everything as
it was.

A run that could not be carried out prints no answer.  It leaves everything as it was unless the
answer itself could not be put into its file.

## Main definitions

* `Command.out?`, `Command.withOut` — the file that takes the answer of a command.
* `Failure.IsOutput` — the answer could not be put into its file.

## Main results

* `Command.run_withOut` — the answer of a command does not depend on where it goes.
* `Command.ofArguments_out` — the option that names the file.
* `run_redirected` — **a file takes what would have been printed, and a run that fails prints
  nothing**.
-/

namespace BundleAudit

open FileSystem (WritesFile)

variable {fs fs' : FileSystem} {p : Path} {command : Command}

/-! ### The file that takes the answer -/

namespace Command

/-- Whether a command has an answer that a file can take. -/
def takesOut : Command → Bool
  | .check _ | .codes _ | .config _ _ => true
  | .version | .help => false

/-- The file that takes the answer of a command. -/
def out? : Command → Option Path
  | .check request => request.out
  | .codes out | .config _ out => out
  | .version | .help => none

/-- A command with another place for its answer. -/
def withOut (out : Option Path) : Command → Command
  | .check request => .check { request with out }
  | .codes _ => .codes out
  | .config source _ => .config source out
  | .version => .version
  | .help => .help

/-- Where the settings of a command come from. -/
def source? : Command → Option SettingsSource
  | .check request => some request.source
  | .config source _ => some source
  | .codes _ | .version | .help => none

@[simp] theorem withOut_out? (command : Command) : command.withOut command.out? = command := by
  cases command <;> rfl

end Command

/-- A check fails whatever the form of its answer and the place for it, or it has found the same for
all forms and places. -/
theorem CheckRequest.run_cases (fs : FileSystem) (request : CheckRequest) :
    (∃ failure, ∀ format out, ({ request with format, out } : CheckRequest).run fs =
        .failed fs failure) ∨
      ∃ s bundles, request.source.resolve fs = .ok s ∧
        collectBundles fs s request.bundles request.workspaces = .ok bundles ∧
        ∀ format out, ({ request with format, out } : CheckRequest).run fs =
          deliverAnswer fs out (Check.mk s (bundles.map (audit fs s))).exitCode
            ((Check.mk s (bundles.map (audit fs s))).answer format).1
            ((Check.mk s (bundles.map (audit fs s))).answer format).2 := by
  cases hresolve : request.source.resolve fs with
  | error failure =>
    left
    refine ⟨failure, fun format out => ?_⟩
    rw [run, hresolve]
  | ok s =>
    cases hbundles : collectBundles fs s request.bundles request.workspaces with
    | error fault =>
      left
      refine ⟨.root fault, fun format out => ?_⟩
      have hcheck : ({ request with format, out } : CheckRequest).check fs s =
          .error (.root fault) := check_error hbundles
      rw [run, hresolve]
      dsimp only
      rw [hcheck]
    | ok bundles =>
      right
      refine ⟨s, bundles, rfl, hbundles, fun format out => ?_⟩
      have hcheck : ({ request with format, out } : CheckRequest).check fs s =
          .ok ⟨s, bundles.map (audit fs s)⟩ := check_eq hbundles
      rw [run, hresolve]
      dsimp only
      rw [hcheck]

theorem Check.exitCode_ne_two (c : Check) : c.exitCode ≠ 2 := by
  rw [exitCode]
  split <;> decide

namespace Command

/-- A command fails before it looks at where its answer goes, or it has an answer that does not
depend on that. -/
theorem run_withOut (fs : FileSystem) (h : command.takesOut = true) :
    (∃ failure, ∀ out, (command.withOut out).run fs = .failed fs failure) ∨
      ∃ code answer note, code ≠ 2 ∧
        ∀ out, (command.withOut out).run fs = deliverAnswer fs out code answer note := by
  cases command with
  | version => cases h
  | help => cases h
  | codes out => exact Or.inr ⟨0, _, _, by decide, fun _ => rfl⟩
  | config source out =>
    cases hresolve : source.resolve fs with
    | error failure =>
      left
      refine ⟨failure, fun out' => ?_⟩
      rw [withOut, run, hresolve]
    | ok s => exact Or.inr ⟨0, _, _, by decide, fun out' => run_config out' hresolve⟩
  | check request =>
    rcases request.run_cases fs with ⟨failure, hfailed⟩ | ⟨s, bundles, -, -, hanswer⟩
    · exact Or.inl ⟨failure, hfailed request.format⟩
    · exact Or.inr ⟨_, _, _, Check.exitCode_ne_two _, hanswer request.format⟩

end Command

/-! ### Putting the answer there -/

/-- The answer could not be put into its file. -/
def Failure.IsOutput : Failure → Prop
  | .folder _ _ | .write _ _ => True
  | .document _ _ | .settings _ | .root _ => False

/-- A write that fails is the fault of the file or of a folder above it. -/
theorem isOutput_of_writeText {text : String} {failure : Failure}
    (h : writeText fs p text = (fs', some failure)) : failure.IsOutput := by
  rw [writeText] at h
  split at h
  next fs₁ before hfolders =>
  have hbefore : ∀ f, before = some f → f.IsOutput := by
    intro f hf
    cases hparent : p.parent? with
    | none =>
      rw [hparent] at hfolders
      cases hfolders
      cases hf
    | some folder =>
      rw [hparent] at hfolders
      cases hfolders
      obtain ⟨e, -, rfl⟩ := Option.map_eq_some_iff.1 hf
      trivial
  split at h
  · next f =>
    cases h
    exact hbefore _ rfl
  · split at h
    · cases h
    · cases h
      trivial

/-- An answer is not given only if it could not be put into its file. -/
theorem deliverAnswer_eq_failed {out : Option Path} {code : Nat} {answer note : String}
    (hcode : code ≠ 2) (h : (deliverAnswer fs out code answer note).exitCode = 2) :
    ∃ fs' failure, deliverAnswer fs out code answer note = .failed fs' failure ∧
      failure.IsOutput := by
  cases out with
  | none => exact absurd h hcode
  | some path =>
    rw [deliverAnswer] at h ⊢
    cases hwrite : writeText fs path answer with
    | mk fs' failure? =>
      rw [hwrite] at h
      cases failure? with
      | none => exact absurd h hcode
      | some failure => exact ⟨fs', failure, rfl, isOutput_of_writeText hwrite⟩

/-! ### Runs that could not be carried out -/

namespace Command

/-- A command that could not be carried out has left everything as it was, unless its answer could
not be put into its file. -/
theorem run_eq_failed (h : (command.run fs).exitCode = 2) :
    ∃ fs' failure, command.run fs = .failed fs' failure ∧ (failure.IsOutput ∨ fs' = fs) := by
  cases htakes : command.takesOut with
  | false =>
    have hcode : (command.run fs).exitCode = 0 := by
      cases command with
      | version | help => rfl
      | check request | codes out | config source out => cases htakes
    rw [hcode] at h
    cases h
  | true =>
    have hself := command.withOut_out?
    rcases run_withOut fs htakes with ⟨failure, hfailed⟩ | ⟨code, answer, note, hcode, hanswer⟩
    · rw [← hself]
      exact ⟨fs, failure, hfailed _, Or.inr rfl⟩
    · rw [← hself, hanswer] at h ⊢
      obtain ⟨fs', failure, heq, houtput⟩ := deliverAnswer_eq_failed hcode h
      exact ⟨fs', failure, heq, Or.inl houtput⟩

/-- Without settings nothing is changed, wherever the answer should go. -/
theorem run_of_resolve_error {source : SettingsSource} {failure : Failure}
    (hsource : command.source? = some source) (h : source.resolve fs = .error failure) :
    command.run fs = .failed fs failure := by
  cases command with
  | check request =>
    cases hsource
    rw [run, CheckRequest.run, h]
  | config source out =>
    cases hsource
    rw [run, h]
  | codes out => cases hsource
  | version => cases hsource
  | help => cases hsource

end Command

namespace SettingsSource

variable {source : SettingsSource} {failure : Failure}

theorem base_eq_error_iff : source.base fs = .error failure ↔
    ∃ path e, source.document = some path ∧ Settings.load fs path = .error e ∧
      failure = .document path e := by
  rw [base]
  cases source.document with
  | none => simp
  | some path =>
    cases hload : Settings.load fs path with
    | ok s => simp [hload]
    | error e =>
      simp only [hload, Except.error.injEq, Option.some.injEq]
      constructor
      · rintro rfl
        exact ⟨path, e, rfl, hload, rfl⟩
      · rintro ⟨path', e', rfl, hload', rfl⟩
        rw [hload] at hload'
        cases hload'
        rfl

theorem accept_eq_error_iff {s : Settings} : accept s = .error failure ↔
    ∃ fault, s.fault? = some fault ∧ failure = .settings fault := by
  rw [accept]
  cases s.fault? with
  | none => simp
  | some fault => simp [eq_comm]

/-- There are no settings if the document cannot be used, or if they are not acceptable once the
further fragments have been added. -/
theorem resolve_eq_error_iff : source.resolve fs = .error failure ↔
    (∃ path e, source.document = some path ∧ Settings.load fs path = .error e ∧
      failure = .document path e) ∨
    ∃ s fault, source.base fs = .ok s ∧ (s.addExcluded source.excluded).fault? = some fault ∧
      failure = .settings fault := by
  rw [resolve_eq, FileSystem.bind_eq_error_iff, base_eq_error_iff]
  refine or_congr_right (exists_congr fun s => ?_)
  rw [accept_eq_error_iff, exists_and_left]

end SettingsSource

/-! ### The option that names the file -/

variable {options : List Argument} {allowed : List OptionName}

/-- An option has no other values because another one is given. -/
theorem valuesOf_cons_of_ne {name other : OptionName} (h : other ≠ name) (value : String) :
    valuesOf name (.option other value :: options) = valuesOf name options := by
  rw [valuesOf_cons, if_neg h, List.nil_append]

theorem checkRepeated_out (h : checkRepeated allowed options = .ok ())
    (hnone : valuesOf .out options = []) (value : String) :
    checkRepeated allowed (.option .out value :: options) = .ok () := by
  have hlength : ∀ name : OptionName,
      (!name.isRepeatable && decide (1 < (valuesOf name (.option .out value :: options)).length)) =
        (!name.isRepeatable && decide (1 < (valuesOf name options).length)) := by
    intro name
    by_cases hname : OptionName.out = name
    · subst hname
      rw [valuesOf_cons, hnone]
      rfl
    · rw [valuesOf_cons_of_ne hname]
  rw [checkRepeated] at h ⊢
  simp only [hlength]
  exact h

theorem valuesOf_eq_nil_of_pathOf? {name : OptionName} (h : pathOf? name options = .ok none) :
    valuesOf name options = [] := by
  rw [pathOf?] at h
  cases hvalue : valueOf? name options with
  | none => exact List.head?_eq_none_iff.1 hvalue
  | some value =>
    rw [hvalue, Option.mapM_some] at h
    cases hpath : pathOf name value with
    | error e =>
      rw [hpath] at h
      cases h
    | ok path =>
      rw [hpath] at h
      cases h

theorem pathOf?_out (hp : p.text ≠ "") :
    pathOf? .out (.option .out p.text :: options) = .ok (some p) := by
  have hvalue : valueOf? .out (.option .out p.text :: options) = some p.text := by
    rw [valueOf?, valuesOf_cons, if_pos rfl]
    rfl
  rw [pathOf?, hvalue, Option.mapM_some, pathOf, if_neg hp]
  rfl

theorem pathOf?_of_ne {name : OptionName} (h : .out ≠ name) (value : String) :
    pathOf? name (.option .out value :: options) = pathOf? name options := by
  rw [pathOf?, pathOf?, valueOf?, valueOf?, valuesOf_cons_of_ne h]

theorem sourceOf_out (value : String) :
    sourceOf (.option .out value :: options) = sourceOf options := by
  rw [sourceOf, sourceOf, pathOf?_of_ne (by decide), valuesOf_cons_of_ne (by decide)]

/-- A check is the same but for the file. -/
theorem checkOf_out {request : CheckRequest} (hp : p.text ≠ "")
    (h : checkOf options = .ok request) (hnone : request.out = none) :
    valuesOf .out options = [] ∧
      checkOf (.option .out p.text :: options) = .ok { request with out := some p } := by
  simp only [checkOf, FileSystem.bind_eq_ok_iff] at h
  obtain ⟨bundles, hbundles, workspaces, hworkspaces, source, hsource, format, hformat, out, hout,
    jobs, hjobs, heq⟩ := h
  cases heq
  have hnone : out = none := hnone
  subst hnone
  refine ⟨valuesOf_eq_nil_of_pathOf? hout, ?_⟩
  simp only [checkOf, FileSystem.bind_eq_ok_iff]
  rw [pathsOf, pathsOf, valueOf?, valueOf?, valuesOf_cons_of_ne (by decide),
    valuesOf_cons_of_ne (by decide), valuesOf_cons_of_ne (by decide),
    valuesOf_cons_of_ne (by decide), sourceOf_out, pathOf?_out hp]
  exact ⟨bundles, hbundles, workspaces, hworkspaces, source, hsource, format, hformat, _, rfl,
    jobs, hjobs, rfl⟩

/-- Arguments that ask for an answer are also accepted with a file for it in front of the other
options. -/
theorem withOptions_out {rest : List String} {build : List Argument → Except UsageError Command}
    (hallowed : .out ∈ allowed) (htakes : command.takesOut = true)
    (hbuild : ∀ options, build options = .ok command →
      valuesOf .out options = [] ∧
        build (.option .out p.text :: options) = .ok (command.withOut (some p)))
    (h : withOptions allowed rest build = .ok command) :
    withOptions allowed ((OptionName.out.text ++ "=" ++ p.text) :: rest) build =
      .ok (command.withOut (some p)) := by
  rw [withOptions] at h ⊢
  simp only [FileSystem.bind_eq_ok_iff] at h ⊢
  obtain ⟨options, hread, ⟨⟩, hrepeated, command', hcommand, heq⟩ := h
  by_cases hhelp : options.contains .help = true
  · rw [if_pos hhelp] at heq
    cases heq
    cases htakes
  rw [if_neg hhelp] at heq
  cases heq
  obtain ⟨hnone, hout⟩ := hbuild options hcommand
  refine ⟨.option .out p.text :: options, ?_, (), checkRepeated_out hrepeated hnone _,
    command.withOut (some p), hout, ?_⟩
  · rw [readOptions_joined hallowed, hread]
    rfl
  · have hhelp' : ¬(Argument.option .out p.text :: options).contains .help = true := by
      simpa using hhelp
    rw [if_neg hhelp']
    rfl

/-- The option that names the file of an answer. -/
theorem Command.ofArguments_out {name : String} {rest : List String} (hp : p.text ≠ "")
    (htakes : command.takesOut = true) (hnone : command.out? = none)
    (h : ofArguments (name :: rest) = .ok command) :
    ofArguments (name :: (OptionName.out.text ++ "=" ++ p.text) :: rest) =
      .ok (command.withOut (some p)) := by
  rw [ofArguments.eq_def] at h
  split at h
  · cases h
  · next rest' heq =>
    cases heq
    rw [ofArguments]
    refine withOptions_out (by decide) htakes (fun options hbuild => ?_) h
    rw [FileSystem.bind_eq_ok_iff] at hbuild
    obtain ⟨request, hrequest, heq⟩ := hbuild
    cases heq
    obtain ⟨hvalues, hout⟩ := checkOf_out hp hrequest hnone
    refine ⟨hvalues, ?_⟩
    rw [hout]
    rfl
  · next rest' heq =>
    cases heq
    rw [ofArguments]
    refine withOptions_out (by decide) htakes (fun options hbuild => ?_) h
    rw [FileSystem.bind_eq_ok_iff] at hbuild
    obtain ⟨out, hout, heq⟩ := hbuild
    cases heq
    have hnone : out = none := hnone
    subst hnone
    refine ⟨valuesOf_eq_nil_of_pathOf? hout, ?_⟩
    rw [pathOf?_out hp]
    rfl
  · next rest' heq =>
    cases heq
    rw [ofArguments]
    refine withOptions_out (by decide) htakes (fun options hbuild => ?_) h
    simp only [FileSystem.bind_eq_ok_iff] at hbuild
    obtain ⟨source, hsource, out, hout, heq⟩ := hbuild
    cases heq
    have hnone : out = none := hnone
    subst hnone
    refine ⟨valuesOf_eq_nil_of_pathOf? hout, ?_⟩
    rw [sourceOf_out, hsource, pathOf?_out hp]
    rfl
  · cases h
    cases htakes
  · split at h
    · cases h
      cases htakes
    · cases h
  · split at h
    · cases h
      cases htakes
    · split at h
      · cases h
        cases htakes
      · cases h

/-! ### Two runs -/

/-- **A file takes what would have been printed, and a run that fails prints nothing.**  Of two runs
with one command, one prints its answer and the other puts it into a file.  If the second one does
not fail they end alike, the file has exactly what the first one has printed, and nothing else has
been changed but folders above the file that were missing; the file may be one that the run has
read.  The option that names the file may stand in front of the others.

A run that ends with 2 prints no answer.  It leaves everything as it was, unless its arguments were
accepted and its answer could not be put into the file.  So a document that cannot be used, settings
that are not acceptable with the further fragments and a path that should be a folder and is none
change nothing, wherever the answer should go. -/
theorem run_redirected (fs : FileSystem) (arguments : List String) :
    (∀ (command : Command) (p : Path) (redirected : List String),
      Command.ofArguments arguments = .ok command → command.takesOut = true →
      command.out? = none →
      Command.ofArguments redirected = .ok (command.withOut (some p)) →
      (run fs redirected).exitCode ≠ 2 →
        (run fs redirected).exitCode = (run fs arguments).exitCode ∧
        (run fs redirected).stderr = (run fs arguments).stderr ∧
        (run fs redirected).stdout = "" ∧
        (run fs redirected).files.read p = .ok (run fs arguments).stdout.toUTF8 ∧
        WritesFile p (run fs arguments).stdout.toUTF8 fs (run fs redirected).files ∧
        (run fs arguments).files = fs) ∧
    (∀ (command : Command) (p : Path) (name : String) (rest : List String),
      arguments = name :: rest → Command.ofArguments arguments = .ok command →
      command.takesOut = true → command.out? = none → p.text ≠ "" →
        Command.ofArguments (name :: ("--out=" ++ p.text) :: rest) =
          .ok (command.withOut (some p))) ∧
    ((run fs arguments).exitCode = 2 → (run fs arguments).stdout = "" ∧
      ((∃ e, Command.ofArguments arguments = .error e ∧ (run fs arguments).files = fs) ∨
        ∃ failure : Failure, (run fs arguments).stderr = failure.message ++ "\n" ∧
          (failure.IsOutput ∨ (run fs arguments).files = fs))) ∧
    (∀ (command : Command) (source : SettingsSource),
      Command.ofArguments arguments = .ok command → command.source? = some source →
        (∀ path e, source.document = some path → Settings.load fs path = .error e →
          run fs arguments = ⟨2, "", (Failure.document path e).message ++ "\n", fs⟩) ∧
        (∀ s fault, source.base fs = .ok s →
          (s.addExcluded source.excluded).fault? = some fault →
            run fs arguments = ⟨2, "", (Failure.settings fault).message ++ "\n", fs⟩)) ∧
    ∀ (request : CheckRequest), Command.ofArguments arguments = .ok (.check request) →
      ∀ p ∈ request.bundles ++ request.workspaces, fs.isFolder p = false →
        ∃ failure : Failure, run fs arguments = ⟨2, "", failure.message ++ "\n", fs⟩ := by
  have hrun : ∀ {args command}, Command.ofArguments args = .ok command →
      run fs args = command.run fs := by
    intro args command h
    rw [run, h]
  refine ⟨?_, ?_, ?_, ?_, ?_⟩
  · intro command p redirected h htakes hnone h' hcode
    have hprints : command.withOut none = command := by
      rw [← hnone, Command.withOut_out?]
    rw [hrun h'] at hcode ⊢
    rw [hrun h]
    rcases Command.run_withOut fs htakes with ⟨failure, hfailed⟩ | ⟨code, answer, note, -, hanswer⟩
    · rw [hfailed] at hcode
      exact absurd rfl hcode
    · have hprinted : command.run fs = deliverAnswer fs none code answer note := by
        rw [← hprints]
        exact hanswer none
      rw [hanswer] at hcode ⊢
      obtain ⟨fs', heq, hwrites⟩ := writesFile_of_deliverAnswer hcode
      rw [heq, hprinted, deliverAnswer]
      exact ⟨rfl, rfl, rfl, hwrites.read, hwrites, rfl⟩
  · rintro command p name rest rfl h htakes hnone hp
    exact Command.ofArguments_out hp htakes hnone h
  · intro hcode
    cases h : Command.ofArguments arguments with
    | error e =>
      rw [run, h]
      exact ⟨rfl, Or.inl ⟨e, rfl, rfl⟩⟩
    | ok command =>
      rw [hrun h] at hcode ⊢
      obtain ⟨fs', failure, heq, houtput⟩ := Command.run_eq_failed hcode
      rw [heq]
      exact ⟨rfl, Or.inr ⟨failure, rfl, houtput⟩⟩
  · intro command source h hsource
    constructor
    · intro path e hdocument hload
      have hresolve := SettingsSource.resolve_eq_error_iff.2
        (Or.inl ⟨path, e, hdocument, hload, rfl⟩)
      rw [hrun h, Command.run_of_resolve_error hsource hresolve]
      rfl
    · intro s fault hbase hfault
      have hresolve := SettingsSource.resolve_eq_error_iff.2
        (Or.inr ⟨s, fault, hbase, hfault, rfl⟩)
      rw [hrun h, Command.run_of_resolve_error hsource hresolve]
      rfl
  · intro request h p hp hfolder
    obtain ⟨failure, hfailed⟩ := CheckRequest.run_of_not_folder hp hfolder
    refine ⟨failure, ?_⟩
    rw [hrun h, Command.run, hfailed]
    rfl

/-- A bundle in the current directory.  Its manifest declares a descriptor that is not there. -/
def bundleWithoutDescriptor : FileSystem :=
  (FileSystem.emptyAt []).putFile [⟨"META-INF", by decide⟩, ⟨"MANIFEST.MF", by decide⟩]
    "Service-Component: OSGI-INF/a.xml\n".toUTF8

/-- The answer of a check takes the place of the manifest that it is about. -/
theorem run_redirected_manifest :
    let printed := run bundleWithoutDescriptor ["check"]
    let written := run bundleWithoutDescriptor ["check", "--out=META-INF/MANIFEST.MF"]
    written.exitCode = 1 ∧ printed.exitCode = 1 ∧ written.stderr = printed.stderr ∧
      written.files.read ⟨"META-INF/MANIFEST.MF"⟩ = .ok printed.stdout.toUTF8 := by
  intro printed written
  have hcode : (run bundleWithoutDescriptor ["check", "--out=META-INF/MANIFEST.MF"]).exitCode =
      1 := by
    decide +kernel
  have hcommand : Command.ofArguments ["check"] =
      .ok (.check ⟨[], [], ⟨none, []⟩, .text, none, 1⟩) :=
    FileSystem.toOption_eq_some_iff.1 (by decide +kernel)
  obtain ⟨hredirected, hout, -⟩ := run_redirected bundleWithoutDescriptor ["check"]
  have haccepted := hout _ ⟨"META-INF/MANIFEST.MF"⟩ "check" [] rfl hcommand rfl rfl (by decide)
  obtain ⟨hsame, hnote, -, hread, -⟩ := hredirected _ ⟨"META-INF/MANIFEST.MF"⟩
    ["check", "--out=META-INF/MANIFEST.MF"] hcommand rfl rfl haccepted (by rw [hcode]; decide)
  exact ⟨hcode, hsame ▸ hcode, hnote, hread⟩

end BundleAudit
