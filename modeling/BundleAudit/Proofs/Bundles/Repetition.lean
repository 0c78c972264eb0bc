import BundleAudit.Proofs.CommandLine.AnswerForms
import BundleAudit.Proofs.Files.Spellings

/-!
# Folders that a run audits twice

A run puts the bundles that it meets in order and drops those that it has met before.  It compares
components for that, not folders.  So a folder comes twice if it is met in two spellings with
different components, such as `a` and `./a`, and its findings are counted twice.  It takes arguments
that start differently or go up to meet a folder like that.

## Main definitions

* `FileSystem.Meets fs s bundles workspaces p` — a run meets a bundle in a spelling, first or not.
* `FileSystem.SpellsAlike fs s bundles workspaces f` — the spellings of a folder agree in `f`.
* `FileSystem.Apart fs p q` — no folder is reached by both paths.

## Main results

* `FileSystem.Meets.exists_argument` — what is met lies in an argument.
* `pairwise_apart_iff` — when no folder comes twice.
* `spellsAlike_components_iff` — without double points nothing but the start of a spelling matters.
* `collectBundles_apart_iff` — **when a run audits no folder twice, and how it counts findings**.
-/

namespace BundleAudit

variable {fs : FileSystem} {s : Settings} {p q : Path} {bundles workspaces : List Path}
  {place : List FileName}

/-- A run meets a bundle: it is named, a workspace holds it, or it is the current directory since
nothing is named. -/
def FileSystem.Meets (fs : FileSystem) (s : Settings) (bundles workspaces : List Path) (p : Path) :
    Prop :=
  p ∈ bundles ∨ (∃ w ∈ workspaces, ∃ names, fs.HasBundle s w names ∧ p = w.descend names) ∨
    (bundles = [] ∧ workspaces = [] ∧ p = ⟨"."⟩)

/-- All spellings in which a run meets one folder agree in something. -/
def FileSystem.SpellsAlike {α : Type} (fs : FileSystem) (s : Settings)
    (bundles workspaces : List Path) (f : Path → α) : Prop :=
  ∀ p q place, fs.Meets s bundles workspaces p → fs.Meets s bundles workspaces q →
    fs.LeadsTo p place → fs.LeadsTo q place → f p = f q

/-- No folder is reached by both paths. -/
def FileSystem.Apart (fs : FileSystem) (p q : Path) : Prop :=
  ∀ place, fs.LeadsTo p place → ¬ fs.LeadsTo q place

instance : Std.Symm fs.Apart where
  symm _ _ h place hq hp := h place hp hq

/-! ### What a run meets -/

theorem Path.opening_descend (p : Path) (names : List FileName) :
    (p.descend names).opening = p.opening := by
  have hnames : (names.map fun n => Component.name n.text).filter (fun c => c.rank < 2) = [] := by
    rw [List.filter_eq_nil_iff]
    intro c hc
    obtain ⟨n, -, rfl⟩ := List.mem_map.1 hc
    simp [Component.rank]
  rw [opening, components_descend, List.filter_append, hnames, List.append_nil, opening]

theorem Path.up_mem_descend {names : List FileName}
    (h : Component.up ∈ (p.descend names).components) : Component.up ∈ p.components := by
  rw [components_descend] at h
  refine (List.mem_append.1 h).resolve_right fun hup => ?_
  obtain ⟨n, -, hn⟩ := List.mem_map.1 hup
  cases hn

namespace FileSystem.Meets

theorem eq_here (h : fs.Meets s bundles workspaces p) (hnone : bundles ++ workspaces = []) :
    p = ⟨"."⟩ := by
  obtain ⟨rfl, rfl⟩ := List.append_eq_nil_iff.1 hnone
  rcases h with hp | ⟨w, hw, -⟩ | ⟨-, -, rfl⟩
  · exact absurd hp List.not_mem_nil
  · exact absurd hw List.not_mem_nil
  · rfl

/-- What is met lies in an argument, by names that lead on from it to a folder. -/
theorem exists_argument (h : fs.Meets s bundles workspaces p)
    (hsome : bundles ++ workspaces ≠ [])
    (hfolders : ∀ p ∈ bundles ++ workspaces, fs.isFolder p = true) :
    ∃ a ∈ bundles ++ workspaces, ∃ names place, p = a.descend names ∧ fs.LeadsTo p place := by
  rcases h with hp | ⟨w, hw, names, hbundle, rfl⟩ | ⟨rfl, rfl, -⟩
  · have ha : p ∈ bundles ++ workspaces := List.mem_append_left _ hp
    obtain ⟨entries, hnode⟩ := isFolder_iff.1 (hfolders p ha)
    obtain ⟨place, hplace, -⟩ := exists_leadsTo hnode
    exact ⟨p, ha, [], place, rfl, hplace⟩
  · obtain ⟨entries, hnode, hnames⟩ := hbundle.folder
    obtain ⟨place, hplace, hroot⟩ := exists_leadsTo hnode
    refine ⟨w, List.mem_append_right _ hw, names, place ++ names, rfl, ?_⟩
    rcases hnames with rfl | hfolder
    · rw [List.append_nil]
      exact hplace
    · obtain ⟨-, inner, hinner⟩ := (hasFolder_iff_nodeAt?_root hroot).1 hfolder
      exact hplace.descend hinner
  · exact absurd rfl hsome

/-- What is met comes out in a spelling with the same components, which leads to the same place. -/
theorem exists_mem_ofList (h : fs.Meets s bundles workspaces p)
    (hfolders : ∀ p ∈ bundles ++ workspaces, fs.isFolder p = true)
    (hplace : fs.LeadsTo p place) :
    ∃ q ∈ Ordered.ofList Path.compare (candidates fs s bundles workspaces),
      p.components = q.components ∧ fs.LeadsTo q place := by
  obtain ⟨q, hq, hcompare⟩ : ∃ q ∈ Ordered.ofList Path.compare
      (candidates fs s bundles workspaces), Path.compare p q = .eq :=
    Ordered.exists_mem_ofList (mem_candidates_iff.2 h)
  have hcomponents := Path.compare_eq_iff.1 hcompare
  have hmeets : fs.Meets s bundles workspaces q :=
    mem_candidates_iff.1 (Ordered.mem_of_mem_ofList hq)
  refine ⟨q, hq, hcomponents, ?_⟩
  by_cases hnone : bundles ++ workspaces = []
  · rwa [hmeets.eq_here hnone, ← h.eq_here hnone]
  · obtain ⟨-, -, -, place', -, hplace'⟩ := hmeets.exists_argument hnone hfolders
    rwa [hplace.eq_of_components hplace' hcomponents]

end FileSystem.Meets

/-! ### Folders that come twice -/

/-- **When no folder comes twice**: if all spellings in which it is met have the same components. -/
theorem pairwise_apart_iff (hfolders : ∀ p ∈ bundles ++ workspaces, fs.isFolder p = true) :
    (Ordered.ofList Path.compare (candidates fs s bundles workspaces)).Pairwise fs.Apart ↔
      fs.SpellsAlike s bundles workspaces Path.components := by
  constructor
  · intro hapart p q place hp hq hplace hplace'
    obtain ⟨p', hp', hcomponents, hleads⟩ := hp.exists_mem_ofList hfolders hplace
    obtain ⟨q', hq', hcomponents', hleads'⟩ := hq.exists_mem_ofList hfolders hplace'
    rw [hcomponents, hcomponents']
    by_contra hne
    have hpaths : p' ≠ q' := fun heq => hne (congrArg Path.components heq)
    exact hapart.forall hp' hq' hpaths place hleads hleads'
  · intro h
    refine (Ordered.ascending_ofList _).imp_of_mem fun {p q} hp hq hlt place hplace hplace' => ?_
    have hcomponents := h p q place (mem_candidates_iff.1 (Ordered.mem_of_mem_ofList hp))
      (mem_candidates_iff.1 (Ordered.mem_of_mem_ofList hq)) hplace hplace'
    rw [Path.compare_eq_iff.2 hcomponents] at hlt
    cases hlt

/-! ### Arguments that start alike -/

/-- Spellings agree if those do that lie in arguments: with no arguments there is only one. -/
theorem spellsAlike_of_arguments {α : Type} {f : Path → α}
    (hfolders : ∀ p ∈ bundles ++ workspaces, fs.isFolder p = true)
    (h : ∀ a ∈ bundles ++ workspaces, ∀ b ∈ bundles ++ workspaces, ∀ names names' place,
      fs.Meets s bundles workspaces (a.descend names) →
        fs.Meets s bundles workspaces (b.descend names') →
          fs.LeadsTo (a.descend names) place → fs.LeadsTo (b.descend names') place →
            f (a.descend names) = f (b.descend names')) :
    fs.SpellsAlike s bundles workspaces f := by
  intro p q place hp hq hplace hplace'
  by_cases hnone : bundles ++ workspaces = []
  · rw [hp.eq_here hnone, hq.eq_here hnone]
  · obtain ⟨a, ha, names, -, rfl, -⟩ := hp.exists_argument hnone hfolders
    obtain ⟨b, hb, names', -, rfl, -⟩ := hq.exists_argument hnone hfolders
    exact h a ha b hb names names' place hp hq hplace hplace'

/-- **If no argument goes up** spellings of a folder differ in nothing but their start. -/
theorem spellsAlike_components_iff
    (hfolders : ∀ p ∈ bundles ++ workspaces, fs.isFolder p = true)
    (hup : ∀ a ∈ bundles ++ workspaces, Component.up ∉ a.components) :
    fs.SpellsAlike s bundles workspaces Path.components ↔
      fs.SpellsAlike s bundles workspaces Path.opening := by
  constructor
  · intro h p q place hp hq hplace hplace'
    rw [Path.opening, Path.opening, h p q place hp hq hplace hplace']
  · intro h
    refine spellsAlike_of_arguments hfolders ?_
    intro a ha b hb names names' place hp hq hplace hplace'
    have hopening := h _ _ place hp hq hplace hplace'
    exact hplace.components_eq hplace' hopening (mt Path.up_mem_descend (hup a ha))
      (mt Path.up_mem_descend (hup b hb))

/-- What is met starts like an argument. -/
theorem spellsAlike_opening (hfolders : ∀ p ∈ bundles ++ workspaces, fs.isFolder p = true)
    (hopening : ∀ a ∈ bundles ++ workspaces, ∀ b ∈ bundles ++ workspaces,
      a.opening = b.opening) : fs.SpellsAlike s bundles workspaces Path.opening := by
  refine spellsAlike_of_arguments hfolders ?_
  intro a ha b hb names names' place _ _ _ _
  rw [Path.opening_descend, Path.opening_descend, hopening a ha b hb]

/-- A check counts the findings of its reports, one report after the other. -/
theorem Check.length_records (c : Check) :
    c.records.length = (c.reports.flatMap BundleReport.findings).length := by
  rw [records_eq, List.length_flatMap, List.length_flatMap]
  refine congrArg List.sum (List.map_congr_left fun r _ => ?_)
  rw [BundleReport.records, List.length_map]

/-- **When a run audits no folder twice.**  All that a run has are folders, and the findings of a
folder are counted as often as it comes.  No folder comes twice exactly if all spellings in which
the run meets it agree in their components.  If no argument goes up it is enough that they start
alike, with a slash, a point or neither, and so they do if all arguments start alike. -/
theorem collectBundles_apart_iff {request : CheckRequest}
    (h : ∀ p ∈ request.bundles ++ request.workspaces, fs.isFolder p = true) (s : Settings) :
    ∃ found, collectBundles fs s request.bundles request.workspaces = .ok found ∧
      (request.bundles ++ request.workspaces ≠ [] → ∀ p ∈ found, ∃ place, fs.LeadsTo p place) ∧
      request.check fs s = .ok ⟨s, found.map (audit fs s)⟩ ∧
      (Check.records ⟨s, found.map (audit fs s)⟩).length =
        (found.flatMap fun p => (audit fs s p).findings).length ∧
      (found.Pairwise fs.Apart ↔
        fs.SpellsAlike s request.bundles request.workspaces Path.components) ∧
      ((∀ a ∈ request.bundles ++ request.workspaces, Component.up ∉ a.components) →
        (found.Pairwise fs.Apart ↔
          fs.SpellsAlike s request.bundles request.workspaces Path.opening) ∧
        ((∀ a ∈ request.bundles ++ request.workspaces,
          ∀ b ∈ request.bundles ++ request.workspaces, a.opening = b.opening) →
            found.Pairwise fs.Apart)) := by
  have hfound := collectBundles_of_folders (s := s) h
  refine ⟨_, hfound, ?_, CheckRequest.check_eq hfound, ?_, pairwise_apart_iff h, ?_⟩
  · intro hsome p hp
    have hmeets : fs.Meets s request.bundles request.workspaces p :=
      mem_candidates_iff.1 (Ordered.mem_of_mem_ofList hp)
    obtain ⟨-, -, -, place, -, hplace⟩ := hmeets.exists_argument hsome h
    exact ⟨place, hplace⟩
  · rw [Check.length_records, List.flatMap_map]
  · intro hup
    rw [pairwise_apart_iff h, spellsAlike_components_iff h hup]
    exact ⟨Iff.rfl, fun hopening => spellsAlike_opening h hopening⟩

/-- The bundle is named in two spellings and lies in a workspace that holds another one. -/
theorem collectBundles_apart_overlapping :
    let manifest := [⟨"META-INF", by decide⟩, ⟨"MANIFEST.MF", by decide⟩]
    let fs := ((FileSystem.emptyAt []).putFile (⟨"a", by decide⟩ :: manifest)
      ByteArray.empty).putFile (⟨"a", by decide⟩ :: ⟨"b", by decide⟩ :: manifest) ByteArray.empty
    let request : CheckRequest := ⟨[⟨"a/."⟩, ⟨"a"⟩], [⟨"a//"⟩], ⟨none, []⟩, .text, none, 1⟩
    (∀ p ∈ request.bundles ++ request.workspaces, fs.isFolder p = true) ∧
      collectBundles fs {} request.bundles request.workspaces = .ok [⟨"a/."⟩, ⟨"a//b"⟩] ∧
      [⟨"a/."⟩, ⟨"a//b"⟩].Pairwise fs.Apart := by
  intro manifest fs request
  have hfolders : ∀ p ∈ request.bundles ++ request.workspaces, fs.isFolder p = true := by
    decide +kernel
  have hcollect : collectBundles fs {} request.bundles request.workspaces =
      .ok [⟨"a/."⟩, ⟨"a//b"⟩] :=
    FileSystem.toOption_eq_some_iff.1 (by decide +kernel)
  obtain ⟨found, hfound, -, -, -, -, hstarts⟩ := collectBundles_apart_iff hfolders {}
  rw [hcollect] at hfound
  cases hfound
  exact ⟨hfolders, hcollect, (hstarts (by decide +kernel)).2 (by decide +kernel)⟩

/-- A bundle that is named lies in the current directory, which is the workspace.  It comes twice,
and its only finding is counted twice. -/
theorem not_apart_pointAndName :
    let fs := ((FileSystem.emptyAt []).putFile
        [⟨"a", by decide⟩, ⟨"META-INF", by decide⟩, ⟨"MANIFEST.MF", by decide⟩]
        ByteArray.empty).putFile
      [⟨"a", by decide⟩, ⟨"OSGI-INF", by decide⟩, ⟨"x.xml", by decide⟩] ByteArray.empty
    let request : CheckRequest := ⟨[⟨"a"⟩], [⟨"."⟩], ⟨none, []⟩, .text, none, 1⟩
    (∀ p ∈ request.bundles ++ request.workspaces, fs.isFolder p = true) ∧
      collectBundles fs {} request.bundles request.workspaces = .ok [⟨"./a"⟩, ⟨"a"⟩] ∧
      fs.LeadsTo ⟨"./a"⟩ [⟨"a", by decide⟩] ∧ fs.LeadsTo ⟨"a"⟩ [⟨"a", by decide⟩] ∧
      ¬ [⟨"./a"⟩, ⟨"a"⟩].Pairwise fs.Apart ∧
      (audit fs {} ⟨"a"⟩).findings = [⟨0, .undeclaredService, ["x.xml"]⟩] ∧
      (Check.records ⟨{}, [⟨"./a"⟩, ⟨"a"⟩].map (audit fs {})⟩).length = 2 := by
  intro fs request
  have hfolder : fs.root.nodeAt? [⟨"a", by decide⟩] = some (.folder
      (.sub ⟨"META-INF", by decide⟩ (.file ⟨"MANIFEST.MF", by decide⟩ ByteArray.empty .empty)
        (.sub ⟨"OSGI-INF", by decide⟩ (.file ⟨"x.xml", by decide⟩ ByteArray.empty .empty)
          .empty))) := by
    decide +kernel
  have hpoint : fs.LeadsTo ⟨"./a"⟩ [⟨"a", by decide⟩] :=
    ⟨FileSystem.toOption_eq_some_iff.1 (by decide +kernel), _, hfolder⟩
  have hname : fs.LeadsTo ⟨"a"⟩ [⟨"a", by decide⟩] :=
    ⟨FileSystem.toOption_eq_some_iff.1 (by decide +kernel), _, hfolder⟩
  refine ⟨by decide +kernel, FileSystem.toOption_eq_some_iff.1 (by decide +kernel), hpoint, hname,
    fun hapart => ?_, by decide +kernel, by decide +kernel⟩
  exact List.rel_of_pairwise_cons hapart List.mem_cons_self _ hpoint hname

end BundleAudit
