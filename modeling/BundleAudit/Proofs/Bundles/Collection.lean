import BundleAudit.Proofs.Discovery.Exactness
import BundleAudit.Proofs.Files.Components
import BundleAudit.Proofs.Files.LongPaths
import BundleAudit.Proofs.WorkerPool.Schedules
import Mathlib.Data.List.Induction

/-!
# Which bundles a run has

A run has the bundles that are named one by one and those that its workspaces hold, each once.  Two
spellings of a path name the same bundle if they agree in their components; of these the spelling
that is met first is the one shown.

A folder below a workspace is met if none of the names on the way to it is to be skipped and the
folder that it lies in can be opened.  With a relative manifest path the latter goes without saying,
since the path of the manifest is longer than that of any folder above it.  With an absolute one it
does not, and then a workspace may hold a bundle that is not met.

## Main definitions

* `FileSystem.HoldsBundle fs s workspace names` — the names lead from a workspace to a bundle.
* `FileSystem.HasBundle fs s workspace names` — and a walk gets to it.
* `FileSystem.Shows fs s bundles workspaces p` — a run shows a bundle in the spelling `p`.

## Main results

* `mem_bundlesBelow_iff` — what a workspace holds.
* `collectBundles_exact` — **a run has exactly the bundles that it meets, each once**.
-/

namespace BundleAudit

/-! ### What a workspace holds -/

open Folder (NoneSkipped)

variable {fs : FileSystem} {s : Settings} {p q workspace : Path} {names : List FileName}
  {bundles workspaces : List Path}

/-- The names lead from a workspace to a bundle. -/
structure FileSystem.HoldsBundle (fs : FileSystem) (s : Settings) (workspace : Path)
    (names : List FileName) : Prop where
  /-- They lead to the workspace itself or to a folder below it. -/
  folder : ∃ entries, fs.node workspace = .ok (.folder entries) ∧
    (names = [] ∨ entries.HasFolder names)
  /-- None of them is to be skipped. -/
  skipped : NoneSkipped s.skippedFolders names
  /-- There is a file at the path of the manifest. -/
  manifest : fs.isFile (s.manifestOf (workspace.descend names)) = true

/-- The names lead from a workspace to a bundle, and a walk gets to it. -/
structure FileSystem.HasBundle (fs : FileSystem) (s : Settings) (workspace : Path)
    (names : List FileName) : Prop extends fs.HoldsBundle s workspace names where
  /-- An absolute path leads to the same manifest from every folder, so the walk has to get to the
  folder without it. -/
  reached : Path.isAbsolute ⟨s.manifestPath⟩ = true →
    (workspace.descend names.dropLast).isTooLong = false

/-- What can be read from a folder over a relative path has both their lengths. -/
theorem lt_byteLimit_of_manifest (hrelative : Path.isAbsolute ⟨s.manifestPath⟩ = false)
    (h : fs.isFile (s.manifestOf p) = true) :
    p.text.utf8ByteSize + s.manifestPath.utf8ByteSize < Path.byteLimit := by
  have hmanifest : (s.manifestOf p).isTooLong = false := by
    rw [FileSystem.isFile] at h
    split at h
    · next hnode => exact not_isTooLong_of_node hnode
    · cases h
  rw [Path.isTooLong, decide_eq_false_iff_not, Nat.not_le] at hmanifest
  exact Nat.lt_of_le_of_lt (Path.utf8ByteSize_join hrelative) hmanifest

/-- A folder whose manifest can be read from there has a path that can be followed. -/
theorem opensFrom_of_manifest (hrelative : Path.isAbsolute ⟨s.manifestPath⟩ = false)
    (h : fs.isFile (s.manifestOf (workspace.descend names)) = true) :
    Folder.opensFrom workspace names = true := by
  have hlimit := lt_byteLimit_of_manifest hrelative h
  rw [opensFrom_iff, Path.isTooLong, decide_eq_false_iff_not]
  omega

theorem opensFrom_dropLast (h : Folder.opensFrom workspace names = true) :
    Folder.opensFrom workspace names.dropLast = true := by
  cases names using List.reverseRecOn with
  | nil => exact h
  | append_singleton front n =>
    rw [List.dropLast_concat]
    exact Folder.opensFrom_of_append h

/-- A workspace holds the bundles that its names lead to. -/
theorem mem_bundlesBelow_iff :
    p ∈ bundlesBelow fs s workspace ↔
      ∃ names, fs.HasBundle s workspace names ∧ p = workspace.descend names := by
  rw [bundlesBelow]
  constructor
  · intro h
    split at h
    · next entries hnode =>
      obtain ⟨hmem, hmanifest⟩ := List.mem_filter.1 h
      obtain ⟨names, hnames, rfl⟩ := List.mem_map.1 hmem
      obtain ⟨hfolder, hopens⟩ := Folder.mem_foldersFrom_iff.1 hnames
      refine ⟨names, ⟨⟨⟨entries, hnode, hfolder.imp_right And.left⟩, ?_, hmanifest⟩,
        fun _ => opensFrom_iff.1 hopens⟩, rfl⟩
      rcases hfolder with rfl | ⟨-, hskip⟩
      · exact fun n hn => absurd hn List.not_mem_nil
      · exact hskip
    · exact absurd h List.not_mem_nil
  · rintro ⟨names, ⟨⟨⟨entries, hnode, hfolder⟩, hskip, hmanifest⟩, hreached⟩, rfl⟩
    have hopens : Folder.opensFrom workspace names.dropLast = true := by
      cases habsolute : Path.isAbsolute ⟨s.manifestPath⟩ with
      | true => exact opensFrom_iff.2 (hreached habsolute)
      | false => exact opensFrom_dropLast (opensFrom_of_manifest habsolute hmanifest)
    rw [hnode]
    refine List.mem_filter.2 ⟨List.mem_map_of_mem (Folder.mem_foldersFrom_iff.2 ⟨?_, hopens⟩),
      hmanifest⟩
    exact hfolder.imp_right fun h => ⟨h, hskip⟩

/-- With too long a path a workspace holds nothing that has its manifest at a relative path. -/
theorem bundlesBelow_eq_nil (hrelative : Path.isAbsolute ⟨s.manifestPath⟩ = false)
    (h : Path.byteLimit ≤ workspace.text.utf8ByteSize + s.manifestPath.utf8ByteSize) :
    bundlesBelow fs s workspace = [] := by
  refine List.eq_nil_iff_forall_not_mem.2 fun p hp => ?_
  obtain ⟨names, hbundle, -⟩ := mem_bundlesBelow_iff.1 hp
  have hlimit := lt_byteLimit_of_manifest hrelative hbundle.manifest
  have hlength := workspace.utf8ByteSize_le_descend names
  omega

/-- Names are told apart by the components of the path through them. -/
theorem eq_of_components_descend {names' : List FileName}
    (h : (workspace.descend names).components = (workspace.descend names').components) :
    names = names' := by
  rw [Path.components_descend, Path.components_descend] at h
  refine (List.map_inj_right fun n n' hn => ?_).1 (List.append_cancel_left h)
  exact FileName.text_injective (Component.name.inj hn)

/-- With an absolute manifest path, a workspace shows no folder that lies in one that cannot be
opened, whatever the manifest. -/
theorem not_exists_mem_bundlesBelow (habsolute : Path.isAbsolute ⟨s.manifestPath⟩ = true)
    (hlong : (workspace.descend names.dropLast).isTooLong = true) :
    ¬ ∃ q ∈ bundlesBelow fs s workspace,
      (workspace.descend names).components = q.components := by
  rintro ⟨q, hq, heq⟩
  obtain ⟨names', hbundle, rfl⟩ := mem_bundlesBelow_iff.1 hq
  obtain rfl := eq_of_components_descend heq
  rw [hbundle.reached habsolute] at hlong
  cases hlong

/-! ### What a run meets -/

/-- A run shows a bundle in the spelling in which it meets it first. -/
inductive FileSystem.Shows (fs : FileSystem) (s : Settings) (bundles workspaces : List Path) :
    Path → Prop where
  /-- It is the first of those named one by one that have its components. -/
  | named {p : Path} (h : bundles.find? (fun m => m.components = p.components) = some p) :
    Shows fs s bundles workspaces p
  /-- It is none of these, and this workspace is the first that holds it. -/
  | below {workspace : Path} {names : List FileName} {before behind : List Path}
    (hsplit : workspaces = before ++ workspace :: behind) (h : fs.HasBundle s workspace names)
    (hnamed : ∀ m ∈ bundles, m.components ≠ (workspace.descend names).components)
    (hbefore : ∀ w ∈ before, ∀ ns, fs.HasBundle s w ns →
      (w.descend ns).components ≠ (workspace.descend names).components) :
    Shows fs s bundles workspaces (workspace.descend names)
  /-- Nothing is named, and it is the current directory. -/
  | here (hbundles : bundles = []) (hworkspaces : workspaces = []) :
    Shows fs s bundles workspaces ⟨"."⟩

theorem mem_candidates_iff : p ∈ candidates fs s bundles workspaces ↔
    p ∈ bundles ∨ (∃ w ∈ workspaces, ∃ names, fs.HasBundle s w names ∧ p = w.descend names) ∨
      (bundles = [] ∧ workspaces = [] ∧ p = ⟨"."⟩) := by
  rw [candidates]
  split
  · next h =>
    obtain ⟨rfl, rfl⟩ := h
    simp
  · next h =>
    rw [List.mem_append, List.mem_flatMap]
    simp only [mem_bundlesBelow_iff]
    refine or_congr_right (or_iff_left ?_).symm
    rintro ⟨hbundles, hworkspaces, -⟩
    exact h ⟨hbundles, hworkspaces⟩

/-- A workspace holds a bundle in one spelling only. -/
theorem find?_bundlesBelow_iff :
    (bundlesBelow fs s workspace).find? (fun c => c.components = p.components) = some p ↔
      ∃ names, fs.HasBundle s workspace names ∧ p = workspace.descend names := by
  constructor
  · exact fun h => mem_bundlesBelow_iff.1 (List.mem_of_find?_eq_some h)
  · intro h
    have hmem : p ∈ bundlesBelow fs s workspace := mem_bundlesBelow_iff.2 h
    obtain ⟨names, -, rfl⟩ := h
    cases hfind : (bundlesBelow fs s workspace).find?
        (fun c => c.components = (workspace.descend names).components) with
    | none => exact absurd (decide_eq_true rfl) (List.find?_eq_none.1 hfind _ hmem)
    | some q =>
      obtain ⟨names', -, rfl⟩ := mem_bundlesBelow_iff.1 (List.mem_of_find?_eq_some hfind)
      have hsame := List.find?_some hfind
      rw [eq_of_components_descend (of_decide_eq_true hsame)]

/-- The candidate that a run meets first. -/
theorem find?_candidates_iff :
    (candidates fs s bundles workspaces).find? (fun c => c.components = p.components) = some p ↔
      fs.Shows s bundles workspaces p := by
  rw [candidates]
  split
  · next h =>
    obtain ⟨rfl, rfl⟩ := h
    constructor
    · intro h
      rw [List.mem_singleton.1 (List.mem_of_find?_eq_some h)]
      exact .here rfl rfl
    · intro h
      cases h with
      | named h => cases h
      | below hsplit => exact absurd hsplit.symm (List.append_ne_nil_of_right_ne_nil _ (by simp))
      | here => exact List.find?_cons_of_pos (decide_eq_true rfl)
  · next h =>
    rw [List.find?_append, Option.or_eq_some_iff, List.find?_flatMap, List.findSome?_eq_some_iff]
    constructor
    · rintro (h | ⟨hnamed, before, w, behind, hsplit, hw, hbefore⟩)
      · exact .named h
      · obtain ⟨names, hbundle, rfl⟩ := find?_bundlesBelow_iff.1 hw
        refine .below hsplit hbundle (fun m hm heq => ?_) fun w' hw' ns hns heq => ?_
        · exact List.find?_eq_none.1 hnamed m hm (decide_eq_true heq)
        · exact List.find?_eq_none.1 (hbefore w' hw') _ (mem_bundlesBelow_iff.2 ⟨ns, hns, rfl⟩)
            (decide_eq_true heq)
    · intro hshows
      cases hshows with
      | named h => exact Or.inl h
      | @below w names before behind hsplit hbundle hnamed hbefore =>
        refine Or.inr ⟨List.find?_eq_none.2 fun m hm heq => hnamed m hm (of_decide_eq_true heq),
          before, w, behind, hsplit, find?_bundlesBelow_iff.2 ⟨names, hbundle, rfl⟩,
          fun w' hw' => List.find?_eq_none.2 fun c hc heq => ?_⟩
        obtain ⟨ns, hns, rfl⟩ := mem_bundlesBelow_iff.1 hc
        exact hbefore w' hw' ns hns (of_decide_eq_true heq)
      | here hbundles hworkspaces => exact absurd ⟨hbundles, hworkspaces⟩ h

/-! ### The bundles of a run -/

/-- Which spellings come out. -/
theorem mem_ofList_candidates_iff :
    p ∈ Ordered.ofList Path.compare (candidates fs s bundles workspaces) ↔
      fs.Shows s bundles workspaces p := by
  have hsame : ∀ q, (fun c : Path => Path.compare q c == .eq) =
      fun c => decide (c.components = q.components) := by
    intro q
    funext c
    rw [Bool.eq_iff_iff, beq_iff_eq, decide_eq_true_iff, Path.compare_eq_iff, eq_comm]
  have hfirst : ∀ {q}, q ∈ Ordered.ofList Path.compare (candidates fs s bundles workspaces) →
      (candidates fs s bundles workspaces).find? (fun c => c.components = q.components) =
        some q := by
    intro q hq
    rw [← hsame]
    exact Ordered.find?_of_mem_ofList hq
  constructor
  · exact fun h => find?_candidates_iff.1 (hfirst h)
  · intro h
    have hfind := find?_candidates_iff.2 h
    obtain ⟨q, hq, hcompare⟩ : ∃ q ∈ Ordered.ofList Path.compare
        (candidates fs s bundles workspaces), Path.compare p q = .eq :=
      Ordered.exists_mem_ofList (List.mem_of_find?_eq_some hfind)
    have hq' := hfirst hq
    rw [← Path.compare_eq_iff.1 hcompare, hfind] at hq'
    rwa [Option.some.inj hq']

/-- Up to spelling, everything that a run meets comes out. -/
theorem exists_mem_ofList_candidates_iff :
    (∃ q ∈ Ordered.ofList Path.compare (candidates fs s bundles workspaces),
        p.components = q.components) ↔
      (∃ m ∈ bundles, p.components = m.components) ∨
        (∃ w ∈ workspaces, ∃ names, fs.HasBundle s w names ∧
          p.components = w.components ++ names.map fun n => .name n.text) ∨
        (bundles = [] ∧ workspaces = [] ∧ p.components = Path.components ⟨"."⟩) := by
  constructor
  · rintro ⟨q, hq, heq⟩
    rcases mem_candidates_iff.1 (Ordered.mem_of_mem_ofList hq) with
      hm | ⟨w, hw, names, hbundle, rfl⟩ | ⟨hbundles, hworkspaces, rfl⟩
    · exact Or.inl ⟨q, hm, heq⟩
    · exact Or.inr (Or.inl ⟨w, hw, names, hbundle, heq.trans (w.components_descend names)⟩)
    · exact Or.inr (Or.inr ⟨hbundles, hworkspaces, heq⟩)
  · intro h
    obtain ⟨c, hc, heq⟩ : ∃ c ∈ candidates fs s bundles workspaces,
        p.components = c.components := by
      rcases h with ⟨m, hm, heq⟩ | ⟨w, hw, names, hbundle, heq⟩ | ⟨hbundles, hworkspaces, heq⟩
      · exact ⟨m, mem_candidates_iff.2 (Or.inl hm), heq⟩
      · exact ⟨w.descend names,
          mem_candidates_iff.2 (Or.inr (Or.inl ⟨w, hw, names, hbundle, rfl⟩)),
          heq.trans (w.components_descend names).symm⟩
      · exact ⟨⟨"."⟩, mem_candidates_iff.2 (Or.inr (Or.inr ⟨hbundles, hworkspaces, rfl⟩)), heq⟩
    obtain ⟨q, hq, hcompare⟩ : ∃ q ∈ Ordered.ofList Path.compare
        (candidates fs s bundles workspaces), Path.compare c q = .eq :=
      Ordered.exists_mem_ofList hc
    exact ⟨q, hq, heq.trans (Path.compare_eq_iff.1 hcompare)⟩

theorem rootFault?_eq_none_iff :
    rootFault? fs bundles workspaces = none ↔
      ∀ p ∈ bundles ++ workspaces, fs.isFolder p = true := by
  have hnone : ∀ ps : List Path, ps.find? (fun p => !fs.isFolder p) = none ↔
      ∀ p ∈ ps, fs.isFolder p = true := by
    intro ps
    simp [List.find?_eq_none]
  rw [List.forall_mem_append, ← hnone, ← hnone, rootFault?]
  cases bundles.find? fun p => !fs.isFolder p with
  | none => simp
  | some p => simp

theorem collectBundles_of_folders (h : ∀ p ∈ bundles ++ workspaces, fs.isFolder p = true) :
    collectBundles fs s bundles workspaces =
      .ok (Ordered.ofList Path.compare (candidates fs s bundles workspaces)) := by
  rw [collectBundles, rootFault?_eq_none_iff.2 h]

/-- With one workspace and nothing else, a run has what the workspace holds. -/
theorem collectBundles_of_folder (h : fs.isFolder workspace = true) :
    collectBundles fs s [] [workspace] =
      .ok (Ordered.ofList Path.compare (bundlesBelow fs s workspace)) := by
  have hfolders : ∀ p ∈ [] ++ [workspace], fs.isFolder p = true := by
    intro p hp
    rw [List.mem_singleton.1 hp]
    exact h
  have hnamed : ¬(([] : List Path) = [] ∧ [workspace] = []) := fun hnone => by cases hnone.2
  rw [collectBundles_of_folders hfolders, candidates, if_neg hnamed, List.nil_append,
    List.flatMap_singleton]

theorem exists_fault_of_not_folder (hp : p ∈ bundles ++ workspaces)
    (h : fs.isFolder p = false) :
    ∃ fault, collectBundles fs s bundles workspaces = .error fault := by
  cases hfault : rootFault? fs bundles workspaces with
  | none =>
    rw [rootFault?_eq_none_iff.1 hfault p hp] at h
    cases h
  | some fault =>
    refine ⟨fault, ?_⟩
    rw [collectBundles, hfault]

theorem eq_of_collectBundles {found : List Path}
    (h : collectBundles fs s bundles workspaces = .ok found) :
    found = Ordered.ofList Path.compare (candidates fs s bundles workspaces) := by
  rw [collectBundles] at h
  split at h
  · cases h
  · cases h
    rfl

/-- Bundles in order are known by their components. -/
theorem map_components_eq {found found' : List Path} (h : Ordered.Ascending Path.compare found)
    (h' : Ordered.Ascending Path.compare found')
    (hsame : ∀ p : Path, (∃ q ∈ found, p.components = q.components) ↔
      ∃ q ∈ found', p.components = q.components) :
    found.map Path.components = found'.map Path.components := by
  have hascending : ∀ ps, Ordered.Ascending Path.compare ps →
      Ordered.Ascending (List.compareLex Component.compare) (ps.map Path.components) :=
    fun ps hps => List.pairwise_map.2 hps
  have hmem : ∀ {ps ps' : List Path}, (∀ p : Path, (∃ q ∈ ps, p.components = q.components) →
      ∃ q ∈ ps', p.components = q.components) →
      ∀ c ∈ ps.map Path.components, c ∈ ps'.map Path.components := by
    intro ps ps' hps c hc
    obtain ⟨q, hq, rfl⟩ := List.mem_map.1 hc
    obtain ⟨q', hq', heq⟩ := hps q ⟨q, hq, rfl⟩
    exact List.mem_map.2 ⟨q', hq', heq.symm⟩
  refine (hascending found h).ext (hascending found' h') fun c => ⟨hmem ?_ c, hmem ?_ c⟩
  · exact fun p => (hsame p).1
  · exact fun p => (hsame p).2

theorem nodup_map_components {found : List Path} (h : Ordered.Ascending Path.compare found) :
    (found.map Path.components).Nodup := by
  refine List.pairwise_map.2 (h.imp fun {p q} hlt heq => ?_)
  rw [Path.compare_eq_iff.2 heq] at hlt
  cases hlt

/-- The order of the arguments, repetitions and spellings of bundles make no difference. -/
theorem exists_mem_ofList_candidates_congr {bundles' workspaces' : List Path}
    (hbundles : ∀ p : Path, (∃ m ∈ bundles', p.components = m.components) ↔
      ∃ m ∈ bundles, p.components = m.components)
    (hworkspaces : ∀ w, w ∈ workspaces' ↔ w ∈ workspaces) (p : Path) :
    (∃ q ∈ Ordered.ofList Path.compare (candidates fs s bundles' workspaces'),
        p.components = q.components) ↔
      ∃ q ∈ Ordered.ofList Path.compare (candidates fs s bundles workspaces),
        p.components = q.components := by
  have hnamed : bundles' = [] ↔ bundles = [] := by
    rw [List.eq_nil_iff_forall_not_mem, List.eq_nil_iff_forall_not_mem]
    constructor
    · intro h m hm
      obtain ⟨m', hm', -⟩ := (hbundles m).2 ⟨m, hm, rfl⟩
      exact h m' hm'
    · intro h m hm
      obtain ⟨m', hm', -⟩ := (hbundles m).1 ⟨m, hm, rfl⟩
      exact h m' hm'
  have hnone : workspaces' = [] ↔ workspaces = [] := by
    rw [List.eq_nil_iff_forall_not_mem, List.eq_nil_iff_forall_not_mem]
    exact forall_congr' fun w => not_congr (hworkspaces w)
  rw [exists_mem_ofList_candidates_iff, exists_mem_ofList_candidates_iff, hbundles p, hnamed, hnone]
  simp only [hworkspaces]

theorem CheckRequest.check_error {request : CheckRequest} {fault : RootFault}
    (h : collectBundles fs s request.bundles request.workspaces = .error fault) :
    request.check fs s = .error (.root fault) := by
  rw [check, h]

/-- A check of a path that is no folder fails, if not before. -/
theorem CheckRequest.run_of_not_folder {request : CheckRequest}
    (hp : p ∈ request.bundles ++ request.workspaces) (h : fs.isFolder p = false) :
    ∃ failure, request.run fs = .failed fs failure := by
  rw [run]
  cases request.source.resolve fs with
  | error failure => exact ⟨failure, rfl⟩
  | ok s =>
    obtain ⟨fault, hfault⟩ := exists_fault_of_not_folder (s := s) hp h
    refine ⟨.root fault, ?_⟩
    dsimp only
    rw [check_error hfault]

/-- **A run has exactly the bundles that it meets, each once.**  They come in the order of their
components.  A path has the components of one of them if it has those of a bundle named, or those of
a workspace followed by names that lead to a bundle in it to which a walk gets; with nothing named
it is the current directory.  The spelling shown is the first one met, and neither the order of the
arguments nor a repetition changes anything but the spelling.  If a path named is no folder nothing
is audited. -/
theorem collectBundles_exact (fs : FileSystem) (request : CheckRequest) :
    (∀ s : Settings, (∀ p ∈ request.bundles ++ request.workspaces, fs.isFolder p = true) →
      ∃ found, collectBundles fs s request.bundles request.workspaces = .ok found ∧
        request.check fs s = .ok ⟨s, found.map (audit fs s)⟩ ∧
        (found.Pairwise fun p q => Path.compare p q = .lt) ∧
        (found.map Path.components).Nodup ∧
        (∀ p : Path, (∃ q ∈ found, p.components = q.components) ↔
          (∃ m ∈ request.bundles, p.components = m.components) ∨
          (∃ w ∈ request.workspaces, ∃ names, fs.HasBundle s w names ∧
            p.components = w.components ++ names.map fun n => .name n.text) ∨
          (request.bundles = [] ∧ request.workspaces = [] ∧
            p.components = Path.components ⟨"."⟩)) ∧
        (∀ p, p ∈ found ↔ fs.Shows s request.bundles request.workspaces p) ∧
        ∀ (bundles workspaces found' : List Path),
          collectBundles fs s bundles workspaces = .ok found' →
          (∀ p : Path, (∃ m ∈ bundles, p.components = m.components) ↔
            ∃ m ∈ request.bundles, p.components = m.components) →
          (∀ w, w ∈ workspaces ↔ w ∈ request.workspaces) →
            found'.map Path.components = found.map Path.components) ∧
    ∀ p ∈ request.bundles ++ request.workspaces, fs.isFolder p = false →
      (∀ s, ∃ fault, request.check fs s = .error (.root fault)) ∧
      ∀ arguments, Command.ofArguments arguments = .ok (.check request) →
        ∃ failure : Failure, run fs arguments = ⟨2, "", failure.message ++ "\n", fs⟩ := by
  refine ⟨?_, ?_⟩
  · intro s hfolders
    have hfound := collectBundles_of_folders (s := s) hfolders
    have hascending : Ordered.Ascending Path.compare (Ordered.ofList Path.compare
        (candidates fs s request.bundles request.workspaces)) := Ordered.ascending_ofList _
    refine ⟨_, hfound, CheckRequest.check_eq hfound, hascending, nodup_map_components hascending,
      fun p => exists_mem_ofList_candidates_iff, fun p => mem_ofList_candidates_iff, ?_⟩
    intro bundles workspaces found' hfound' hbundles hworkspaces
    rw [eq_of_collectBundles hfound']
    exact map_components_eq (Ordered.ascending_ofList _) hascending
      (exists_mem_ofList_candidates_congr hbundles hworkspaces)
  · intro p hp hfolder
    constructor
    · intro s
      obtain ⟨fault, hfault⟩ := exists_fault_of_not_folder (s := s) hp hfolder
      exact ⟨fault, CheckRequest.check_error hfault⟩
    · intro arguments harguments
      obtain ⟨failure, hfailure⟩ := CheckRequest.run_of_not_folder hp hfolder
      refine ⟨failure, ?_⟩
      rw [BundleAudit.run, harguments]
      exact hfailure

/-- A bundle is given in two spellings and found again in a workspace, a nested one is found in two
workspaces, one lies in a folder to be skipped, and one has no manifest. -/
theorem collectBundles_exact_overlapping :
    let manifest := [⟨"META-INF", by decide⟩, ⟨"MANIFEST.MF", by decide⟩]
    let fs := ((((FileSystem.emptyAt []).putFile (⟨"a", by decide⟩ :: manifest) "".toUTF8).putFile
      (⟨"a", by decide⟩ :: ⟨"b", by decide⟩ :: manifest) "".toUTF8).putFile
      (⟨"a", by decide⟩ :: ⟨"target", by decide⟩ :: manifest) "".toUTF8).putFolder
      [⟨"d", by decide⟩]
    let request : CheckRequest := ⟨[⟨"d"⟩, ⟨"a/."⟩, ⟨"a"⟩], [⟨"a//"⟩, ⟨"a/b"⟩], ⟨none, []⟩, .text,
      none, 1⟩
    (∀ p ∈ request.bundles ++ request.workspaces, fs.isFolder p = true) ∧
      collectBundles fs {} request.bundles request.workspaces =
        .ok [⟨"a/."⟩, ⟨"a//b"⟩, ⟨"d"⟩] ∧
      fs.Shows {} request.bundles request.workspaces ⟨"a//b"⟩ ∧
      (∀ s, ∃ fault, ({ request with workspaces := [⟨"e"⟩] } : CheckRequest).check fs s =
        .error (.root fault)) := by
  intro manifest fs request
  have hfolders : ∀ p ∈ request.bundles ++ request.workspaces, fs.isFolder p = true := by
    decide +kernel
  have hcollect : collectBundles fs {} request.bundles request.workspaces =
      .ok [⟨"a/."⟩, ⟨"a//b"⟩, ⟨"d"⟩] :=
    FileSystem.toOption_eq_some_iff.1 (by decide +kernel)
  obtain ⟨found, hfound, -, -, -, -, hshows, -⟩ := (collectBundles_exact fs request).1 {} hfolders
  rw [hcollect] at hfound
  cases hfound
  refine ⟨hfolders, hcollect, (hshows _).1 (by decide), ?_⟩
  exact ((collectBundles_exact fs { request with workspaces := [⟨"e"⟩] }).2 ⟨"e"⟩ (by decide)
    (by decide +kernel)).1

/-- A bundle that a workspace holds is not met if the folder that it lies in cannot be opened.  Nor
is a workspace met as a bundle of its own in a spelling from which its manifest cannot be read. -/
theorem collectBundles_throughPoints :
    let fs := ((FileSystem.emptyAt []).putFile [⟨"M", by decide⟩] "".toUTF8).putFolder
      [⟨"b", by decide⟩, ⟨"ccccc", by decide⟩, ⟨"d", by decide⟩]
    let s : Settings := { manifestPath := "/M" }
    let near := (FileSystem.emptyAt []).putFile
      [⟨"b", by decide⟩, ⟨"META-INF", by decide⟩, ⟨"MANIFEST.MF", by decide⟩] "".toUTF8
    let names : List FileName := [⟨"ccccc", by decide⟩, ⟨"d", by decide⟩]
    let workspace := Path.throughPoints 2045 ⟨"b"⟩
    (s.fault? = none ∧ fs.HoldsBundle s workspace names ∧
        ∃ found, collectBundles fs s [] [workspace] = .ok found ∧
          ¬ ∃ q ∈ found, (workspace.descend names).components = q.components) ∧
      near.node workspace = near.node ⟨"b"⟩ ∧
        collectBundles near {} [] [⟨"b"⟩] = .ok [⟨"b"⟩] ∧
        collectBundles near {} [] [workspace] = .ok [] := by
  intro fs s near names workspace
  have hb : fs.node ⟨"b"⟩ = .ok (.folder (.sub ⟨"ccccc", by decide⟩
      (.sub ⟨"d", by decide⟩ .empty .empty) .empty)) :=
    FileSystem.toOption_eq_some_iff.1 (by decide +kernel)
  have hb' : near.node ⟨"b"⟩ = .ok (.folder (.sub ⟨"META-INF", by decide⟩
      (.file ⟨"MANIFEST.MF", by decide⟩ "".toUTF8 .empty) .empty)) :=
    FileSystem.toOption_eq_some_iff.1 (by decide +kernel)
  have hhere : fs.root.nodeAt? fs.here = some (.folder fs.root) := by decide +kernel
  have hhere' : near.root.nodeAt? near.here = some (.folder near.root) := by decide +kernel
  have hroot := FileSystem.node_throughPoints 2045 hhere (by decide) hb (by decide +kernel)
  have hroot' := FileSystem.node_throughPoints 2045 hhere' (by decide) hb' (by decide +kernel)
  refine ⟨⟨by decide +kernel, ⟨⟨_, hroot, Or.inr (.inside _ (.here _ _ _))⟩, ?_, ?_⟩, _,
    collectBundles_of_folder (FileSystem.isFolder_iff.2 ⟨_, hroot⟩), ?_⟩, hroot'.trans hb'.symm,
    FileSystem.toOption_eq_some_iff.1 (by decide +kernel), ?_⟩
  · unfold NoneSkipped
    decide
  · -- an absolute path is the same from everywhere
    have hmanifest : s.manifestOf (workspace.descend names) = ⟨"/M"⟩ := if_pos (by decide)
    rw [hmanifest]
    decide +kernel
  · rintro ⟨q, hq, heq⟩
    have hlong : (workspace.descend names.dropLast).isTooLong = true :=
      Path.isTooLong_descend_throughPoints (by decide +kernel)
    exact not_exists_mem_bundlesBelow (by decide) hlong ⟨q, Ordered.mem_of_mem_ofList hq, heq⟩
  · have hlong : Path.byteLimit ≤
        workspace.text.utf8ByteSize + ({} : Settings).manifestPath.utf8ByteSize := by
      rw [Path.utf8ByteSize_throughPoints]
      decide +kernel
    rw [collectBundles_of_folder (FileSystem.isFolder_iff.2 ⟨_, hroot'⟩),
      bundlesBelow_eq_nil (by decide) hlong]
    rfl

end BundleAudit
