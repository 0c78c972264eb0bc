import BundleAudit.CommandLine.Run
import Mathlib.Data.List.Induction
import Mathlib.Data.List.Nodup

/-!
# Schedules of a pool

Whatever the order in which workers make their steps, no task is lost and none is done twice.  At
any moment the numbers of the tasks that have a result, together with those of the tasks that are
being worked on, are all numbers below the counter; the counter runs beyond the last task, since
every worker has to look once more before it stops.  When all workers have stopped, no task is being
worked on any more.

A worker that is given enough steps stops, so a schedule that gives them to every worker comes to an
end.

## Main definitions

* `Pool.Moves tasks work p w q` — the worker `w` takes the pool from `p` to `q`.
* `Pool.Sound tasks work p` — what holds of a pool at any moment.
* `Pool.Paced tasks p w k` — the worker `w` has stopped, or `k` steps of it have moved the counter.
* `numbered tasks work` — the results of all tasks, each with the number of its task.

## Main results

* `Pool.Sound.moves`, `Pool.sound_run` — a step keeps a pool sound, and so does a schedule.
* `Pool.Sound.perm_numbered` — a pool that is done has one result for each task.
* `Pool.isDone_run` — enough steps of every worker make the pool done.
* `inParallel_eq_map` — work in turns gives the results in order.
* `run_check_any_schedule` — **however the workers of a check take turns, the outcome is the same**.
-/

namespace BundleAudit

variable {α β : Type} {tasks : List α} {work : α → β}

/-- The number of the task that a worker works on. -/
def Worker.number? : Worker α → Option Nat
  | .busy i _ => some i
  | _ => none

namespace Pool

variable {p q : Pool α β} {w v k jobs : Nat} {schedule : List Nat}

/-! ### Steps -/

/-- What a step of the worker `w` makes of a pool. -/
inductive Moves (tasks : List α) (work : α → β) (p : Pool α β) (w : Nat) : Pool α β → Prop where
  /-- It takes a task. -/
  | take {task : α} (hw : p.workers[w]? = some .ready) (htask : tasks[p.next]? = some task) :
    Moves tasks work p w ⟨p.next + 1, p.workers.set w (.busy p.next task), p.results⟩
  /-- It finds that no task is left. -/
  | stop (hw : p.workers[w]? = some .ready) (hnext : tasks.length ≤ p.next) :
    Moves tasks work p w ⟨p.next + 1, p.workers.set w .stopped, p.results⟩
  /-- It puts the result of its task. -/
  | put {i : Nat} {task : α} (hw : p.workers[w]? = some (.busy i task)) :
    Moves tasks work p w ⟨p.next, p.workers.set w .ready, p.results ++ [(i, work task)]⟩
  /-- It has stopped, or there is no such worker. -/
  | rest (hw : p.workers[w]? = none ∨ p.workers[w]? = some .stopped) : Moves tasks work p w p

/-- A step is one of the moves. -/
theorem moves_step (tasks : List α) (work : α → β) (p : Pool α β) (w : Nat) :
    Moves tasks work p w (p.step tasks work w) := by
  unfold step
  split
  · next hw =>
    split
    · next task htask => exact .take hw htask
    · next hnone => exact .stop hw (List.getElem?_eq_none_iff.1 hnone)
  · next i task hw => exact .put hw
  · next hw => exact .rest (Or.inr hw)
  · next hw => exact .rest (Or.inl hw)

theorem run_concat : p.run tasks work (schedule ++ [w]) =
    (p.run tasks work schedule).step tasks work w := by
  rw [run, run, List.foldl_append, List.foldl_cons, List.foldl_nil]

/-! ### What holds at any moment -/

/-- The numbers of the tasks that are being worked on. -/
def inFlight (p : Pool α β) : List Nat := p.workers.filterMap Worker.number?

/-- What holds of a pool at any moment. -/
structure Sound (tasks : List α) (work : α → β) (p : Pool α β) : Prop where
  /-- Each task that has been taken has a result or is being worked on, and not both. -/
  taken : (p.results.map Prod.fst ++ p.inFlight).Perm (List.range (min p.next tasks.length))
  /-- A result is that of the task of its number. -/
  results : ∀ r ∈ p.results, ∃ task, tasks[r.1]? = some task ∧ r.2 = work task
  /-- A worker works on the task of its number. -/
  busy : ∀ i task, .busy i task ∈ p.workers → tasks[i]? = some task
  /-- No worker stops as long as a task is left. -/
  stopped : .stopped ∈ p.workers → tasks.length ≤ p.next

/-- Nothing has been taken at first. -/
theorem sound_start (tasks : List α) (work : α → β) (workers : Nat) :
    (start workers : Pool α β).Sound tasks work := by
  have hready : ∀ x ∈ (start workers : Pool α β).workers, x = .ready := fun x hx =>
    List.eq_of_mem_replicate hx
  have hflight : (start workers : Pool α β).inFlight = [] := by
    refine List.filterMap_eq_nil_iff.2 fun x hx => ?_
    rw [hready x hx]
    rfl
  refine ⟨?_, fun r hr => absurd hr List.not_mem_nil, fun i task h => ?_, fun h => ?_⟩
  · rw [hflight, start, Nat.zero_min]
    exact .nil
  · cases hready _ h
  · cases hready _ h

/-- One worker changes, and the others work on what they worked on. -/
theorem exists_others {x : Worker α} (h : p.workers[w]? = some x) :
    ∃ others, p.inFlight.Perm (x.number?.toList ++ others) ∧
      ∀ next y (results : List (Nat × β)),
        (Pool.mk next (p.workers.set w y) results).inFlight.Perm (y.number?.toList ++ others) := by
  obtain ⟨hlength, rfl⟩ := List.getElem?_eq_some_iff.1 h
  have hset : ∀ y, ((p.workers.set w y).filterMap Worker.number?).Perm
      (y.number?.toList ++
        (p.workers.take w ++ p.workers.drop (w + 1)).filterMap Worker.number?) := by
    intro y
    rw [List.set_eq_take_append_cons_drop, if_pos hlength]
    refine (List.perm_middle.filterMap _).trans ?_
    cases hy : y.number? <;> simp [hy]
  refine ⟨_, ?_, fun next y results => hset y⟩
  have hself := hset p.workers[w]
  rwa [List.set_getElem_self] at hself

/-- A step keeps a pool sound. -/
theorem Sound.moves (h : p.Sound tasks work) (hmoves : Moves tasks work p w q) :
    q.Sound tasks work := by
  cases hmoves with
  | @take task hw htask =>
    obtain ⟨hnext, -⟩ := List.getElem?_eq_some_iff.1 htask
    obtain ⟨others, hbefore, hafter⟩ := exists_others hw
    have hothers : (p.results.map Prod.fst ++ others).Perm (List.range p.next) := by
      have htaken := h.taken
      rw [Nat.min_eq_left (Nat.le_of_lt hnext)] at htaken
      exact (hbefore.symm.append_left _).trans htaken
    refine ⟨?_, h.results, fun i t hmem => ?_, fun hmem => ?_⟩
    · rw [Nat.min_eq_left (Nat.succ_le_of_lt hnext), List.range_succ]
      calc List.Perm _ _ := (hafter _ _ _).append_left (p.results.map Prod.fst)
        List.Perm _ (p.next :: (p.results.map Prod.fst ++ others)) := List.perm_middle
        List.Perm _ (p.next :: List.range p.next) := hothers.cons _
        List.Perm _ _ := (List.perm_append_singleton _ _).symm
    · rcases List.mem_or_eq_of_mem_set hmem with hmem | heq
      · exact h.busy i t hmem
      · cases heq
        exact htask
    · rcases List.mem_or_eq_of_mem_set hmem with hmem | heq
      · exact Nat.le_succ_of_le (h.stopped hmem)
      · cases heq
  | stop hw hnext =>
    obtain ⟨others, hbefore, hafter⟩ := exists_others hw
    refine ⟨?_, h.results, fun i t hmem => ?_, fun _ => Nat.le_succ_of_le hnext⟩
    · have htaken := h.taken
      rw [Nat.min_eq_right hnext] at htaken
      rw [Nat.min_eq_right (Nat.le_succ_of_le hnext)]
      exact (((hafter _ .stopped _).trans hbefore.symm).append_left _).trans htaken
    · rcases List.mem_or_eq_of_mem_set hmem with hmem | heq
      · exact h.busy i t hmem
      · cases heq
  | @put i task hw =>
    obtain ⟨others, hbefore, hafter⟩ := exists_others hw
    refine ⟨?_, fun r hr => ?_, fun j t hmem => ?_, fun hmem => ?_⟩
    · -- the number goes from the worker to the results
      have hnumber := ((hafter p.next .ready (p.results ++ [(i, work task)])).append_left [i]).trans
        hbefore.symm
      rw [List.map_append, List.append_assoc]
      exact (hnumber.append_left _).trans h.taken
    · rcases List.mem_append.1 hr with hr | hr
      · exact h.results r hr
      · rw [List.mem_singleton.1 hr]
        exact ⟨task, h.busy i task (List.mem_of_getElem? hw), rfl⟩
    · rcases List.mem_or_eq_of_mem_set hmem with hmem | heq
      · exact h.busy j t hmem
      · cases heq
    · rcases List.mem_or_eq_of_mem_set hmem with hmem | heq
      · exact h.stopped hmem
      · cases heq
  | rest => exact h

/-- A pool is sound after any schedule. -/
theorem sound_run (tasks : List α) (work : α → β) (workers : Nat) (schedule : List Nat) :
    ((start workers : Pool α β).run tasks work schedule).Sound tasks work := by
  induction schedule using List.reverseRecOn with
  | nil => exact sound_start tasks work workers
  | append_singleton schedule w ih =>
    rw [run_concat]
    exact ih.moves (moves_step tasks work _ w)

/-! ### Progress -/

/-- The worker `w` has stopped, or the counter has moved on by half of its `k` steps. -/
def Paced (tasks : List α) (p : Pool α β) (w k : Nat) : Prop :=
  match p.workers[w]? with
  | some .ready => k ≤ 2 * min p.next tasks.length
  | some (.busy _ _) => k < 2 * min p.next tasks.length
  | _ => True

/-- A further step of the worker itself. -/
theorem Paced.moves_self (h : p.Paced tasks w k) (hmoves : Moves tasks work p w q) :
    q.Paced tasks w (k + 1) := by
  unfold Paced at h
  have hset : ∀ {x : Worker α}, p.workers[w]? = some x → ∀ y, (p.workers.set w y)[w]? = some y :=
    fun hx y => List.getElem?_set_self (List.getElem?_eq_some_iff.1 hx).1
  cases hmoves with
  | @take task hw htask =>
    obtain ⟨hnext, -⟩ := List.getElem?_eq_some_iff.1 htask
    rw [hw] at h
    simp only [Paced, hset hw]
    omega
  | stop hw => simp only [Paced, hset hw]
  | put hw =>
    rw [hw] at h
    simp only [Paced, hset hw]
    omega
  | rest hw => rcases hw with hw | hw <;> simp only [Paced, hw]

/-- A step of another worker. -/
theorem Paced.moves_of_ne (h : p.Paced tasks w k) (hmoves : Moves tasks work p v q) (hne : v ≠ w) :
    q.Paced tasks w k := by
  have hset : ∀ y, (p.workers.set v y)[w]? = p.workers[w]? := fun y => List.getElem?_set_ne hne
  unfold Paced at h
  cases hmoves with
  | take | stop =>
    simp only [Paced, hset]
    split <;> simp_all <;> omega
  | put => simpa only [Paced, hset] using h
  | rest => exact h

theorem Moves.length_eq (h : Moves tasks work p w q) : q.workers.length = p.workers.length := by
  cases h <;> simp only [List.length_set]

theorem length_workers_run (tasks : List α) (work : α → β) (workers : Nat) (schedule : List Nat) :
    ((start workers : Pool α β).run tasks work schedule).workers.length = workers := by
  induction schedule using List.reverseRecOn with
  | nil => exact List.length_replicate
  | append_singleton schedule w ih => rw [run_concat, (moves_step tasks work _ w).length_eq, ih]

theorem paced_run (tasks : List α) (work : α → β) (workers : Nat) (schedule : List Nat) (w : Nat) :
    ((start workers : Pool α β).run tasks work schedule).Paced tasks w (schedule.count w) := by
  induction schedule using List.reverseRecOn with
  | nil =>
    unfold Paced
    split
    · exact Nat.zero_le _
    · next i task hw => cases List.eq_of_mem_replicate (List.mem_of_getElem? hw)
    · trivial
  | append_singleton schedule v ih =>
    rw [run_concat, List.count_append, List.count_singleton]
    by_cases hv : v = w
    · subst hv
      simpa using ih.moves_self (moves_step tasks work _ v)
    · simpa [hv] using ih.moves_of_ne (moves_step tasks work _ v) hv

/-- **A schedule that gives every worker enough steps makes the pool done.** -/
theorem isDone_run {workers : Nat}
    (h : ∀ w < workers, 2 * tasks.length < schedule.count w) :
    ((start workers : Pool α β).run tasks work schedule).IsDone := by
  intro x hx
  obtain ⟨w, hw⟩ := List.mem_iff_getElem?.1 hx
  have hlength := (List.getElem?_eq_some_iff.1 hw).1
  rw [length_workers_run] at hlength
  have hpaced := paced_run tasks work workers schedule w
  have hsteps := h w hlength
  rw [Paced, hw] at hpaced
  cases x with
  | ready => dsimp only at hpaced; omega
  | busy => dsimp only at hpaced; omega
  | stopped => rfl

end Pool

/-! ### All tasks -/

/-- The results of all tasks, each with the number of its task. -/
def numbered (tasks : List α) (work : α → β) : List (Nat × β) :=
  tasks.zipIdx.map fun x => (x.2, work x.1)

theorem map_snd_numbered : (numbered tasks work).map Prod.snd = tasks.map work := by
  calc (numbered tasks work).map Prod.snd
      = (tasks.zipIdx.map Prod.fst).map work := by rw [numbered, List.map_map, List.map_map]; rfl
    _ = tasks.map work := by rw [List.zipIdx_map_fst]

theorem map_fst_numbered (tasks : List α) (work : α → β) :
    (numbered tasks work).map Prod.fst = List.range tasks.length := by
  rw [numbered, List.map_map, List.range_eq_range']
  exact List.zipIdx_map_snd 0 tasks

theorem mem_numbered_iff {r : Nat × β} :
    r ∈ numbered tasks work ↔ ∃ task, tasks[r.1]? = some task ∧ r.2 = work task := by
  obtain ⟨i, b⟩ := r
  simp only [numbered, List.mem_map, Prod.exists, List.mem_zipIdx_iff_getElem?, Prod.mk.injEq]
  constructor
  · rintro ⟨task, j, htask, rfl, rfl⟩
    exact ⟨task, htask, rfl⟩
  · rintro ⟨task, htask, rfl⟩
    exact ⟨task, i, htask, rfl, rfl⟩

/-- Results are told apart by the numbers of their tasks. -/
theorem eq_of_mem_numbered {r r' : Nat × β} (h : r ∈ numbered tasks work)
    (h' : r' ∈ numbered tasks work) (heq : r.1 = r'.1) : r = r' := by
  obtain ⟨task, htask, hr⟩ := mem_numbered_iff.1 h
  obtain ⟨task', htask', hr'⟩ := mem_numbered_iff.1 h'
  rw [heq, htask'] at htask
  cases htask
  exact Prod.ext heq (hr.trans hr'.symm)

theorem nodup_numbered : (numbered tasks work).Nodup := by
  refine List.Nodup.of_map Prod.fst ?_
  rw [map_fst_numbered]
  exact List.nodup_range

namespace Pool

variable {p : Pool α β} {jobs : Nat} {schedule : List Nat}

/-- A pool that is done has one result for each task. -/
theorem Sound.perm_numbered (h : p.Sound tasks work) (hdone : p.IsDone)
    (hworkers : p.workers ≠ [] ∨ tasks = []) : p.results.Perm (numbered tasks work) := by
  have hflight : p.inFlight = [] := by
    refine List.filterMap_eq_nil_iff.2 fun x hx => ?_
    rw [hdone x hx]
    rfl
  have hnext : tasks.length ≤ p.next := by
    rcases hworkers with hne | rfl
    · obtain ⟨x, hx⟩ := List.exists_mem_of_ne_nil _ hne
      exact h.stopped (hdone x hx ▸ hx)
    · exact Nat.zero_le _
  have hnumbers : (p.results.map Prod.fst).Perm (List.range tasks.length) := by
    have htaken := h.taken
    rwa [hflight, List.append_nil, Nat.min_eq_right hnext] at htaken
  have hsub : ∀ r ∈ p.results, r ∈ numbered tasks work := fun r hr =>
    mem_numbered_iff.2 (h.results r hr)
  have hnodup : p.results.Nodup :=
    .of_map Prod.fst (hnumbers.nodup_iff.2 List.nodup_range)
  refine (List.perm_ext_iff_of_nodup hnodup nodup_numbered).2 fun r => ⟨hsub r, fun hr => ?_⟩
  have hmem : r.1 ∈ p.results.map Prod.fst := by
    rw [hnumbers.mem_iff, ← map_fst_numbered tasks work]
    exact List.mem_map_of_mem hr
  obtain ⟨r', hr', heq⟩ := List.mem_map.1 hmem
  rwa [← eq_of_mem_numbered (hsub r' hr') hr heq]

/-- However the results are sorted by the numbers of their tasks, they come in the order of the
tasks. -/
theorem map_snd_of_perm {sorted : List (Nat × β)} (h : sorted.Perm (numbered tasks work))
    (hsorted : sorted.Pairwise fun r r' => r.1 ≤ r'.1) : sorted.map Prod.snd = tasks.map work := by
  have hnumbered : (numbered tasks work).Pairwise fun r r' => r.1 ≤ r'.1 := by
    rw [← List.pairwise_map (f := Prod.fst) (R := fun i j => i ≤ j), map_fst_numbered]
    exact List.pairwise_le_range
  have heq : sorted = numbered tasks work :=
    h.eq_of_pairwise (fun r r' hr hr' hle hge =>
      eq_of_mem_numbered (h.mem_iff.1 hr) hr' (Nat.le_antisymm hle hge)) hsorted hnumbered
  rw [heq, map_snd_numbered]

/-- The pool sorts its results in this way. -/
theorem sorted_of_perm (h : p.results.Perm (numbered tasks work)) : p.sorted = tasks.map work := by
  have hascending : Ordered.Ascending (compareOn Prod.fst)
      (Ordered.ofList (compareOn Prod.fst) p.results) := Ordered.ascending_ofList _
  have hnodup : (Ordered.ofList (compareOn Prod.fst) p.results).Nodup := by
    refine hascending.imp ?_
    rintro r _ hlt rfl
    exact Std.OrientedCmp.not_lt_of_lt hlt hlt
  refine map_snd_of_perm ((List.perm_ext_iff_of_nodup hnodup nodup_numbered).2 fun r => ?_)
    (hascending.imp fun hlt => Nat.le_of_lt (Nat.compare_eq_lt.1 hlt))
  rw [← h.mem_iff]
  refine ⟨Ordered.mem_of_mem_ofList, fun hr => ?_⟩
  -- of results with one number there is only one
  obtain ⟨r', hr', heq⟩ : ∃ r' ∈ Ordered.ofList (compareOn Prod.fst) p.results,
      compareOn Prod.fst r r' = .eq := Ordered.exists_mem_ofList hr
  have hsame : r = r' := eq_of_mem_numbered (h.mem_iff.1 hr)
    (h.mem_iff.1 (Ordered.mem_of_mem_ofList hr')) (Std.LawfulEqCmp.eq_of_compare heq)
  rwa [hsame]

/-- All workers have stopped, however they came to it. -/
theorem perm_numbered_of_isDone (hjobs : 1 ≤ jobs)
    (hdone : ((start (min jobs tasks.length)).run tasks work schedule).IsDone) :
    ((start (min jobs tasks.length)).run tasks work schedule).results.Perm
      (numbered tasks work) := by
  refine (sound_run tasks work _ schedule).perm_numbered hdone ?_
  by_cases htasks : tasks = []
  · exact Or.inr htasks
  · left
    have hlength := length_workers_run tasks work (min jobs tasks.length) schedule
    have hpos := List.length_pos_iff.2 htasks
    rw [← List.length_pos_iff, hlength]
    omega

end Pool

/-! ### Work in turns -/

theorem count_turns {w workers : Nat} (h : w < workers) (rounds : Nat) :
    (turns workers rounds).count w = rounds := by
  have honce : (List.range workers).count w = 1 :=
    List.count_eq_one_of_mem List.nodup_range (List.mem_range.2 h)
  rw [turns, List.count_flatten, List.map_replicate, honce, List.sum_replicate_nat, Nat.mul_one]

/-- Work in turns gives the results of all tasks in order, however many workers there are. -/
theorem inParallel_eq_map (jobs : Nat) (tasks : List α) (work : α → β) :
    inParallel jobs tasks work = tasks.map work := by
  rw [inParallel]
  split
  · rfl
  · next hjobs =>
    refine Pool.sorted_of_perm (Pool.perm_numbered_of_isDone (by omega) (Pool.isDone_run ?_))
    intro w hw
    rw [count_turns hw]
    exact Nat.lt_succ_self _

/-! ### Checks -/

theorem CheckRequest.check_eq {fs : FileSystem} {s : Settings} {request : CheckRequest}
    {bundles : List Path}
    (h : collectBundles fs s request.bundles request.workspaces = .ok bundles) :
    request.check fs s = .ok ⟨s, bundles.map (audit fs s)⟩ := by
  rw [check, h]
  dsimp only
  rw [inParallel_eq_map]

/-- The number of workers makes no difference. -/
theorem CheckRequest.run_jobs (fs : FileSystem) (request : CheckRequest) (jobs : Nat) :
    ({ request with jobs } : CheckRequest).run fs = request.run fs := by
  have hcheck : ∀ s, ({ request with jobs } : CheckRequest).check fs s = request.check fs s := by
    intro s
    simp only [check, inParallel_eq_map]
  rw [run, run]
  simp only [hcheck]

/-- **However the workers of a check take turns, the reports are those of the bundles in order.**
When all workers have stopped, each bundle has one report, and however the reports are sorted by the
numbers of their bundles they come out as if the bundles had been audited one after the other.  The
workers do stop if each of them is given enough steps.  So a check has the same outcome whatever the
number of workers. -/
theorem run_check_any_schedule :
    (∀ (tasks : List α) (work : α → β) (jobs : Nat) (schedule : List Nat),
      let pool := (Pool.start (min jobs tasks.length)).run tasks work schedule
      1 ≤ jobs → pool.IsDone →
        (pool.results.map Prod.fst).Perm (List.range tasks.length) ∧
        (∀ sorted : List (Nat × β), sorted.Perm pool.results →
          (sorted.Pairwise fun r r' => r.1 ≤ r'.1) → sorted.map Prod.snd = tasks.map work) ∧
        pool.sorted = tasks.map work) ∧
    (∀ (tasks : List α) (work : α → β) (workers : Nat) (schedule : List Nat),
      (∀ w < workers, 2 * tasks.length < schedule.count w) →
        ((Pool.start workers).run tasks work schedule).IsDone) ∧
    (∀ (fs : FileSystem) (s : Settings) (request : CheckRequest) (bundles : List Path)
      (schedule : List Nat),
      let pool := (Pool.start (min request.jobs bundles.length)).run bundles (audit fs s) schedule
      collectBundles fs s request.bundles request.workspaces = .ok bundles →
        1 ≤ request.jobs → pool.IsDone → request.check fs s = .ok ⟨s, pool.sorted⟩) ∧
    ∀ (fs : FileSystem) (arguments arguments' : List String) (request : CheckRequest) (jobs : Nat),
      Command.ofArguments arguments = .ok (.check request) →
      Command.ofArguments arguments' = .ok (.check { request with jobs }) →
        run fs arguments' = run fs arguments := by
  refine ⟨?_, ?_, ?_, ?_⟩
  · intro tasks work jobs schedule pool hjobs hdone
    have hperm : pool.results.Perm (numbered tasks work) :=
      Pool.perm_numbered_of_isDone hjobs hdone
    refine ⟨?_, fun sorted hsorted => Pool.map_snd_of_perm (hsorted.trans hperm),
      Pool.sorted_of_perm hperm⟩
    rw [← map_fst_numbered tasks work]
    exact hperm.map _
  · intro tasks work workers schedule hsteps
    exact Pool.isDone_run hsteps
  · intro fs s request bundles schedule pool hbundles hjobs hdone
    rw [CheckRequest.check_eq hbundles,
      Pool.sorted_of_perm (Pool.perm_numbered_of_isDone hjobs hdone)]
  · intro fs arguments arguments' request jobs h h'
    rw [run, run, h, h']
    exact CheckRequest.run_jobs fs request jobs

/-- Two workers share three tasks.  The first task is finished last, and one worker looks for a task
that is not there while the other is still busy. -/
theorem run_check_any_schedule_overtaken :
    let schedule := [0, 1, 1, 1, 1, 1, 0, 0]
    let pool := (Pool.start 2).run [10, 20, 30] (· + 1) schedule
    pool.IsDone ∧ pool.results = [(1, 21), (2, 31), (0, 11)] ∧
      (pool.results.map Prod.fst).Perm [0, 1, 2] ∧ pool.sorted = [11, 21, 31] := by
  intro schedule pool
  have hdone : pool.IsDone := by unfold Pool.IsDone; decide
  obtain ⟨hnumbers, -, hsorted⟩ :=
    run_check_any_schedule.1 [10, 20, 30] (· + 1) 2 schedule (by decide) hdone
  exact ⟨hdone, by decide, hnumbers, hsorted⟩

end BundleAudit
