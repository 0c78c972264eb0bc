import BundleAudit.Ordered

/-!
# A pool of workers

Tasks are shared among workers.  A worker takes the next task, works on it, and puts the result,
with the number of the task, beside those of the others; it stops when no task is left.  Taking a
task and putting a result are single steps, and the steps of different workers may follow each other
in any order.  The results are brought into the order of the tasks at the end.

## Main definitions

* `Worker` — what a worker is doing.
* `Pool` — the tasks taken so far, the workers, and the results so far.
* `Pool.step` — the pool after a step of one worker.
* `Pool.run` — the pool after the steps of a schedule.
* `inParallel` — the results of all tasks, worked on in turns.
-/

namespace BundleAudit

variable {α β : Type}

/-- What a worker is doing. -/
inductive Worker (α : Type) where
  /-- It is about to take a task. -/
  | ready
  /-- It works on the task of a number. -/
  | busy (i : Nat) (task : α)
  /-- It has found no task. -/
  | stopped
deriving DecidableEq, Repr

/-- The state of a pool. -/
structure Pool (α β : Type) where
  /-- The number of the task to be taken next. -/
  next : Nat
  /-- The workers. -/
  workers : List (Worker α)
  /-- The results so far, each with the number of its task. -/
  results : List (Nat × β)
deriving DecidableEq, Repr

namespace Pool

/-- A pool before the first step. -/
def start (workers : Nat) : Pool α β := ⟨0, List.replicate workers .ready, []⟩

/-- The pool after a step of one worker.  A worker that has stopped makes no step. -/
def step (tasks : List α) (work : α → β) (p : Pool α β) (w : Nat) : Pool α β :=
  match p.workers[w]? with
  | some .ready =>
    -- the counter moves on even if no task is left
    match tasks[p.next]? with
    | some task => ⟨p.next + 1, p.workers.set w (.busy p.next task), p.results⟩
    | none => ⟨p.next + 1, p.workers.set w .stopped, p.results⟩
  | some (.busy i task) => ⟨p.next, p.workers.set w .ready, p.results ++ [(i, work task)]⟩
  | some .stopped => p
  | none => p

/-- The pool after steps of workers, in the order of a schedule. -/
def run (tasks : List α) (work : α → β) (p : Pool α β) (schedule : List Nat) : Pool α β :=
  schedule.foldl (step tasks work) p

/-- Whether every worker has stopped. -/
def IsDone (p : Pool α β) : Prop := ∀ w ∈ p.workers, w = .stopped

/-- The results in the order of the tasks. -/
def sorted (p : Pool α β) : List β :=
  (Ordered.ofList (compareOn Prod.fst) p.results).map Prod.snd

end Pool

/-- The schedule in which the workers take turns, a number of times. -/
def turns (workers rounds : Nat) : List Nat := (List.replicate rounds (List.range workers)).flatten

/-- The results of tasks in order, worked on by at most `jobs` workers that take turns.  A worker
makes two steps for each task that it takes and one to stop. -/
def inParallel (jobs : Nat) (tasks : List α) (work : α → β) : List β :=
  if jobs ≤ 1 ∨ tasks.length ≤ 1 then tasks.map work
  else
    let workers := min jobs tasks.length
    (((Pool.start workers).run tasks work (turns workers (2 * tasks.length + 1))).sorted)

end BundleAudit
