import Mathlib.Data.List.Basic

/-!
# Container placement strategies

`atc/worker/placement.go`: a `PlacementStrategy` is a chain of strategies.  `Approve` asks
each strategy of the chain in order to take a worker for a container and, when one refuses,
releases the strategies before it and fails; `Release` releases them all, last first.

Only `limit-active-tasks` keeps state: the column `active_tasks` of the worker's row, which
`IncreaseActiveTasks` increments while it is below the maximum (the worker's own
`max_active_tasks` when set, else the strategy's `MaxTasks`) and `DecreaseActiveTasks`
decrements, under the table's `CHECK (active_tasks >= 0)`.  `limit-active-containers` and
`limit-active-volumes` refuse a worker over their limits; the other strategies only order.

The workers table is a list of rows, and the `db.Worker` a strategy is given is its name.
`approveChain_activeTasks` says what `Approve` does to the worker's `active_tasks`: nothing when
it fails, and one more for each strategy that counts them when it succeeds.
-/

namespace Concourse
namespace Worker

/-- The columns of a row of `workers` that placement reads or writes. -/
structure WorkerRow where
  name : String
  activeTasks : Nat
  maxActiveTasks : Int
  activeContainers : Int
  activeVolumes : Int
  deriving DecidableEq, Repr

/-- The strategies of `newPlaceStrategy`; `random` adds none. -/
inductive Strategy where
  | volumeLocality
  | fewestBuildContainers
  | limitActiveTasks (maxTasks : Int)
  | limitActiveContainers (maxContainers : Int)
  | limitActiveVolumes (maxVolumes : Int)
  deriving DecidableEq, Repr

/-- `ErrTooManyActiveTasks`. -/
def errTooManyActiveTasks : String := "worker has too many active tasks"

/-- `ErrTooManyContainers`. -/
def errTooManyContainers : String := "worker has too many containers"

/-- `ErrTooManyVolumes`. -/
def errTooManyVolumes : String := "worker has too many volumes"

/-- The error of an update that would take `active_tasks` below zero. -/
def errActiveTasksCheck : String :=
  "pq: new row for relation \"workers\" violates check constraint \"workers_active_tasks_check\""

/-- The row of a worker. -/
def findRow (workers : List WorkerRow) (name : String) : Option WorkerRow :=
  workers.find? (·.name == name)

/-- Rows of a worker updated by `f`. -/
def updateRow (workers : List WorkerRow) (name : String) (f : WorkerRow → WorkerRow) :
    List WorkerRow :=
  workers.map fun row => if row.name = name then f row else row

/-- `IncreaseActiveTasks`: `active_tasks+1` where `active_tasks < max`; no row is
`ErrTooManyActiveTasks`. -/
def increaseActiveTasks (workers : List WorkerRow) (name : String) (maxTaskNum : Int) :
    Except String (List WorkerRow) :=
  match findRow workers name with
  | some row =>
    if (row.activeTasks : Int) < maxTaskNum then
      .ok (updateRow workers name fun row => { row with activeTasks := row.activeTasks + 1 })
    else .error errTooManyActiveTasks
  | none => .error errTooManyActiveTasks

/-- `DecreaseActiveTasks`: `active_tasks-1`, refused by the check at zero. -/
def decreaseActiveTasks (workers : List WorkerRow) (name : String) :
    Except String (List WorkerRow) :=
  match findRow workers name with
  | some row =>
    if row.activeTasks = 0 then .error errActiveTasksCheck
    else .ok (updateRow workers name fun row => { row with activeTasks := row.activeTasks - 1 })
  | none => .error "sql: no rows in result set"

section Strategies

-- whether the container is a task's, `spec.Type == db.ContainerTypeTask`
variable (isTask : Bool)

/-- `Approve` of one strategy: the rows after it, or its error. -/
def Strategy.approve (workers : List WorkerRow) (worker : String) :
    Strategy → Except String (List WorkerRow)
  | .limitActiveTasks maxTasks =>
    if !isTask || maxTasks = 0 then .ok workers
    else
      let workersMax := ((findRow workers worker).map (·.maxActiveTasks)).getD 0
      increaseActiveTasks workers worker (if workersMax > 0 then workersMax else maxTasks)
  | .limitActiveContainers maxContainers =>
    match findRow workers worker with
    | some row =>
      if maxContainers = 0 || row.activeContainers < maxContainers then .ok workers
      else .error errTooManyContainers
    | none => .ok workers
  | .limitActiveVolumes maxVolumes =>
    match findRow workers worker with
    | some row =>
      if maxVolumes = 0 || row.activeVolumes < maxVolumes then .ok workers
      else .error errTooManyVolumes
    | none => .ok workers
  | .volumeLocality | .fewestBuildContainers => .ok workers

/-- `Release` of one strategy; an error of `DecreaseActiveTasks` is only logged. -/
def Strategy.release (workers : List WorkerRow) (worker : String) :
    Strategy → List WorkerRow
  | .limitActiveTasks maxTasks =>
    if !isTask || maxTasks = 0 then workers
    else
      match decreaseActiveTasks workers worker with
      | .ok workers => workers
      | .error _ => workers
  | _ => workers

/-- `PlacementStrategy.Release`: the strategies of the chain, last first. -/
def releaseChain (workers : List WorkerRow) (worker : String) (chain : List Strategy) :
    List WorkerRow :=
  chain.foldr (fun s workers => s.release isTask workers worker) workers

/-- `PlacementStrategy.Approve`, after the strategies `done` approved: the rows, and the error
of the first strategy that refuses, the strategies before it being released. -/
def approveChain (worker : String) (done : List Strategy) :
    List Strategy → List WorkerRow → List WorkerRow × Option String
  | [], workers => (workers, none)
  | s :: rest, workers =>
    match s.approve isTask workers worker with
    | .ok workers => approveChain worker (done ++ [s]) rest workers
    | .error err => (releaseChain isTask workers worker done, some err)

end Strategies

/-! ## Active tasks through `Approve` -/

/-- The `active_tasks` of a worker's row, if it has one. -/
def activeTasks (workers : List WorkerRow) (name : String) : Option Nat :=
  (findRow workers name).map (·.activeTasks)

theorem findRow_updateRow {workers : List WorkerRow} {name : String} {f : WorkerRow → WorkerRow}
    (hf : ∀ row, (f row).name = row.name) :
    findRow (updateRow workers name f) name = (findRow workers name).map f := by
  induction workers with
  | nil => rfl
  | cons row workers ih =>
    by_cases h : row.name = name
    · simp [findRow, updateRow, h, hf]
    · simpa [findRow, updateRow, h] using ih

theorem activeTasks_increaseActiveTasks {workers workers' : List WorkerRow} {name : String}
    {maxTaskNum : Int} (h : increaseActiveTasks workers name maxTaskNum = .ok workers') :
    activeTasks workers' name = (activeTasks workers name).map (· + 1) := by
  unfold increaseActiveTasks at h
  split at h
  · split at h
    · cases h
      simp [activeTasks, findRow_updateRow, Option.map_map, Function.comp_def]
    · cases h
  · cases h

/-- `DecreaseActiveTasks` takes one off, and the check refuses to go below zero, which is what
truncated subtraction does; a missing row stays missing. -/
theorem activeTasks_decreaseActiveTasks (workers : List WorkerRow) (name : String) :
    activeTasks (match decreaseActiveTasks workers name with
      | .ok workers => workers
      | .error _ => workers) name = (activeTasks workers name).map (· - 1) := by
  unfold decreaseActiveTasks
  cases hrow : findRow workers name with
  | none => simp [activeTasks, hrow]
  | some row =>
    by_cases hzero : row.activeTasks = 0
    · simp [activeTasks, hrow, hzero]
    · simp [activeTasks, hrow, hzero, findRow_updateRow]

section Counts

variable (isTask : Bool)

/-- Whether a strategy counts the worker's active tasks for the container: `limit-active-tasks`
with a limit, for a task's container. -/
def Strategy.countsTasks : Strategy → Bool
  | .limitActiveTasks maxTasks => isTask && maxTasks != 0
  | _ => false

/-- The strategies of a chain that count active tasks. -/
def countTasks (chain : List Strategy) : Nat :=
  (chain.filter (Strategy.countsTasks isTask)).length

theorem Strategy.activeTasks_approve {workers workers' : List WorkerRow} {worker : String}
    {s : Strategy} (h : s.approve isTask workers worker = .ok workers') :
    activeTasks workers' worker =
      (activeTasks workers worker).map (· + if s.countsTasks isTask then 1 else 0) := by
  cases s with
  | limitActiveTasks maxTasks =>
    simp only [Strategy.approve] at h
    split at h
    · cases h
      rename_i hoff
      have : (isTask && maxTasks != 0) = false := by
        cases isTask <;> simp_all
      simp [Strategy.countsTasks, this]
    · rename_i hon
      have : (isTask && maxTasks != 0) = true := by
        cases isTask <;> simp_all
      simp [Strategy.countsTasks, this, activeTasks_increaseActiveTasks h]
  | limitActiveContainers maxContainers =>
    simp only [Strategy.approve] at h
    split at h
    · split at h <;> cases h
      simp [Strategy.countsTasks]
    · cases h
      simp [Strategy.countsTasks]
  | limitActiveVolumes maxVolumes =>
    simp only [Strategy.approve] at h
    split at h
    · split at h <;> cases h
      simp [Strategy.countsTasks]
    · cases h
      simp [Strategy.countsTasks]
  | volumeLocality | fewestBuildContainers =>
    cases h
    simp [Strategy.countsTasks]

theorem Strategy.activeTasks_release (workers : List WorkerRow) (worker : String) (s : Strategy) :
    activeTasks (s.release isTask workers worker) worker =
      (activeTasks workers worker).map (· - if s.countsTasks isTask then 1 else 0) := by
  cases s with
  | limitActiveTasks maxTasks =>
    by_cases hoff : (!isTask || decide (maxTasks = 0)) = true
    · have : (isTask && maxTasks != 0) = false := by
        cases isTask <;> simp_all
      simp [Strategy.release, hoff, Strategy.countsTasks, this]
    · have : (isTask && maxTasks != 0) = true := by
        cases isTask <;> simp_all
      simp only [Strategy.release, if_neg hoff, Strategy.countsTasks, this, if_true]
      exact activeTasks_decreaseActiveTasks workers worker
  | _ => simp [Strategy.release, Strategy.countsTasks]

theorem countTasks_cons (s : Strategy) (chain : List Strategy) :
    countTasks isTask (s :: chain) = (if s.countsTasks isTask then 1 else 0) + countTasks isTask chain := by
  by_cases h : s.countsTasks isTask <;> simp [countTasks, h, Nat.add_comm]

theorem countTasks_append (done chain : List Strategy) :
    countTasks isTask (done ++ chain) = countTasks isTask done + countTasks isTask chain := by
  simp [countTasks, List.filter_append]

/-- Releasing a chain takes one active task off for each strategy of it that counts them. -/
theorem activeTasks_releaseChain (workers : List WorkerRow) (worker : String) :
    ∀ done : List Strategy, activeTasks (releaseChain isTask workers worker done) worker =
      (activeTasks workers worker).map (· - countTasks isTask done)
  | [] => by simp [releaseChain, countTasks]
  | s :: done => by
    have ih := activeTasks_releaseChain workers worker done
    simp only [releaseChain, List.foldr_cons] at ih ⊢
    rw [Strategy.activeTasks_release, ih, Option.map_map, countTasks_cons]
    congr 1
    funext n
    simp only [Function.comp_apply]
    omega

/-- `approveChain` from rows that hold the increments of the strategies `done`: when it fails, the
worker's active tasks are back where they were before `done`, and when it succeeds they have the
increments of `done` and of the rest of the chain. -/
theorem activeTasks_approveChain (worker : String) (before : Option Nat) :
    ∀ (chain done : List Strategy) (workers : List WorkerRow),
      activeTasks workers worker = before.map (· + countTasks isTask done) →
      let result := approveChain isTask worker done chain workers
      (result.2.isSome → activeTasks result.1 worker = before) ∧
        (result.2 = none → activeTasks result.1 worker = before.map (· + countTasks isTask (done ++ chain)))
  | [], done, workers, h => by simp [approveChain, h]
  | s :: chain, done, workers, h => by
    simp only [approveChain]
    split
    · -- the strategy approved: its increment joins those of `done`
      rename_i workers' happrove
      have hnext : activeTasks workers' worker =
          before.map (· + countTasks isTask (done ++ [s])) := by
        rw [Strategy.activeTasks_approve isTask happrove, h, Option.map_map, countTasks_append,
          countTasks_cons]
        simp [countTasks, Function.comp_def, Nat.add_assoc]
      have := activeTasks_approveChain worker before chain (done ++ [s]) workers' hnext
      simpa using this
    · -- the strategy refused, with nothing changed: `done` is released
      simp only [Option.isSome_some, forall_const, reduceCtorEq, IsEmpty.forall_iff, and_true]
      rw [activeTasks_releaseChain, h, Option.map_map]
      simp [Function.comp_def]

/-- A failed `Approve` leaves the worker's active tasks as they were, the strategies that
incremented before the refusal being released and the refusing one not having incremented; a
successful one adds one for each strategy of the chain that counts active tasks. -/
theorem approveChain_activeTasks (worker : String) (chain : List Strategy)
    (workers : List WorkerRow) :
    let result := approveChain isTask worker [] chain workers
    (result.2.isSome → activeTasks result.1 worker = activeTasks workers worker) ∧
      (result.2 = none →
        activeTasks result.1 worker = (activeTasks workers worker).map (· + countTasks isTask chain)) := by
  have hstart : activeTasks workers worker =
      (activeTasks workers worker).map (· + countTasks isTask []) := by
    simp [countTasks]
  simpa using activeTasks_approveChain isTask worker (activeTasks workers worker) chain [] workers
    hstart

/-- The containers limit refuses the worker after the tasks limit counted the task: the count is
given back. -/
theorem approveChain_activeTasks_refused :
    (approveChain true "w1" [] [.limitActiveTasks 2, .limitActiveContainers 3]
        [⟨"w1", 0, 0, 5, 0⟩]).2 = some errTooManyContainers ∧
      activeTasks (approveChain true "w1" [] [.limitActiveTasks 2, .limitActiveContainers 3]
        [⟨"w1", 0, 0, 5, 0⟩]).1 "w1" = some 0 := by
  have hrefused : (approveChain true "w1" [] [.limitActiveTasks 2, .limitActiveContainers 3]
      [⟨"w1", 0, 0, 5, 0⟩]).2 = some errTooManyContainers := by decide
  refine ⟨hrefused, ?_⟩
  rw [(approveChain_activeTasks true "w1" [.limitActiveTasks 2, .limitActiveContainers 3]
    [⟨"w1", 0, 0, 5, 0⟩]).1 (by rw [hrefused]; rfl)]
  rfl

end Counts
end Worker
end Concourse
