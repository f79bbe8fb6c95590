import Concourse.Worker.Placement

/-!
# Task steps taking and giving back workers

`atc/worker/pool.go` and `atc/exec/task_step.go`: a task step asks the pool for a worker with
`FindOrSelectWorker` and, once it is done, gives it back with `ReleaseWorker`, whatever way
it got it.  `findOrSelectWorker` first looks for a compatible worker that already holds the
step's container (a step resumed after its container was made) and takes it as it is;
otherwise it asks the placement strategy to approve the ordered candidates one by one.
`ReleaseWorker` releases the whole chain, `limit-active-tasks` included.

Task steps run concurrently; a run here is any interleaving of their selections and
releases, one step of the system at a time.  The containers of the steps' owners are a
fixed table, and the order of the candidates is chosen at each selection.
-/

namespace Concourse
namespace Worker

/-- Where a task step stands: before it has a worker, holding one (approved by the strategy
or found holding its container), or after releasing it. -/
inductive Holding where
  | waiting
  | holding (worker : String) (approved : Bool)
  | released
  deriving DecidableEq, Repr

/-- The workers table and the task steps. -/
structure PoolState where
  workers : List WorkerRow
  steps : List Holding
  deriving DecidableEq, Repr

/-- The placement chain of the task steps, and the compatible worker holding each step's
container, if any. -/
structure PoolConfig where
  chain : List Strategy
  containerWorker : Nat → Option String

/-- The loop of `findOrSelectWorker` over the ordered candidates: the first one the chain
approves. -/
def selectCandidate (chain : List Strategy) :
    List String → List WorkerRow → List WorkerRow × Option String
  | [], workers => (workers, none)
  | candidate :: rest, workers =>
    match approveChain true candidate [] chain workers with
    | (workers, none) => (workers, some candidate)
    | (workers, some _) => selectCandidate chain rest workers

/-- `findOrSelectWorker` for a task: the worker holding the container, not approved, or a
candidate the chain approves. -/
def findOrSelectWorker (chain : List Strategy) (containerWorker : Option String)
    (ordered : List String) (workers : List WorkerRow) :
    List WorkerRow × Option (String × Bool) :=
  match containerWorker with
  | some worker => (workers, some (worker, false))
  | none =>
    let (workers, selected) := selectCandidate chain ordered workers
    (workers, selected.map fun worker => (worker, true))

/-- A step of the system: a waiting task step tries to select a worker among the ordered
candidates, or a task step holding a worker releases it. -/
inductive PoolAction where
  | select (step : Nat) (ordered : List String)
  | release (step : Nat)
  deriving DecidableEq, Repr

/-- One step of the system. -/
def poolStep (cfg : PoolConfig) (s : PoolState) : PoolAction → PoolState
  | .select i ordered =>
    match s.steps[i]? with
    | some .waiting =>
      match findOrSelectWorker cfg.chain (cfg.containerWorker i) ordered s.workers with
      | (workers, some (worker, approved)) =>
        { workers, steps := s.steps.set i (.holding worker approved) }
      | (workers, none) => { s with workers }
    | _ => s
  | .release i =>
    match s.steps[i]? with
    | some (.holding worker _) =>
      -- `ReleaseWorker` releases the chain whether or not it approved the worker
      { workers := releaseChain true s.workers worker cfg.chain,
        steps := s.steps.set i .released }
    | _ => s

/-- A run of the system. -/
def poolRun (cfg : PoolConfig) (s : PoolState) (actions : List PoolAction) : PoolState :=
  actions.foldl (poolStep cfg) s

/-- Each worker's `active_tasks` is the number of task steps holding it through an approval. -/
def ActiveTasksCounted (s : PoolState) : Prop :=
  ∀ row ∈ s.workers, row.activeTasks = s.steps.count (.holding row.name true)

instance (s : PoolState) : Decidable (ActiveTasksCounted s) :=
  inferInstanceAs (Decidable (∀ row ∈ s.workers, _))

/-- Step `0` is approved on `w`; step `1`, whose container is on `w`, takes `w` without an
approval and releases it, which takes `0`'s count off; step `2` is then approved on `w`,
beside `0`, though `w` takes one task. -/
theorem poolRun_resumed_release :
    let cfg : PoolConfig := ⟨[.limitActiveTasks 1], fun i => if i = 1 then some "w" else none⟩
    let init : PoolState := ⟨[⟨"w", 0, 0, 0, 0⟩], [.waiting, .waiting, .waiting]⟩
    let final : PoolState :=
      ⟨[⟨"w", 1, 0, 0, 0⟩], [.holding "w" true, .released, .holding "w" true]⟩
    ActiveTasksCounted init ∧
      poolRun cfg init [.select 0 ["w"], .select 1 ["w"], .release 1, .select 2 ["w"]] = final ∧
      ¬ ActiveTasksCounted final := by
  decide

end Worker
end Concourse
