import Mathlib.Data.Nat.Basic
import Concourse.Worker.Placement
import Concourse.Lib.StableSort

/-!
# Ordering the candidate workers

`atc/worker/placement.go`: `PlacementStrategy.Order` shuffles the candidate workers
(`rand.Shuffle`, the parameter `shuffle`) and then lets each strategy of the chain order them,
from the last strategy to the first.  Each strategy's `Order` is a `sort.SliceStable` by a
`less` of its own (`StableSort.sliceStable`):

* `volume-locality`: the workers with more of the container's volumes and caches first, the
  counts being made over the names of the workers it is given;
* `fewest-build-containers`: fewer build containers first, as `BuildContainersCountPerWorker`
  counts them;
* `limit-active-tasks`, for a task's container: fewer active tasks first, a worker whose
  `ActiveTasks` fails being dropped; another container's workers come back as they are;
* `limit-active-containers` and `limit-active-volumes`: the workers under the limit first
  (`partitionWorkersBy`).

A candidate is the `db.Worker` with the columns it was loaded with (`WorkerRow`); `ActiveTasks`
reads its row of the `workers` table again.  What the strategies ask the database is `OrderDB`,
its answers fixed while `Order` runs.

`placementOrder_eq_sliceStable` says that the chain's `Order`, when the database answers, is one
stable sort of the shuffled workers by the chain's lexicographic order (`StableSort.chainLess`),
and `placementOrder_lexicographic` what follows: no worker is lost, and of two workers the first
strategy whose order tells them apart decides which comes first.
-/

namespace Concourse
namespace Worker

open StableSort

/-- A `runtime.Artifact` as `volume-locality` sees it: a volume, with the worker it is on and the
resource cache it holds (`0` for none), or an artifact that is not a volume. -/
inductive Artifact where
  | volume (workerName : String) (resourceCacheID : Nat)
  | other
  deriving DecidableEq, Repr

/-- A `runtime.Input`: its artifact, and whether it comes from a cache. -/
structure Input where
  artifact : Artifact
  fromCache : Bool
  deriving DecidableEq, Repr

/-- What the strategies' `Order` read of a `runtime.ContainerSpec`. -/
structure ContainerSpec where
  /-- `spec.Type == db.ContainerTypeTask` -/
  isTask : Bool
  imageArtifact : Artifact
  inputs : List Input
  caches : List String
  jobID : Int
  stepName : String
  deriving DecidableEq, Repr

/-- What the strategies' `Order` ask the database. -/
structure OrderDB (ResourceCache TaskCache : Type) where
  /-- `ResourceCacheFactory.FindResourceCacheByID` -/
  findResourceCacheByID : Nat → Except String (Option ResourceCache)
  /-- `VolumeRepo.FindWorkersForResourceCache` -/
  findWorkersForResourceCache : ResourceCache → Except String (List String)
  /-- `TaskCacheFactory.Find` of a job, a step and a path -/
  findTaskCache : Int → String → String → Except String (Option TaskCache)
  /-- `VolumeRepo.FindWorkersForTaskCache` -/
  findWorkersForTaskCache : TaskCache → Except String (List String)
  /-- `WorkerFactory.BuildContainersCountPerWorker`, a missing name counting `0` -/
  buildContainersCountPerWorker : Except String (String → Nat)
  /-- the `workers` table -/
  workers : List WorkerRow

/-- `counts[name]++` on the `counts` map of `volume-locality`, where `name` is a key. -/
def bump (counts : String → Option Nat) (name : String) : String → Option Nat :=
  fun n => if n = name then (counts n).map (· + 1) else counts n

/-- `partitionGroup` of `partitionWorkersBy`. -/
def partitionGroup (pred : WorkerRow → Bool) (worker : WorkerRow) : Nat :=
  if pred worker then 0 else 1

/-- `partitionWorkersBy`: the workers `pred` holds of first. -/
def partitionWorkersBy (workers : List WorkerRow) (pred : WorkerRow → Bool) : List WorkerRow :=
  sliceStable (fun a b => decide (partitionGroup pred a < partitionGroup pred b)) workers

/-- `workerSatisfies` of the strategies that limit a count: no limit, or under it. -/
def workerSatisfies (limit active : Int) : Bool :=
  limit == 0 || active < limit

/-- `limitActiveContainersStrategy.workerSatisfies`. -/
def limitActiveContainersSatisfies (maxContainers : Int) (worker : WorkerRow) : Bool :=
  workerSatisfies maxContainers worker.activeContainers

/-- `limitActiveVolumesStrategy.workerSatisfies`. -/
def limitActiveVolumesSatisfies (maxVolumes : Int) (worker : WorkerRow) : Bool :=
  workerSatisfies maxVolumes worker.activeVolumes

section Order

variable {ResourceCache TaskCache : Type} (db : OrderDB ResourceCache TaskCache)

/-- `updateCountsForArtifact`: a volume counts for its worker and, when it holds a resource
cache, for each other worker that has the cache. -/
def updateCountsForArtifact (counts : String → Option Nat) :
    Artifact → Except String (String → Option Nat)
  | .other => .ok counts
  | .volume srcWorker resourceCacheID =>
    let counts := bump counts srcWorker
    if resourceCacheID = 0 then .ok counts
    else
      match db.findResourceCacheByID resourceCacheID with
      | .error err => .error err
      | .ok none => .ok counts
      | .ok (some resourceCache) =>
        match db.findWorkersForResourceCache resourceCache with
        | .error err => .error err
        | .ok workerNames =>
          .ok (workerNames.foldl (fun counts worker =>
            if worker = srcWorker then counts else bump counts worker) counts)

/-- The `counts` of `volumeLocalityStrategy.Order`: a key for each worker's name, then the
image, the inputs that are not from a cache, and the task caches counted. -/
def volumeLocalityCounts (spec : ContainerSpec) (workers : List WorkerRow) :
    Except String (String → Option Nat) := do
  let counts ← updateCountsForArtifact db
    (fun n => if workers.any (·.name == n) then some 0 else none) spec.imageArtifact
  let counts ← spec.inputs.foldlM (fun counts input =>
    if input.fromCache then pure counts else updateCountsForArtifact db counts input.artifact)
    counts
  spec.caches.foldlM (fun counts cachePath =>
    match db.findTaskCache spec.jobID spec.stepName cachePath with
    | .error err => .error err
    | .ok none => .ok counts
    | .ok (some usedTaskCache) =>
      match db.findWorkersForTaskCache usedTaskCache with
      | .error err => .error err
      | .ok workerNames => .ok (workerNames.foldl bump counts)) counts

/-- `worker.ActiveTasks()`: the worker's `active_tasks`, read again from its row. -/
def activeTasksOf (worker : WorkerRow) : Except String Nat :=
  match findRow db.workers worker.name with
  | some row => .ok row.activeTasks
  | none => .error "sql: no rows in result set"

/-- `taskCounts[worker]`: the active tasks of a worker whose `ActiveTasks` answered. -/
def taskCount (worker : WorkerRow) : Nat :=
  (activeTasksOf db worker).toOption.getD 0

/-- `Order` of one strategy. -/
def Strategy.order (spec : ContainerSpec) (workers : List WorkerRow) :
    Strategy → Except String (List WorkerRow)
  | .volumeLocality => do
    let counts ← volumeLocalityCounts db spec workers
    pure (sliceStable (fun a b => decide ((counts a.name).getD 0 > (counts b.name).getD 0))
      workers)
  | .fewestBuildContainers => do
    let counts ← db.buildContainersCountPerWorker
    pure (sliceStable (fun a b => decide (counts a.name < counts b.name)) workers)
  | .limitActiveTasks _ =>
    if !spec.isTask then .ok workers
    else
      -- a worker whose `ActiveTasks` fails is skipped
      let candidates := workers.filter fun worker => (activeTasksOf db worker).isOk
      .ok (sliceStable (fun a b => decide (taskCount db a < taskCount db b)) candidates)
  | .limitActiveContainers maxContainers =>
    .ok (partitionWorkersBy workers (limitActiveContainersSatisfies maxContainers))
  | .limitActiveVolumes maxVolumes =>
    .ok (partitionWorkersBy workers (limitActiveVolumesSatisfies maxVolumes))

/-- For a task's container, `limit-active-tasks` drops a worker whose `ActiveTasks` fails. -/
theorem Strategy.notMem_order_limitActiveTasks {spec : ContainerSpec} (hspec : spec.isTask = true)
    {maxTasks : Int} {workers result : List WorkerRow} {worker : WorkerRow}
    (herr : (activeTasksOf db worker).isOk = false)
    (horder : (Strategy.limitActiveTasks maxTasks).order db spec workers = .ok result) :
    worker ∉ result := by
  simp only [Strategy.order, hspec, Bool.not_true, Bool.false_eq_true, if_false,
    Except.ok.injEq] at horder
  subst horder
  intro hmem
  have hcandidate := (perm_sliceStable _ _).mem_iff.mp hmem
  simp [herr] at hcandidate

/-- `PlacementStrategy.Order`: the shuffled workers, ordered by each strategy of the chain from
the last to the first. -/
def placementOrder (shuffle : List WorkerRow → List WorkerRow) (spec : ContainerSpec)
    (chain : List Strategy) (workers : List WorkerRow) : Except String (List WorkerRow) :=
  chain.foldr (fun strategy candidates => candidates >>= fun candidates =>
    strategy.order db spec candidates) (.ok (shuffle workers))

end Order

/-! ## The chain as one stable sort -/

section Chain

variable {ResourceCache TaskCache : Type} (db : OrderDB ResourceCache TaskCache)
  (spec : ContainerSpec) (volumeCounts : String → Option Nat) (buildCounts : String → Nat)

/-- The `less` of each strategy's sort, given the counts its `Order` reads. -/
def Strategy.less : Strategy → WorkerRow → WorkerRow → Bool
  | .volumeLocality => fun a b =>
    decide ((volumeCounts a.name).getD 0 > (volumeCounts b.name).getD 0)
  | .fewestBuildContainers => fun a b => decide (buildCounts a.name < buildCounts b.name)
  | .limitActiveTasks _ =>
    if spec.isTask then fun a b => decide (taskCount db a < taskCount db b) else fun _ _ => false
  | .limitActiveContainers maxContainers => fun a b =>
    decide (partitionGroup (limitActiveContainersSatisfies maxContainers) a <
      partitionGroup (limitActiveContainersSatisfies maxContainers) b)
  | .limitActiveVolumes maxVolumes => fun a b =>
    decide (partitionGroup (limitActiveVolumesSatisfies maxVolumes) a <
      partitionGroup (limitActiveVolumesSatisfies maxVolumes) b)

/-- Each strategy sorts by a key: its `less` is a strict weak order. -/
theorem Strategy.strictWeakOrder_less (s : Strategy) :
    StrictWeakOrder (s.less db spec volumeCounts buildCounts) := by
  cases s with
  | volumeLocality =>
    exact (StrictWeakOrder.of_key fun worker : WorkerRow => (volumeCounts worker.name).getD 0).swap
  | fewestBuildContainers =>
    exact StrictWeakOrder.of_key fun worker : WorkerRow => buildCounts worker.name
  | limitActiveTasks =>
    rw [Strategy.less]
    split
    · exact StrictWeakOrder.of_key (taskCount db)
    · exact StrictWeakOrder.const_false
  | limitActiveContainers maxContainers =>
    exact StrictWeakOrder.of_key (partitionGroup (limitActiveContainersSatisfies maxContainers))
  | limitActiveVolumes maxVolumes =>
    exact StrictWeakOrder.of_key (partitionGroup (limitActiveVolumesSatisfies maxVolumes))

/-- Every order of a chain of strategies is a strict weak order. -/
theorem Strategy.strictWeakOrder_of_mem_map (chain : List Strategy) :
    ∀ less ∈ chain.map (·.less db spec volumeCounts buildCounts), StrictWeakOrder less := by
  intro less hless
  obtain ⟨s, -, rfl⟩ := List.mem_map.mp hless
  exact s.strictWeakOrder_less db spec volumeCounts buildCounts

/-- The counts of `volume-locality` depend on the workers only through their names. -/
theorem volumeLocalityCounts_perm {workers workers' : List WorkerRow}
    (hp : workers.Perm workers') :
    volumeLocalityCounts db spec workers = volumeLocalityCounts db spec workers' := by
  have hkeys : (fun n => if workers.any (·.name == n) then some 0 else none) =
      fun n => if workers'.any (·.name == n) then some 0 else none :=
    funext fun n => by rw [hp.any_eq]
  rw [volumeLocalityCounts, volumeLocalityCounts, hkeys]

theorem placementOrder_cons (shuffle : List WorkerRow → List WorkerRow) (s : Strategy)
    (chain : List Strategy) (workers : List WorkerRow) :
    placementOrder db shuffle spec (s :: chain) workers =
      placementOrder db shuffle spec chain workers >>= fun candidates =>
        s.order db spec candidates :=
  rfl

variable {spec volumeCounts buildCounts} {workers : List WorkerRow}
  (hvol : volumeLocalityCounts db spec workers = .ok volumeCounts)
  (hbuild : db.buildContainersCountPerWorker = .ok buildCounts)
  (hactive : ∀ worker ∈ workers, (activeTasksOf db worker).isOk = true)
include hvol hbuild hactive

/-- When the database answers, a strategy's `Order` of a permutation of the workers is its
stable sort. -/
theorem Strategy.order_eq (s : Strategy) {candidates : List WorkerRow}
    (hp : candidates.Perm workers) :
    s.order db spec candidates =
      .ok (sliceStable (s.less db spec volumeCounts buildCounts) candidates) := by
  cases s with
  | volumeLocality =>
    simp only [Strategy.order, volumeLocalityCounts_perm db spec hp, hvol]
    rfl
  | fewestBuildContainers =>
    simp only [Strategy.order, hbuild]
    rfl
  | limitActiveTasks =>
    -- every candidate's `ActiveTasks` answers, so none is dropped
    have hall : candidates.filter (fun worker => (activeTasksOf db worker).isOk) = candidates :=
      List.filter_eq_self.mpr fun worker hworker => hactive worker (hp.mem_iff.mp hworker)
    cases hspec : spec.isTask <;>
      simp [Strategy.order, Strategy.less, hspec, hall, sliceStable_const_false]
  | limitActiveContainers | limitActiveVolumes => rfl

variable (shuffle : List WorkerRow → List WorkerRow) (hshuffle : (shuffle workers).Perm workers)
include hshuffle

/-- The chain's `Order`: the stable sorts of its strategies, from the last to the first. -/
theorem placementOrder_eq_foldr (chain : List Strategy) :
    placementOrder db shuffle spec chain workers =
      .ok ((chain.map (·.less db spec volumeCounts buildCounts)).foldr sliceStable
        (shuffle workers)) := by
  induction chain with
  | nil => rfl
  | cons s chain ih =>
    -- the strategies after `s` leave a permutation of the workers
    have hp := (perm_foldr_sliceStable
      (chain.map (·.less db spec volumeCounts buildCounts)) (shuffle workers)).trans hshuffle
    rw [placementOrder_cons, ih]
    exact s.order_eq db hvol hbuild hactive hp

/-- The chain's `Order` is one stable sort of the shuffled workers, by the chain's lexicographic
order. -/
theorem placementOrder_eq_sliceStable (chain : List Strategy) :
    placementOrder db shuffle spec chain workers =
      .ok (sliceStable (chainLess (chain.map (·.less db spec volumeCounts buildCounts)))
        (shuffle workers)) := by
  rw [placementOrder_eq_foldr db hvol hbuild hactive shuffle hshuffle, foldr_sliceStable]
  exact Strategy.strictWeakOrder_of_mem_map db spec volumeCounts buildCounts chain

end Chain

/-- When the database answers, the chain's `Order` loses no worker, and of two workers the first
strategy of the chain whose order tells them apart puts the one it ranks first before the other,
whatever the shuffle. -/
theorem placementOrder_lexicographic {ResourceCache TaskCache : Type}
    (db : OrderDB ResourceCache TaskCache) (shuffle : List WorkerRow → List WorkerRow)
    (spec : ContainerSpec) (chain : List Strategy) (workers : List WorkerRow)
    (volumeCounts : String → Option Nat) (buildCounts : String → Nat)
    (hshuffle : (shuffle workers).Perm workers)
    (hvol : volumeLocalityCounts db spec workers = .ok volumeCounts)
    (hbuild : db.buildContainersCountPerWorker = .ok buildCounts)
    (hactive : ∀ worker ∈ workers, (activeTasksOf db worker).isOk = true) :
    ∃ result, placementOrder db shuffle spec chain workers = .ok result ∧ result.Perm workers ∧
      result.Pairwise fun a b =>
        (!chainLess (chain.map (·.less db spec volumeCounts buildCounts)) b a) = true := by
  have hchain :
      StrictWeakOrder (chainLess (chain.map (·.less db spec volumeCounts buildCounts))) :=
    StrictWeakOrder.chainLess (Strategy.strictWeakOrder_of_mem_map db spec volumeCounts buildCounts
      chain)
  exact ⟨_, placementOrder_eq_sliceStable db hvol hbuild hactive shuffle hshuffle chain,
    (perm_sliceStable _ _).trans hshuffle, pairwise_sliceStable hchain _⟩

/-- Two workers: `a` runs two build containers and `b` one; neither holds a volume, and each has
its row with no active task. -/
def twoWorkersDB : OrderDB Unit Unit where
  findResourceCacheByID _ := .ok none
  findWorkersForResourceCache _ := .ok []
  findTaskCache _ _ _ := .ok none
  findWorkersForTaskCache _ := .ok []
  buildContainersCountPerWorker := .ok fun n => if n = "a" then 2 else 1
  workers := [⟨"a", 0, 0, 0, 0⟩, ⟨"b", 0, 0, 0, 0⟩]

/-- `placementOrder_lexicographic` for a task's container, the chain `fewest-build-containers,
limit-active-tasks` and no shuffle. -/
theorem placementOrder_lexicographic_twoWorkers :
    (id [⟨"a", 0, 0, 0, 0⟩, ⟨"b", 0, 0, 0, 0⟩] : List WorkerRow).Perm
        [⟨"a", 0, 0, 0, 0⟩, ⟨"b", 0, 0, 0, 0⟩] ∧
      volumeLocalityCounts twoWorkersDB ⟨true, .other, [], [], 1, "build"⟩
          [⟨"a", 0, 0, 0, 0⟩, ⟨"b", 0, 0, 0, 0⟩] =
        .ok (fun n => if [(⟨"a", 0, 0, 0, 0⟩ : WorkerRow), ⟨"b", 0, 0, 0, 0⟩].any (·.name == n)
          then some 0 else none) ∧
      twoWorkersDB.buildContainersCountPerWorker = .ok (fun n => if n = "a" then 2 else 1) ∧
      (∀ worker ∈ ([⟨"a", 0, 0, 0, 0⟩, ⟨"b", 0, 0, 0, 0⟩] : List WorkerRow),
        (activeTasksOf twoWorkersDB worker).isOk = true) ∧
      ∃ result, placementOrder twoWorkersDB id ⟨true, .other, [], [], 1, "build"⟩
          [.fewestBuildContainers, .limitActiveTasks 1] [⟨"a", 0, 0, 0, 0⟩, ⟨"b", 0, 0, 0, 0⟩] =
            .ok result ∧
        result.Perm [⟨"a", 0, 0, 0, 0⟩, ⟨"b", 0, 0, 0, 0⟩] ∧
        result.Pairwise fun a b =>
          (!chainLess ([Strategy.fewestBuildContainers, .limitActiveTasks 1].map
            (·.less twoWorkersDB ⟨true, .other, [], [], 1, "build"⟩
              (fun n => if [(⟨"a", 0, 0, 0, 0⟩ : WorkerRow), ⟨"b", 0, 0, 0, 0⟩].any (·.name == n)
                then some 0 else none)
              (fun n => if n = "a" then 2 else 1))) b a) = true := by
  have hactive : ∀ worker ∈ ([⟨"a", 0, 0, 0, 0⟩, ⟨"b", 0, 0, 0, 0⟩] : List WorkerRow),
      (activeTasksOf twoWorkersDB worker).isOk = true := by
    decide
  exact ⟨List.Perm.refl _, rfl, rfl, hactive,
    placementOrder_lexicographic twoWorkersDB id _ _ _ _ _ (List.Perm.refl _) rfl rfl hactive⟩

end Worker
end Concourse
