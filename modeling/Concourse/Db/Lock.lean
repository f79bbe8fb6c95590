import Concourse.Lib.AdvisoryLock
import Concourse.Lib.Interleaving

/-!
# Locks shared by the ATCs

`db/lock/lock.go`.  Every ATC opens one database session for each of its lock factories, and a
lock is a PostgreSQL advisory lock taken in the session of the factory its type maps to.  An
advisory lock can be taken again by the session that holds it, so each factory also keeps a
registry of the locks its goroutines hold (`lockRepo`), and a mutex makes the check of the
registry, the database call and the registration of one `Acquire` happen without another
`Acquire` of the factory in between.  `Release` gives the database lock back and then removes the
registration, without the mutex.

The model runs any number of goroutines of any number of ATCs, each goroutine in its own place in
`Acquire` or `Release` (`Phase`), one atomic step of the code at a time (`step`).  A database call
may fail, and then has no effect.

* `Inv`: the mutex is owned exactly by the goroutine inside `Acquire`, a registry holds a key
  exactly while a goroutine of its factory holds or releases a lock with that key (and one
  goroutine at most), and a goroutine that took the database lock holds it in its session.  Every
  step keeps it (`Inv.step`), so it holds in every reachable state (`reachable_inv`).
* Two goroutines never hold one lock, on one ATC or on two (`holding_unique`).
* The database call of the `Release` of a held lock gives the lock back: `Release` reports
  `ErrLostLock` only when that call fails (`dbRelease_of_holding`).

Left out: the loss of a session (its advisory locks are then dropped by the database while the
registry keeps them, the case `ErrLostLock` reports), the lock types whose ids come from a
checksum of a name, and the logging.
-/

namespace Concourse.Db.Lock

open AdvisoryLock

/-- `LockTypeResourceConfigChecking`. -/
def lockTypeResourceConfigChecking : Int := 0
/-- `LockTypeBuildTracking`. -/
def lockTypeBuildTracking : Int := 1
/-- `LockTypeVolumeCreating`. -/
def lockTypeVolumeCreating : Int := 3
/-- `LockTypeJobScheduling`. -/
def lockTypeJobScheduling : Int := 7
/-- `LockTypeInMemoryCheckBuildTracking`. -/
def lockTypeInMemoryCheckBuildTracking : Int := 8

/-- The lock factories of an ATC, one database session each. -/
inductive Factory
  | default
  | volumeCreating
  | resourceConfigChecking
  | inMemoryCheckBuildTracking
  | buildTracking
  | jobScheduling
  deriving DecidableEq, Repr

/-- `mapLockTypeToFactory`. -/
def mapLockTypeToFactory (lockType : Int) : Factory :=
  if lockType = lockTypeVolumeCreating then .volumeCreating
  else if lockType = lockTypeResourceConfigChecking then .resourceConfigChecking
  else if lockType = lockTypeInMemoryCheckBuildTracking then .inMemoryCheckBuildTracking
  else if lockType = lockTypeBuildTracking then .buildTracking
  else if lockType = lockTypeJobScheduling then .jobScheduling
  else .default

/-- `LockID`: the lock type, then the numbers that tell the locks of a type apart. -/
structure LockID where
  lockType : Int
  args : List Int
  deriving DecidableEq, Repr

namespace LockID

/-- The numbers of the id, as the slice holds them and `toDBArgs` passes them to the database. -/
def toList (id : LockID) : List Int := id.lockType :: id.args

/-- `toKey`: the key of the id in a factory's registry. -/
def toKey (id : LockID) : String := "+".intercalate (id.toList.map toString)

/-- The factory that `lockFactories.Acquire` hands the id to. -/
def factory (id : LockID) : Factory := mapLockTypeToFactory id.lockType

theorem toList_injective : Function.Injective toList := by
  rintro ⟨t, a⟩ ⟨t', a'⟩ h
  simp only [toList, List.cons.injEq] at h
  rw [h.1, h.2]

end LockID

/-- `math.MaxInt32`. -/
def maxInt32 : Int := 2147483647

/-- `NewBuildTrackingLockID`. -/
def newBuildTrackingLockID (buildID : Int) : LockID :=
  ⟨lockTypeBuildTracking, [buildID.tmod maxInt32]⟩

/-- `NewJobSchedulingLockID`. -/
def newJobSchedulingLockID (jobID : Int) : LockID :=
  ⟨lockTypeJobScheduling, [jobID]⟩

/-- Where a goroutine is in `lock.Acquire` and `lock.Release`. -/
inductive Phase
  /-- Outside both. -/
  | idle
  /-- It owns the factory's `acquireMutex`, before `IsRegistered`. -/
  | checking (id : LockID)
  /-- The id is not registered, before the database call `pg_try_advisory_lock`. -/
  | trying (id : LockID)
  /-- The database lock is taken, before `Register`. -/
  | registering (id : LockID)
  /-- `Acquire` returned the lock. -/
  | holding (id : LockID)
  /-- `pg_advisory_unlock` reported `released`, before `Unregister`. -/
  | unregistering (id : LockID) (released : Bool)
  deriving DecidableEq, Repr

namespace Phase

/-- The lock a goroutine is taking, holding or giving back. -/
def lockId : Phase → Option LockID
  | idle => none
  | checking id | trying id | registering id | holding id | unregistering id _ => some id

section
variable {id : LockID}
-- one equation per constructor, so that proofs do not each unfold `lockId`
@[simp] theorem lockId_idle : idle.lockId = none := rfl
@[simp] theorem lockId_checking : (checking id).lockId = some id := rfl
@[simp] theorem lockId_trying : (trying id).lockId = some id := rfl
@[simp] theorem lockId_registering : (registering id).lockId = some id := rfl
@[simp] theorem lockId_holding : (holding id).lockId = some id := rfl
@[simp] theorem lockId_unregistering {released : Bool} : (unregistering id released).lockId = some id :=
  rfl
end

/-- The lock of a goroutine inside `Acquire`, where it owns the factory's mutex. -/
def acquiring : Phase → Option LockID
  | checking id | trying id | registering id => some id
  | _ => none

/-- The lock of a goroutine that registered it and has not removed the registration. -/
def registered : Phase → Option LockID
  | holding id | unregistering id _ => some id
  | _ => none

/-- The lock of a goroutine that took it in the database and has not given it back. -/
def dbHeld : Phase → Option LockID
  | registering id | holding id => some id
  | _ => none

end Phase

/-- All the ATCs' lock state: the database's advisory locks by session, and each factory's
registry and mutex. -/
structure State (N G : Type) where
  db : Table (N × Factory) (List Int)
  registry : N → Factory → String → Bool
  acquireMutex : N → Factory → Option G
  phase : G → Phase

/-- An atomic step of a goroutine; a database call names whether it fails. -/
inductive Action (G : Type)
  | acquire (g : G) (id : LockID)
  | isRegistered (g : G)
  | dbAcquire (g : G) (fails : Bool)
  | register (g : G)
  | dbRelease (g : G) (fails : Bool)
  | unregister (g : G)

/-- The goroutine that takes the step. -/
def Action.goroutine {G : Type} : Action G → G
  | .acquire g _ | .isRegistered g | .dbAcquire g _ | .register g | .dbRelease g _ | .unregister g => g

namespace State

variable {N G : Type}

/-- No lock taken, every goroutine outside the lock code. -/
def init : State N G := ⟨Table.empty, fun _ _ _ => false, fun _ _ => none, fun _ => .idle⟩

/-- Goroutine `g` moves to `p`. -/
def setPhase [DecidableEq G] (s : State N G) (g : G) (p : Phase) : State N G :=
  { s with phase := fun h => if h = g then p else s.phase h }

/-- The mutex of factory `f` of ATC `n` is set to `o`. -/
def setMutex [DecidableEq N] (s : State N G) (n : N) (f : Factory) (o : Option G) : State N G :=
  { s with acquireMutex := fun n' f' => if n' = n ∧ f' = f then o else s.acquireMutex n' f' }

/-- Key `k` of the registry of factory `f` of ATC `n` is set to `b`. -/
def setRegistry [DecidableEq N] (s : State N G) (n : N) (f : Factory) (k : String) (b : Bool) :
    State N G :=
  { s with registry := fun n' f' k' =>
      if n' = n ∧ f' = f ∧ k' = k then b else s.registry n' f' k' }

variable {s : State N G} {g h : G} {p : Phase} {n n' : N} {f f' : Factory} {k k' : String}
  {o : Option G} {b : Bool}

section
variable [DecidableEq G]

@[simp] theorem phase_setPhase : (s.setPhase g p).phase h = if h = g then p else s.phase h := rfl
@[simp] theorem db_setPhase : (s.setPhase g p).db = s.db := rfl
@[simp] theorem registry_setPhase : (s.setPhase g p).registry = s.registry := rfl
@[simp] theorem acquireMutex_setPhase : (s.setPhase g p).acquireMutex = s.acquireMutex := rfl

/-- A projection of the phases that a move of `g` leaves as it is for `g` is left as it is for
every goroutine. -/
theorem proj_setPhase {π : Phase → Option LockID} (hπ : π p = π (s.phase g)) :
    π ((s.setPhase g p).phase h) = π (s.phase h) := by
  simp only [phase_setPhase]
  split
  · rename_i hhg
    rw [hhg, hπ]
  · rfl

end

variable [DecidableEq N]

@[simp] theorem acquireMutex_setMutex :
    (s.setMutex n f o).acquireMutex n' f' = if n' = n ∧ f' = f then o else s.acquireMutex n' f' :=
  rfl
@[simp] theorem db_setMutex : (s.setMutex n f o).db = s.db := rfl
@[simp] theorem registry_setMutex : (s.setMutex n f o).registry = s.registry := rfl
@[simp] theorem phase_setMutex : (s.setMutex n f o).phase = s.phase := rfl

@[simp] theorem registry_setRegistry :
    (s.setRegistry n f k b).registry n' f' k' =
      if n' = n ∧ f' = f ∧ k' = k then b else s.registry n' f' k' := rfl
@[simp] theorem db_setRegistry : (s.setRegistry n f k b).db = s.db := rfl
@[simp] theorem acquireMutex_setRegistry : (s.setRegistry n f k b).acquireMutex = s.acquireMutex :=
  rfl
@[simp] theorem phase_setRegistry : (s.setRegistry n f k b).phase = s.phase := rfl

end State

section Protocol

variable {N G : Type} [DecidableEq N] [DecidableEq G] (node : G → N)

open State

/-- One atomic step of a goroutine of ATC `node g`, or `none` where it cannot move. -/
def step (s : State N G) : Action G → Option (State N G)
  | .acquire g id =>
    -- `acquireMutex.Lock()` waits while another goroutine of the factory is in `Acquire`
    match s.phase g, s.acquireMutex (node g) id.factory with
    | .idle, none => some ((s.setMutex (node g) id.factory (some g)).setPhase g (.checking id))
    | _, _ => none
  | .isRegistered g =>
    match s.phase g with
    | .checking id =>
      -- "not-acquired-already-held-locally": the deferred `Unlock` frees the mutex
      if s.registry (node g) id.factory id.toKey then
        some ((s.setMutex (node g) id.factory none).setPhase g .idle)
      else some (s.setPhase g (.trying id))
    | _ => none
  | .dbAcquire g fails =>
    match s.phase g with
    | .trying id =>
      let r := s.db.tryLock (node g, id.factory) id.toList
      if !fails && r.2 then some ({ s with db := r.1 }.setPhase g (.registering id))
      else some ((s.setMutex (node g) id.factory none).setPhase g .idle)
    | _ => none
  | .register g =>
    match s.phase g with
    | .registering id =>
      -- `Register`, then the deferred `Unlock`: no other goroutine of the factory can be in
      -- `Acquire` between the two, so they are one step
      some (((s.setRegistry (node g) id.factory id.toKey true).setMutex (node g) id.factory
        none).setPhase g (.holding id))
    | _ => none
  | .dbRelease g fails =>
    match s.phase g with
    | .holding id =>
      if fails then some (s.setPhase g (.unregistering id false))
      else
        let r := s.db.unlock (node g, id.factory) id.toList
        some ({ s with db := r.1 }.setPhase g (.unregistering id r.2))
    | _ => none
  | .unregister g =>
    match s.phase g with
    | .unregistering id _ => some ((s.setRegistry (node g) id.factory id.toKey false).setPhase g .idle)
    | _ => none

/-- A state some interleaving of steps reaches from `init`. -/
def Reachable (s : State N G) : Prop :=
  Interleaving.Reachable (step node) init s

/-! ### What each step does -/

variable {node} {s s' : State N G} {g : G} {id : LockID} {fails : Bool}

theorem step_acquire (h : step node s (.acquire g id) = some s') :
    s.phase g = .idle ∧ s.acquireMutex (node g) id.factory = none ∧
      s' = (s.setMutex (node g) id.factory (some g)).setPhase g (.checking id) := by
  simp only [step] at h
  split at h
  · rename_i hp hm
    exact ⟨hp, hm, (Option.some.inj h).symm⟩
  · cases h

theorem step_isRegistered (h : step node s (.isRegistered g) = some s') :
    ∃ id, s.phase g = .checking id ∧
      ((s.registry (node g) id.factory id.toKey = true ∧
          s' = (s.setMutex (node g) id.factory none).setPhase g .idle) ∨
        (s.registry (node g) id.factory id.toKey = false ∧ s' = s.setPhase g (.trying id))) := by
  simp only [step] at h
  split at h
  · rename_i id hp
    refine ⟨id, hp, ?_⟩
    split at h
    · exact .inl ⟨‹_›, (Option.some.inj h).symm⟩
    · rename_i hreg
      exact .inr ⟨by simpa using hreg, (Option.some.inj h).symm⟩
  · cases h

theorem step_dbAcquire (h : step node s (.dbAcquire g fails) = some s') :
    ∃ id, s.phase g = .trying id ∧
      ((fails = false ∧ (s.db.tryLock (node g, id.factory) id.toList).2 = true ∧
          s' = { s with db := (s.db.tryLock (node g, id.factory) id.toList).1 }.setPhase g
            (.registering id)) ∨
        s' = (s.setMutex (node g) id.factory none).setPhase g .idle) := by
  simp only [step] at h
  split at h
  · rename_i id hp
    refine ⟨id, hp, ?_⟩
    split at h
    · rename_i hok
      simp only [Bool.and_eq_true, Bool.not_eq_true'] at hok
      exact .inl ⟨hok.1, hok.2, (Option.some.inj h).symm⟩
    · exact .inr (Option.some.inj h).symm
  · cases h

theorem step_register (h : step node s (.register g) = some s') :
    ∃ id, s.phase g = .registering id ∧
      s' = ((s.setRegistry (node g) id.factory id.toKey true).setMutex (node g) id.factory
        none).setPhase g (.holding id) := by
  simp only [step] at h
  split at h
  · rename_i id hp
    exact ⟨id, hp, (Option.some.inj h).symm⟩
  · cases h

theorem step_dbRelease (h : step node s (.dbRelease g fails) = some s') :
    ∃ id, s.phase g = .holding id ∧
      ((fails = true ∧ s' = s.setPhase g (.unregistering id false)) ∨
        (fails = false ∧ s' = { s with db := (s.db.unlock (node g, id.factory) id.toList).1 }.setPhase
          g (.unregistering id (s.db.unlock (node g, id.factory) id.toList).2))) := by
  simp only [step] at h
  split at h
  · rename_i id hp
    refine ⟨id, hp, ?_⟩
    cases fails
    · exact .inr ⟨rfl, (Option.some.inj h).symm⟩
    · exact .inl ⟨rfl, (Option.some.inj h).symm⟩
  · cases h

theorem step_unregister (h : step node s (.unregister g) = some s') :
    ∃ id released, s.phase g = .unregistering id released ∧
      s' = (s.setRegistry (node g) id.factory id.toKey false).setPhase g .idle := by
  simp only [step] at h
  split at h
  · rename_i id released hp
    exact ⟨id, released, hp, (Option.some.inj h).symm⟩
  · cases h

/-- A step moves only its own goroutine. -/
theorem phase_step_of_ne {a : Action G} {h : G} (hs : step node s a = some s')
    (hne : h ≠ a.goroutine) : s'.phase h = s.phase h := by
  cases a with
  | acquire g id =>
    obtain ⟨-, -, rfl⟩ := step_acquire hs
    simp [show h ≠ g from hne]
  | isRegistered g =>
    obtain ⟨id, -, ⟨-, rfl⟩ | ⟨-, rfl⟩⟩ := step_isRegistered hs <;> simp [show h ≠ g from hne]
  | dbAcquire g fails =>
    obtain ⟨id, -, ⟨-, -, rfl⟩ | rfl⟩ := step_dbAcquire hs <;> simp [show h ≠ g from hne]
  | register g =>
    obtain ⟨id, -, rfl⟩ := step_register hs
    simp [show h ≠ g from hne]
  | dbRelease g fails =>
    obtain ⟨id, -, ⟨-, rfl⟩ | ⟨-, rfl⟩⟩ := step_dbRelease hs <;> simp [show h ≠ g from hne]
  | unregister g =>
    obtain ⟨id, released, -, rfl⟩ := step_unregister hs
    simp [show h ≠ g from hne]

/-- Past `acquire`, a goroutine's steps keep the lock it is about or drop it, never take another. -/
theorem lockId_step {a : Action G} {id : LockID} (hs : step node s a = some s')
    (hacq : ∀ id', a ≠ .acquire a.goroutine id')
    (h : (s'.phase a.goroutine).lockId = some id) : (s.phase a.goroutine).lockId = some id := by
  cases a with
  | acquire g id' => exact absurd rfl (hacq id')
  | isRegistered g =>
    obtain ⟨id', hp, ⟨-, rfl⟩ | ⟨-, rfl⟩⟩ := step_isRegistered hs <;>
      simp_all [Action.goroutine, Phase.lockId]
  | dbAcquire g fails =>
    obtain ⟨id', hp, ⟨-, -, rfl⟩ | rfl⟩ := step_dbAcquire hs <;>
      simp_all [Action.goroutine, Phase.lockId]
  | register g =>
    obtain ⟨id', hp, rfl⟩ := step_register hs
    simp_all [Action.goroutine, Phase.lockId]
  | dbRelease g fails =>
    obtain ⟨id', hp, ⟨-, rfl⟩ | ⟨-, rfl⟩⟩ := step_dbRelease hs <;>
      simp_all [Action.goroutine, Phase.lockId]
  | unregister g =>
    obtain ⟨id', released, hp, rfl⟩ := step_unregister hs
    simp_all [Action.goroutine, Phase.lockId]

end Protocol

/-! ### The invariant -/

section Invariant

variable {N G : Type} [DecidableEq N] (node : G → N)

open State

/-- The invariant of the lock protocol (module doc). -/
structure Inv (s : State N G) : Prop where
  /-- A factory's mutex is owned by the goroutine of its ATC inside `Acquire` of one of its
  locks, and by nothing else. -/
  mutex : ∀ n f g, s.acquireMutex n f = some g ↔
    node g = n ∧ ∃ id, (s.phase g).acquiring = some id ∧ id.factory = f
  /-- A registry holds exactly the keys of the locks its goroutines registered. -/
  registry : ∀ n f k, s.registry n f k = true ↔
    ∃ g id, node g = n ∧ (s.phase g).registered = some id ∧ id.factory = f ∧ id.toKey = k
  /-- One goroutine at most registered a key of a registry. -/
  registered_unique : ∀ g g' id id', (s.phase g).registered = some id →
    (s.phase g').registered = some id' → node g = node g' → id.factory = id'.factory →
    id.toKey = id'.toKey → g = g'
  /-- A goroutine past `IsRegistered` and before `Register` found its key free, and it stays so. -/
  fresh : ∀ g id, (s.phase g = .trying id ∨ s.phase g = .registering id) →
    s.registry (node g) id.factory id.toKey = false
  /-- A goroutine that took the database lock holds it in the session of its factory. -/
  dbHeld : ∀ g id, (s.phase g).dbHeld = some id → 0 < s.db.count id.toList (node g, id.factory)

variable {node} {s : State N G} {g h : G} {id id' : LockID} {p : Phase}

theorem inv_init : Inv node (init : State N G) where
  mutex n f g := by simp [init, Phase.acquiring]
  registry n f k := by simp [init, Phase.registered]
  registered_unique g g' id id' hg := by simp [init, Phase.registered] at hg
  fresh g id hg := by simp [init] at hg
  dbHeld g id hg := by simp [init, Phase.dbHeld] at hg

/-- Two goroutines inside `Acquire` of one factory of one ATC are one goroutine. -/
theorem Inv.acquiring_unique (hi : Inv node s) (hg : (s.phase g).acquiring = some id)
    (hh : (s.phase h).acquiring = some id') (hn : node h = node g) (hf : id'.factory = id.factory) :
    g = h := by
  have hown : s.acquireMutex (node g) id.factory = some g := (hi.mutex _ _ _).mpr ⟨rfl, id, hg, rfl⟩
  have hown' : s.acquireMutex (node g) id.factory = some h := (hi.mutex _ _ _).mpr ⟨hn, id', hh, hf⟩
  exact Option.some.inj (hown.symm.trans hown')

/-- A goroutine that found its key free is the only one that can register it: nobody else has. -/
theorem Inv.not_registered_of_fresh (hi : Inv node s)
    (hg : s.phase g = .trying id ∨ s.phase g = .registering id)
    (hh : (s.phase h).registered = some id') (hn : node h = node g) (hf : id'.factory = id.factory)
    (hk : id'.toKey = id.toKey) : False := by
  have hreg : s.registry (node g) id.factory id.toKey = true :=
    (hi.registry _ _ _).mpr ⟨h, id', hn, hh, hf, hk⟩
  rw [hi.fresh g id hg] at hreg
  cases hreg

/-! Each step keeps the invariant. -/

/-- The mutex part, for a step that moves no goroutine into or out of `Acquire`. -/
theorem Inv.mutex_of_eq (hi : Inv node s) {s' : State N G} (hm : s'.acquireMutex = s.acquireMutex)
    (hacq : ∀ h, (s'.phase h).acquiring = (s.phase h).acquiring) (n : N) (f : Factory) (h : G) :
    s'.acquireMutex n f = some h ↔ node h = n ∧ ∃ id, (s'.phase h).acquiring = some id ∧ id.factory = f := by
  simp only [hm, hacq]
  exact hi.mutex n f h

/-- The registry part, for a step that changes no registry and no registration. -/
theorem Inv.registry_of_eq (hi : Inv node s) {s' : State N G} (hreg : s'.registry = s.registry)
    (hregd : ∀ h, (s'.phase h).registered = (s.phase h).registered) (n : N) (f : Factory)
    (k : String) :
    s'.registry n f k = true ↔
      ∃ g id, node g = n ∧ (s'.phase g).registered = some id ∧ id.factory = f ∧ id.toKey = k := by
  simp only [hreg, hregd]
  exact hi.registry n f k

/-- The uniqueness of registrations, for a step that changes no registration. -/
theorem Inv.registered_unique_of_eq (hi : Inv node s) {s' : State N G}
    (hregd : ∀ h, (s'.phase h).registered = (s.phase h).registered) (g g' : G) (id id' : LockID) :
    (s'.phase g).registered = some id → (s'.phase g').registered = some id' → node g = node g' →
      id.factory = id'.factory → id.toKey = id'.toKey → g = g' := by
  simp only [hregd]
  exact hi.registered_unique g g' id id'

/-- The database part, for a step that leaves the database and takes no lock in it. -/
theorem Inv.dbHeld_of_le (hi : Inv node s) {s' : State N G} (hdb : s'.db = s.db)
    (hheld : ∀ h id, (s'.phase h).dbHeld = some id → (s.phase h).dbHeld = some id) (g : G)
    (id : LockID) (hg : (s'.phase g).dbHeld = some id) :
    0 < s'.db.count id.toList (node g, id.factory) := by
  rw [hdb]
  exact hi.dbHeld g id (hheld g id hg)

variable [DecidableEq G]

/-- The mutex part after `g` leaves `Acquire`, freeing the mutex of its lock's factory. -/
theorem Inv.mutex_leave (hi : Inv node s) {s' : State N G} (hg : (s.phase g).acquiring = some id)
    (hp : p.acquiring = none) (hm : s'.acquireMutex = (s.setMutex (node g) id.factory none).acquireMutex)
    (hph : s'.phase = (s.setPhase g p).phase) (n : N) (f : Factory) (h : G) :
    s'.acquireMutex n f = some h ↔ node h = n ∧ ∃ id', (s'.phase h).acquiring = some id' ∧ id'.factory = f := by
  simp only [hm, hph, acquireMutex_setMutex, phase_setPhase]
  by_cases hhg : h = g
  · subst hhg
    simp only [if_true, hp, reduceCtorEq, false_and, exists_false, and_false, iff_false]
    split
    · exact fun e => by cases e
    · rename_i hnf
      intro hown
      -- the mutex `h` owned is the one of its own lock's factory
      obtain ⟨hn, id'', hacq, hf⟩ := (hi.mutex n f h).mp hown
      rw [hg] at hacq
      cases hacq
      exact hnf ⟨hn.symm, hf.symm⟩
  · simp only [hhg, if_false]
    split
    · rename_i hnf
      obtain ⟨rfl, rfl⟩ := hnf
      simp only [reduceCtorEq, false_iff, not_and, not_exists]
      intro hn id'' hacq hf
      exact hhg (hi.acquiring_unique hg hacq hn hf).symm
    · exact hi.mutex n f h

/-- `acquireMutex.Lock()`. -/
theorem Inv.acquire (hi : Inv node s) (hp : s.phase g = .idle)
    (hm : s.acquireMutex (node g) id.factory = none) :
    Inv node ((s.setMutex (node g) id.factory (some g)).setPhase g (.checking id)) where
  mutex n f h := by
    simp only [acquireMutex_setPhase, acquireMutex_setMutex, phase_setPhase, phase_setMutex]
    by_cases hhg : h = g
    · subst hhg
      simp only [if_true, Phase.acquiring, Option.some.injEq, exists_eq_left']
      split
      · rename_i hnf
        simp [hnf.1, hnf.2]
      · rename_i hnf
        -- `h` was idle, so it owned no mutex
        have hfree : s.acquireMutex n f ≠ some h := fun hown => by
          simpa [hp, Phase.acquiring] using ((hi.mutex n f h).mp hown).2
        simp only [hfree, false_iff, not_and]
        exact fun hn hf => hnf ⟨hn.symm, hf.symm⟩
    · simp only [hhg, if_false]
      split
      · rename_i hnf
        obtain ⟨rfl, rfl⟩ := hnf
        simp only [Option.some.injEq]
        constructor
        · exact fun e => absurd e.symm hhg
        · rintro ⟨hn, id'', hacq, hf⟩
          -- `h` would own the free mutex
          have hown := (hi.mutex _ _ _).mpr ⟨hn, id'', hacq, hf⟩
          rw [hm] at hown
          cases hown
      · exact hi.mutex n f h
  registry := hi.registry_of_eq rfl fun _ => proj_setPhase (by simp [hp, Phase.registered])
  registered_unique := hi.registered_unique_of_eq fun _ => proj_setPhase (by simp [hp, Phase.registered])
  fresh h id' hh := by
    simp only [phase_setPhase, phase_setMutex] at hh
    split at hh
    · simp at hh
    · exact hi.fresh h id' hh
  dbHeld := hi.dbHeld_of_le rfl fun h id' hh => by
    rwa [proj_setPhase (π := Phase.dbHeld) (by simp [hp, Phase.dbHeld])] at hh

/-- `Acquire` returns without the lock: the id was registered, or the database call failed or
found the lock taken. -/
theorem Inv.leave (hi : Inv node s) (hg : s.phase g = .checking id ∨ s.phase g = .trying id) :
    Inv node ((s.setMutex (node g) id.factory none).setPhase g .idle) where
  mutex := hi.mutex_leave (by rcases hg with hg | hg <;> simp [hg, Phase.acquiring]) rfl rfl rfl
  registry := hi.registry_of_eq rfl fun _ =>
    proj_setPhase (by rcases hg with hg | hg <;> simp [hg, Phase.registered])
  registered_unique := hi.registered_unique_of_eq fun _ =>
    proj_setPhase (by rcases hg with hg | hg <;> simp [hg, Phase.registered])
  fresh h id' hh := by
    simp only [phase_setPhase, phase_setMutex] at hh
    split at hh
    · simp at hh
    · exact hi.fresh h id' hh
  dbHeld := hi.dbHeld_of_le rfl fun h id' hh => by
    rwa [proj_setPhase (π := Phase.dbHeld) (by rcases hg with hg | hg <;> simp [hg, Phase.dbHeld])] at hh

/-- `IsRegistered` finds the id free. -/
theorem Inv.check (hi : Inv node s) (hg : s.phase g = .checking id)
    (hfree : s.registry (node g) id.factory id.toKey = false) :
    Inv node (s.setPhase g (.trying id)) where
  mutex := hi.mutex_of_eq rfl fun _ => proj_setPhase (by simp [hg, Phase.acquiring])
  registry := hi.registry_of_eq rfl fun _ => proj_setPhase (by simp [hg, Phase.registered])
  registered_unique := hi.registered_unique_of_eq fun _ => proj_setPhase (by simp [hg, Phase.registered])
  fresh h id' hh := by
    simp only [phase_setPhase] at hh
    split at hh
    · rename_i hhg
      subst hhg
      simp only [Phase.trying.injEq, reduceCtorEq, or_false] at hh
      subst hh
      exact hfree
    · exact hi.fresh h id' hh
  dbHeld := hi.dbHeld_of_le rfl fun h id' hh => by
    rwa [proj_setPhase (π := Phase.dbHeld) (by simp [hg, Phase.dbHeld])] at hh

/-- `pg_try_advisory_lock` takes the lock. -/
theorem Inv.dbAcquire (hi : Inv node s) (hg : s.phase g = .trying id)
    (hok : (s.db.tryLock (node g, id.factory) id.toList).2 = true) :
    Inv node ({ s with db := (s.db.tryLock (node g, id.factory) id.toList).1 }.setPhase g
      (.registering id)) where
  mutex := hi.mutex_of_eq rfl fun _ => proj_setPhase (by simp [hg, Phase.acquiring])
  registry := hi.registry_of_eq rfl fun _ => proj_setPhase (by simp [hg, Phase.registered])
  registered_unique := hi.registered_unique_of_eq fun _ => proj_setPhase (by simp [hg, Phase.registered])
  fresh h id' hh := by
    simp only [phase_setPhase] at hh
    split at hh
    · rename_i hhg
      subst hhg
      simp only [Phase.registering.injEq, reduceCtorEq, false_or] at hh
      subst hh
      exact hi.fresh _ _ (.inl hg)
    · exact hi.fresh h id' hh
  dbHeld h id' hh := by
    simp only [db_setPhase]
    simp only [phase_setPhase] at hh
    split at hh
    · rename_i hhg
      subst hhg
      simp only [Phase.dbHeld, Option.some.injEq] at hh
      subst hh
      rw [Table.count_tryLock_self hok]
      exact Nat.succ_pos _
    · exact Nat.lt_of_lt_of_le (hi.dbHeld h id' hh) Table.count_le_tryLock

/-- `Register`, and the mutex is freed. -/
theorem Inv.register (hi : Inv node s) (hg : s.phase g = .registering id) :
    Inv node (((s.setRegistry (node g) id.factory id.toKey true).setMutex (node g) id.factory
      none).setPhase g (.holding id)) where
  mutex := hi.mutex_leave (by simp [hg, Phase.acquiring]) rfl rfl rfl
  registry n f k := by
    simp only [registry_setPhase, registry_setMutex, registry_setRegistry, phase_setPhase,
      phase_setMutex, phase_setRegistry]
    split
    · rename_i hnfk
      obtain ⟨rfl, rfl, rfl⟩ := hnfk
      simp only [true_iff]
      exact ⟨g, id, rfl, by simp [Phase.registered], rfl, rfl⟩
    · rename_i hnfk
      rw [hi.registry n f k]
      constructor
      · rintro ⟨h, id', hn, hr, hf, hk⟩
        have hhg : h ≠ g := by
          rintro rfl
          rw [hg] at hr
          cases hr
        exact ⟨h, id', hn, by simpa [hhg] using hr, hf, hk⟩
      · rintro ⟨h, id', hn, hr, hf, hk⟩
        by_cases hhg : h = g
        · subst hhg
          simp only [if_true, Phase.registered, Option.some.injEq] at hr
          subst hr
          exact absurd ⟨hn.symm, hf.symm, hk.symm⟩ hnfk
        · exact ⟨h, id', hn, by simpa [hhg] using hr, hf, hk⟩
  registered_unique g₁ g₂ id₁ id₂ h₁ h₂ hn hf hk := by
    simp only [phase_setPhase, phase_setMutex, phase_setRegistry] at h₁ h₂
    by_cases h1g : g₁ = g
    · by_cases h2g : g₂ = g
      · rw [h1g, h2g]
      · -- `g₂` registered the key that `g` found free
        subst h1g
        simp only [if_true, Phase.registered, Option.some.injEq] at h₁
        subst h₁
        simp only [h2g, if_false] at h₂
        exact (hi.not_registered_of_fresh (.inr hg) h₂ hn.symm hf.symm hk.symm).elim
    · by_cases h2g : g₂ = g
      · subst h2g
        simp only [if_true, Phase.registered, Option.some.injEq] at h₂
        subst h₂
        simp only [h1g, if_false] at h₁
        exact (hi.not_registered_of_fresh (.inr hg) h₁ hn hf hk).elim
      · simp only [h1g, h2g, if_false] at h₁ h₂
        exact hi.registered_unique g₁ g₂ id₁ id₂ h₁ h₂ hn hf hk
  fresh h id' hh := by
    simp only [registry_setPhase, registry_setMutex, registry_setRegistry]
    simp only [phase_setPhase, phase_setMutex, phase_setRegistry] at hh
    split at hh
    · simp at hh
    · rename_i hhg
      split
      · rename_i hsame
        -- `h` and `g` would both be inside `Acquire` of one factory of one ATC
        have hacq : (s.phase h).acquiring = some id' := by
          rcases hh with hh | hh <;> simp [hh, Phase.acquiring]
        exact absurd (hi.acquiring_unique (by simp [hg, Phase.acquiring]) hacq hsame.1
          hsame.2.1) (Ne.symm hhg)
      · exact hi.fresh h id' hh
  dbHeld := hi.dbHeld_of_le rfl fun h id' hh => by
    rw [proj_setPhase (π := Phase.dbHeld) (by simp [hg, Phase.dbHeld])] at hh
    simpa using hh

/-- `pg_advisory_unlock` is run, or fails: the registration stays until `Unregister`. -/
theorem Inv.unlockFailed (hi : Inv node s) (hg : s.phase g = .holding id) (released : Bool) :
    Inv node (s.setPhase g (.unregistering id released)) where
  mutex := hi.mutex_of_eq rfl fun _ => proj_setPhase (by simp [hg, Phase.acquiring])
  registry := hi.registry_of_eq rfl fun _ => proj_setPhase (by simp [hg, Phase.registered])
  registered_unique := hi.registered_unique_of_eq fun _ => proj_setPhase (by simp [hg, Phase.registered])
  fresh h id' hh := by
    simp only [phase_setPhase] at hh
    split at hh
    · simp at hh
    · exact hi.fresh h id' hh
  dbHeld := hi.dbHeld_of_le rfl fun h id' hh => by
    simp only [phase_setPhase] at hh
    split at hh
    · simp [Phase.dbHeld] at hh
    · exact hh

/-- `pg_advisory_unlock` gives back a hold of the lock in the session of `g`. -/
theorem Inv.dbRelease (hi : Inv node s) (hg : s.phase g = .holding id) :
    Inv node ({ s with db := (s.db.unlock (node g, id.factory) id.toList).1 }.setPhase g
      (.unregistering id (s.db.unlock (node g, id.factory) id.toList).2)) where
  mutex := hi.mutex_of_eq rfl fun _ => proj_setPhase (by simp [hg, Phase.acquiring])
  registry := hi.registry_of_eq rfl fun _ => proj_setPhase (by simp [hg, Phase.registered])
  registered_unique := hi.registered_unique_of_eq fun _ => proj_setPhase (by simp [hg, Phase.registered])
  fresh h id' hh := by
    simp only [phase_setPhase] at hh
    split at hh
    · simp at hh
    · exact hi.fresh h id' hh
  dbHeld h id' hh := by
    simp only [db_setPhase, phase_setPhase] at hh ⊢
    split at hh
    · simp [Phase.dbHeld] at hh
    · rename_i hhg
      by_cases hsame : id'.toList = id.toList ∧ (node h, id'.factory) = (node g, id.factory)
      · -- `h` would have the lock `g` gives back: as its registered holder, or as a goroutine
        -- that found its key free while `g` has it registered
        exfalso
        obtain ⟨hl, hs⟩ := hsame
        have hid : id' = id := LockID.toList_injective hl
        subst hid
        have hn : node h = node g := (Prod.mk.inj hs).1
        have hgreg : (s.phase g).registered = some id' := by simp [hg, Phase.registered]
        cases hph : s.phase h with
        | registering i =>
          simp only [hph, Phase.dbHeld, Option.some.injEq] at hh
          subst hh
          exact hi.not_registered_of_fresh (.inr hph) hgreg hn.symm rfl rfl
        | holding i =>
          simp only [hph, Phase.dbHeld, Option.some.injEq] at hh
          subst hh
          exact hhg (hi.registered_unique h g _ _ (by simp [hph, Phase.registered]) hgreg hn rfl rfl)
        | _ => simp [hph, Phase.dbHeld] at hh
      · rw [Table.count_unlock_of_ne (not_and_or.mp hsame)]
        exact hi.dbHeld h id' hh

/-- `Unregister`. -/
theorem Inv.unregister (hi : Inv node s) {released : Bool}
    (hg : s.phase g = .unregistering id released) :
    Inv node ((s.setRegistry (node g) id.factory id.toKey false).setPhase g .idle) where
  mutex := hi.mutex_of_eq rfl fun _ => proj_setPhase (by simp [hg, Phase.acquiring])
  registry n f k := by
    simp only [registry_setPhase, registry_setRegistry, phase_setPhase, phase_setRegistry]
    split
    · rename_i hnfk
      obtain ⟨rfl, rfl, rfl⟩ := hnfk
      simp only [Bool.false_eq_true, false_iff, not_exists, not_and]
      intro h id' hn hr hf hk
      split at hr
      · simp [Phase.registered] at hr
      · rename_i hhg
        exact hhg (hi.registered_unique h g id' id hr (by simp [hg, Phase.registered]) hn hf hk)
    · rename_i hnfk
      rw [hi.registry n f k]
      constructor
      · rintro ⟨h, id', hn, hr, hf, hk⟩
        by_cases hhg : h = g
        · subst hhg
          simp only [hg, Phase.registered, Option.some.injEq] at hr
          subst hr
          exact absurd ⟨hn.symm, hf.symm, hk.symm⟩ hnfk
        · exact ⟨h, id', hn, by simpa [hhg] using hr, hf, hk⟩
      · rintro ⟨h, id', hn, hr, hf, hk⟩
        split at hr
        · simp [Phase.registered] at hr
        · exact ⟨h, id', hn, hr, hf, hk⟩
  registered_unique g₁ g₂ id₁ id₂ h₁ h₂ := by
    simp only [phase_setPhase, phase_setRegistry] at h₁ h₂
    split at h₁
    · simp [Phase.registered] at h₁
    · split at h₂
      · simp [Phase.registered] at h₂
      · exact hi.registered_unique g₁ g₂ id₁ id₂ h₁ h₂
  fresh h id' hh := by
    simp only [registry_setPhase, registry_setRegistry]
    simp only [phase_setPhase, phase_setRegistry] at hh
    split at hh
    · simp at hh
    · split
      · rfl
      · exact hi.fresh h id' hh
  dbHeld := hi.dbHeld_of_le rfl fun h id' hh => by
    rw [proj_setPhase (π := Phase.dbHeld) (by simp [hg, Phase.dbHeld])] at hh
    simpa using hh

/-- Every step keeps the invariant. -/
theorem inv_step (hi : Inv node s) {a : Action G} {s' : State N G} (h : step node s a = some s') :
    Inv node s' := by
  cases a with
  | acquire g id =>
    obtain ⟨hp, hm, rfl⟩ := step_acquire h
    exact hi.acquire hp hm
  | isRegistered g =>
    obtain ⟨id, hp, ⟨-, rfl⟩ | ⟨hfree, rfl⟩⟩ := step_isRegistered h
    · exact hi.leave (.inl hp)
    · exact hi.check hp hfree
  | dbAcquire g fails =>
    obtain ⟨id, hp, ⟨-, hok, rfl⟩ | rfl⟩ := step_dbAcquire h
    · exact hi.dbAcquire hp hok
    · exact hi.leave (.inr hp)
  | register g =>
    obtain ⟨id, hp, rfl⟩ := step_register h
    exact hi.register hp
  | dbRelease g fails =>
    obtain ⟨id, hp, ⟨-, rfl⟩ | ⟨-, rfl⟩⟩ := step_dbRelease h
    · exact hi.unlockFailed hp false
    · exact hi.dbRelease hp
  | unregister g =>
    obtain ⟨id, released, hp, rfl⟩ := step_unregister h
    exact hi.unregister hp

/-- The invariant holds in every reachable state. -/
theorem reachable_inv (h : Reachable node s) : Inv node s :=
  Interleaving.Reachable.invariant inv_init (fun _ _ _ _ hi ha => inv_step hi ha) h

end Invariant

/-! ### Mutual exclusion -/

section Safety

variable {N G : Type} [DecidableEq N] [DecidableEq G] {node : G → N} {s : State N G} {g h : G}
  {id : LockID}

/-- Two goroutines never hold one lock, whether they run on one ATC or on two. -/
theorem holding_unique (hs : Reachable node s) (hg : s.phase g = .holding id)
    (hh : s.phase h = .holding id) : g = h := by
  have hi := reachable_inv hs
  -- both hold the database lock in the session of their ATC: it is one session, so one ATC
  have hcount : 0 < s.db.count id.toList (node g, id.factory) :=
    hi.dbHeld g id (by simp [hg, Phase.dbHeld])
  have hcount' : 0 < s.db.count id.toList (node h, id.factory) :=
    hi.dbHeld h id (by simp [hh, Phase.dbHeld])
  have hn : node g = node h := (Prod.mk.inj (Table.eq_of_count_pos hcount hcount')).1
  -- and on one ATC the registry lets one of them in
  exact hi.registered_unique g h id id (by simp [hg, Phase.registered])
    (by simp [hh, Phase.registered]) hn rfl rfl

/-- The `pg_advisory_unlock` of the `Release` of a held lock gives the lock back, so `Release`
reports `ErrLostLock` only when its database call fails. -/
theorem dbRelease_of_holding (hs : Reachable node s) (hg : s.phase g = .holding id) :
    (step node s (.dbRelease g false)).map (fun s' => s'.phase g) = some (.unregistering id true) := by
  have hcount : 0 < s.db.count id.toList (node g, id.factory) :=
    (reachable_inv hs).dbHeld g id (by simp [hg, Phase.dbHeld])
  simp [step, hg, Table.unlock_snd_eq_true_iff.mpr hcount]

/-- Two ATCs, goroutine `g` running on ATC `g % 2`. -/
def twoAtcs (g : Nat) : Nat := g % 2

/-- Goroutine 0 of ATC 0 takes the scheduling lock of job 3; goroutine 1 of ATC 1 is turned away
by the database, goroutine 2 of ATC 0 by the registry of its ATC. -/
def jobLockRace : State Nat Nat :=
  Interleaving.runSchedule (step twoAtcs) .init
    [.acquire 0 (newJobSchedulingLockID 3), .isRegistered 0, .dbAcquire 0 false, .register 0,
     .acquire 1 (newJobSchedulingLockID 3), .isRegistered 1, .dbAcquire 1 false,
     .acquire 2 (newJobSchedulingLockID 3), .isRegistered 2]

example : jobLockRace.phase 1 = .idle ∧ jobLockRace.phase 2 = .idle := by decide

theorem holding_unique_jobLockRace :
    Reachable twoAtcs jobLockRace ∧ jobLockRace.phase 0 = .holding (newJobSchedulingLockID 3) ∧
      (0 : Nat) = 0 := by
  have hs : Reachable twoAtcs jobLockRace :=
    Interleaving.reachable_runSchedule Interleaving.reachable_init _
  have hg : jobLockRace.phase 0 = .holding (newJobSchedulingLockID 3) := by decide
  exact ⟨hs, hg, holding_unique hs hg hg⟩

end Safety

end Concourse.Db.Lock
