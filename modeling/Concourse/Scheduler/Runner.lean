import Concourse.Db.Lock
import Mathlib.Data.Finset.Card

/-!
# The scheduler's runner

`scheduler/runner.go`.  Each tick, `Runner.Run` of an ATC loops over the jobs to schedule: a job
already in its `running` map is passed over, otherwise it is stored there, a token is sent on
`guardJobScheduling` (a channel of `maxJobs` slots, so the send waits while `maxJobs` goroutines
run) and a goroutine is started for the job.  The goroutine takes the job's scheduling lock, runs
`scheduleJob` while it holds it and gives it back; on its way out it takes back its token and
removes the job from `running`.  When the lock is taken elsewhere it only does the last.

The model runs the loops of any number of ATCs and their goroutines, the goroutines' lock calls
being steps of the lock protocol of `Db.Lock` (`runnerStep`).  The coordinator lets one ATC run
`Run` at a time; the model lets every ATC loop at any time, so its runs include those.

* The lock part of every reachable state is reachable by the lock protocol alone
  (`lock_reachable`), so the mutual exclusion of `Db.Lock` applies to the runners.
* `scheduleJob` of a job never runs on two goroutines at once, on one ATC or on two
  (`scheduleJob_unique`).
* An ATC never has more than `maxJobs` goroutines, and never two for one job (`live_card_le`,
  `live_unique`).

Left out: the logging, metrics and tracing; what `scheduleJob` does (`Scheduler.BuildStarter`),
here the time the goroutine holds the lock; a panic, after which the deferred calls run as on a
return.
-/

namespace Concourse.Scheduler

open Db

/-- Where a goroutine started by `Runner.Run` is. -/
inductive JobGoroutine
  /-- Not started. -/
  | unborn
  /-- Started by `go func(job)`, before `AcquireSchedulingLock`. -/
  | started (job : Int)
  /-- From `AcquireSchedulingLock` until the deferred `Release` has returned. -/
  | inLock (job : Int)
  /-- It took back its token and removed its job from `running`. -/
  | exited
  deriving DecidableEq, Repr

/-- The job of a goroutine that has started and not exited. -/
def JobGoroutine.job? : JobGoroutine → Option Int
  | started job | inLock job => some job
  | _ => none

-- one equation per constructor, so that proofs do not each unfold `job?`
@[simp] theorem JobGoroutine.job?_unborn : JobGoroutine.unborn.job? = none := rfl
@[simp] theorem JobGoroutine.job?_started (job : Int) : (JobGoroutine.started job).job? = some job :=
  rfl
@[simp] theorem JobGoroutine.job?_inLock (job : Int) : (JobGoroutine.inLock job).job? = some job :=
  rfl
@[simp] theorem JobGoroutine.job?_exited : JobGoroutine.exited.job? = none := rfl

/-- The runners of all the ATCs, with the lock state they share. -/
structure RunnerState (N G : Type) where
  lock : Lock.State N G
  /-- `running`: the jobs an ATC is scheduling. -/
  running : N → Int → Bool
  /-- The tokens in `guardJobScheduling`. -/
  guard : N → Nat
  /-- The job the loop of `Run` stored in `running` and starts a goroutine for. -/
  pending : N → Option Int
  goroutine : G → JobGoroutine

/-- An atomic step of the runners. -/
inductive RunnerAction (N G : Type)
  /-- `running.LoadOrStore(job)` in the loop of `Run` on ATC `n`. -/
  | loadOrStore (n : N) (job : Int)
  /-- The token is sent and goroutine `g` is started, on the ATC of `g`. -/
  | spawn (g : G)
  /-- A step of a goroutine in the lock's code. -/
  | lockStep (a : Lock.Action G)
  /-- The deferred `<-guardJobScheduling` and `running.Delete(job)`. -/
  | exit (g : G)

/-- No goroutine started, nothing running, no lock taken. -/
def RunnerState.init {N G : Type} : RunnerState N G :=
  ⟨Lock.State.init, fun _ _ => false, fun _ => 0, fun _ => none, fun _ => .unborn⟩

section Runner

variable {N G : Type} [DecidableEq N] [DecidableEq G] (maxJobs : Nat) (node : G → N)

/-- One atomic step of the runners, or `none` where it cannot be taken. -/
def runnerStep (s : RunnerState N G) : RunnerAction N G → Option (RunnerState N G)
  | .loadOrStore n job =>
    match s.pending n with
    | none =>
      -- "already scheduling this job": the loop goes on with the next job
      if s.running n job then some s
      else some { s with running := Function.update s.running n (Function.update (s.running n) job true)
                         pending := Function.update s.pending n (some job) }
    | some _ => none
  | .spawn g =>
    match s.pending (node g), s.goroutine g with
    | some job, .unborn =>
      -- the send on `guardJobScheduling` waits for a free slot
      if s.guard (node g) < maxJobs then
        some { s with guard := Function.update s.guard (node g) (s.guard (node g) + 1)
                      pending := Function.update s.pending (node g) none
                      goroutine := Function.update s.goroutine g (.started job) }
      else none
    | _, _ => none
  | .lockStep a =>
    match s.goroutine a.goroutine, a with
    | .started job, .acquire g id =>
      if id = Lock.newJobSchedulingLockID job then
        (Lock.step node s.lock a).map fun l =>
          { s with lock := l, goroutine := Function.update s.goroutine g (.inLock job) }
      else none
    | .inLock _, .acquire _ _ => none
    | .inLock _, _ => (Lock.step node s.lock a).map fun l => { s with lock := l }
    | _, _ => none
  | .exit g =>
    match s.goroutine g with
    | .inLock job =>
      if s.lock.phase g = .idle then
        some { s with guard := Function.update s.guard (node g) (s.guard (node g) - 1)
                      running := Function.update s.running (node g)
                        (Function.update (s.running (node g)) job false)
                      goroutine := Function.update s.goroutine g .exited }
      else none
    | _ => none

/-- A state some interleaving of the runners' steps reaches. -/
def RunnerReachable (s : RunnerState N G) : Prop :=
  Interleaving.Reachable (runnerStep maxJobs node) RunnerState.init s

/-! ### What each step does -/

variable {maxJobs node} {s s' : RunnerState N G} {n : N} {job : Int} {g : G}

theorem runnerStep_loadOrStore (h : runnerStep maxJobs node s (.loadOrStore n job) = some s') :
    s.pending n = none ∧ ((s.running n job = true ∧ s' = s) ∨
      (s.running n job = false ∧
        s' = { s with running := Function.update s.running n (Function.update (s.running n) job true)
                      pending := Function.update s.pending n (some job) })) := by
  -- `delta` reads the step off the definition itself: no equation lemma is generated for it
  delta runnerStep at h
  dsimp only at h
  split at h
  · rename_i hp
    refine ⟨hp, ?_⟩
    split at h
    · exact .inl ⟨‹_›, (Option.some.inj h).symm⟩
    · rename_i hr
      exact .inr ⟨by simpa using hr, (Option.some.inj h).symm⟩
  · cases h

theorem runnerStep_spawn (h : runnerStep maxJobs node s (.spawn g) = some s') :
    ∃ job, s.pending (node g) = some job ∧ s.goroutine g = .unborn ∧ s.guard (node g) < maxJobs ∧
      s' = { s with guard := Function.update s.guard (node g) (s.guard (node g) + 1)
                    pending := Function.update s.pending (node g) none
                    goroutine := Function.update s.goroutine g (.started job) } := by
  delta runnerStep at h
  dsimp only at h
  split at h
  · rename_i job hp hg
    split at h
    · exact ⟨job, hp, hg, ‹_›, (Option.some.inj h).symm⟩
    · cases h
  · cases h

theorem runnerStep_lockStep {a : Lock.Action G} (h : runnerStep maxJobs node s (.lockStep a) = some s') :
    ∃ l, Lock.step node s.lock a = some l ∧
      ((∃ job, s.goroutine a.goroutine = .started job ∧
          a = .acquire a.goroutine (Lock.newJobSchedulingLockID job) ∧
          s' = { s with lock := l, goroutine := Function.update s.goroutine a.goroutine (.inLock job) }) ∨
        (∃ job, s.goroutine a.goroutine = .inLock job ∧ (∀ id, a ≠ .acquire a.goroutine id) ∧
          s' = { s with lock := l })) := by
  delta runnerStep at h
  dsimp only at h
  split at h
  · rename_i job g id hg
    split at h
    · rename_i hid
      subst hid
      obtain ⟨l, hl, rfl⟩ := Option.map_eq_some_iff.mp h
      exact ⟨l, hl, .inl ⟨job, hg, rfl, rfl⟩⟩
    · cases h
  · cases h
  · rename_i job hnot hg
    obtain ⟨l, hl, rfl⟩ := Option.map_eq_some_iff.mp h
    exact ⟨l, hl, .inr ⟨job, hg, fun id => hnot _ id, rfl⟩⟩
  · cases h

theorem runnerStep_exit (h : runnerStep maxJobs node s (.exit g) = some s') :
    ∃ job, s.goroutine g = .inLock job ∧ s.lock.phase g = .idle ∧
      s' = { s with guard := Function.update s.guard (node g) (s.guard (node g) - 1)
                    running := Function.update s.running (node g)
                      (Function.update (s.running (node g)) job false)
                    goroutine := Function.update s.goroutine g .exited } := by
  delta runnerStep at h
  dsimp only at h
  split at h
  · rename_i job hg
    split at h
    · exact ⟨job, hg, ‹_›, (Option.some.inj h).symm⟩
    · cases h
  · cases h

/-- A step of the runners is a step of the lock protocol, or leaves the lock state as it is. -/
theorem lock_runnerStep {a : RunnerAction N G} (h : runnerStep maxJobs node s a = some s') :
    s'.lock = s.lock ∨ ∃ b, Lock.step node s.lock b = some s'.lock := by
  cases a with
  | loadOrStore n job =>
    obtain ⟨-, ⟨-, rfl⟩ | ⟨-, rfl⟩⟩ := runnerStep_loadOrStore h <;> exact .inl rfl
  | spawn g =>
    obtain ⟨job, -, -, -, rfl⟩ := runnerStep_spawn h
    exact .inl rfl
  | lockStep a =>
    obtain ⟨l, hl, ⟨job, -, -, rfl⟩ | ⟨job, -, -, rfl⟩⟩ := runnerStep_lockStep h <;>
      exact .inr ⟨a, hl⟩
  | exit g =>
    obtain ⟨job, -, -, rfl⟩ := runnerStep_exit h
    exact .inl rfl

/-- The lock part of every reachable state of the runners is reachable by the lock protocol. -/
theorem lock_reachable (hs : RunnerReachable maxJobs node s) : Lock.Reachable node s.lock :=
  Interleaving.Reachable.map RunnerState.lock rfl (fun _ _ _ _ h => lock_runnerStep h) hs

end Runner

/-! ### The invariant -/

section Invariant

variable {N G : Type} (maxJobs : Nat) (node : G → N)

/-- The invariant of the runners (module doc). -/
structure RunnerInv (s : RunnerState N G) : Prop where
  /-- A goroutine is in the lock's code only between `AcquireSchedulingLock` and the return of
  `Release`, and there with the scheduling lock of its job. -/
  lockPhase : ∀ g id, (s.lock.phase g).lockId = some id →
    ∃ job, s.goroutine g = .inLock job ∧ id = Lock.newJobSchedulingLockID job
  /-- `running` holds the job the loop starts a goroutine for and the jobs of the live
  goroutines. -/
  running : ∀ n job, s.running n job = true ↔
    s.pending n = some job ∨ ∃ g, node g = n ∧ (s.goroutine g).job? = some job
  /-- The job the loop starts a goroutine for has no live goroutine on the ATC. -/
  pending : ∀ n job g, s.pending n = some job → node g = n → (s.goroutine g).job? ≠ some job
  /-- One live goroutine at most for a job on an ATC. -/
  unique : ∀ g h job, (s.goroutine g).job? = some job → (s.goroutine h).job? = some job →
    node g = node h → g = h
  /-- No set of live goroutines of an ATC outnumbers the tokens it sent. -/
  tokens : ∀ n (S : Finset G), (∀ g ∈ S, node g = n ∧ (s.goroutine g).job?.isSome) →
    S.card ≤ s.guard n
  guard_le : ∀ n, s.guard n ≤ maxJobs

variable {maxJobs node} {s : RunnerState N G} {n : N} {job : Int} {g : G}

theorem runnerInv_init : RunnerInv maxJobs node (RunnerState.init : RunnerState N G) where
  lockPhase g id h := by simp [RunnerState.init, Lock.State.init, Lock.Phase.lockId] at h
  running n job := by simp [RunnerState.init]
  pending n job g h := by simp [RunnerState.init] at h
  unique g h job hg := by simp [RunnerState.init] at hg
  tokens n S hS := by
    -- no goroutine has started
    have hempty : S = ∅ := Finset.eq_empty_of_forall_notMem fun g hg => by
      simpa [RunnerState.init] using (hS g hg).2
    simp [hempty]
  guard_le n := Nat.zero_le _

/-- A step that moves only the lock state keeps the runners' part of the invariant. -/
theorem RunnerInv.of_lock (hi : RunnerInv maxJobs node s) {s' : RunnerState N G}
    (hlock : ∀ g id, (s'.lock.phase g).lockId = some id →
      ∃ job, s'.goroutine g = .inLock job ∧ id = Lock.newJobSchedulingLockID job)
    (hjob : ∀ h, (s'.goroutine h).job? = (s.goroutine h).job?) (hrun : s'.running = s.running)
    (hpend : s'.pending = s.pending) (hguard : s'.guard = s.guard) : RunnerInv maxJobs node s' where
  lockPhase := hlock
  running n job := by simp only [hrun, hpend, hjob]; exact hi.running n job
  pending n job g := by simp only [hpend, hjob]; exact hi.pending n job g
  unique g h job := by simp only [hjob]; exact hi.unique g h job
  tokens n S := by simp only [hguard, hjob]; exact hi.tokens n S
  guard_le n := by rw [hguard]; exact hi.guard_le n

variable [DecidableEq N]

/-- `running.LoadOrStore` stores a job that is not running. -/
theorem RunnerInv.loadOrStore (hi : RunnerInv maxJobs node s) (hp : s.pending n = none)
    (hr : s.running n job = false) :
    RunnerInv maxJobs node
      { s with running := Function.update s.running n (Function.update (s.running n) job true)
               pending := Function.update s.pending n (some job) } where
  lockPhase := hi.lockPhase
  running n' job' := by
    by_cases hn : n' = n
    · subst hn
      by_cases hj : job' = job
      · subst hj
        simp
      · simp only [Function.update_self, Function.update_of_ne hj]
        simpa [hp, Ne.symm hj] using hi.running n' job'
    · simp only [Function.update_of_ne hn]
      exact hi.running n' job'
  pending n' job' g hp' hn := by
    by_cases hn' : n' = n
    · subst hn'
      simp only [Function.update_self, Option.some.injEq] at hp'
      subst hp'
      -- the job was not running, so no goroutine of the ATC had it
      intro hg
      have hrun := (hi.running n' _).mpr (.inr ⟨g, hn, hg⟩)
      rw [hr] at hrun
      cases hrun
    · simp only [Function.update_of_ne hn'] at hp'
      exact hi.pending n' job' g hp' hn
  unique := hi.unique
  tokens := hi.tokens
  guard_le := hi.guard_le

variable [DecidableEq G]

/-- The token is sent and the goroutine of the stored job started. -/
theorem RunnerInv.spawn (hi : RunnerInv maxJobs node s) (hp : s.pending (node g) = some job)
    (hg : s.goroutine g = .unborn) (hlt : s.guard (node g) < maxJobs) :
    RunnerInv maxJobs node
      { s with guard := Function.update s.guard (node g) (s.guard (node g) + 1)
               pending := Function.update s.pending (node g) none
               goroutine := Function.update s.goroutine g (.started job) } where
  lockPhase h id hh := by
    obtain ⟨job', hj, hid⟩ := hi.lockPhase h id hh
    -- the goroutine started now was not in the lock's code
    have hhg : h ≠ g := by
      rintro rfl
      rw [hg] at hj
      cases hj
    exact ⟨job', by simpa [Function.update_apply, hhg] using hj, hid⟩
  running n' job' := by
    rw [hi.running n' job']
    simp only [Function.update_apply]
    by_cases hn : n' = node g
    · subst hn
      simp only [if_true, reduceCtorEq, false_or]
      constructor
      · rintro (hpj | ⟨h, hnh, hh⟩)
        · rw [hp] at hpj
          cases hpj
          exact ⟨g, rfl, by simp⟩
        · have hhg : h ≠ g := by
            rintro rfl
            simp [hg] at hh
          exact ⟨h, hnh, by simpa [hhg] using hh⟩
      · rintro ⟨h, hnh, hh⟩
        by_cases hhg : h = g
        · subst hhg
          simp only [if_true, JobGoroutine.job?_started, Option.some.injEq] at hh
          exact .inl (hh ▸ hp)
        · exact .inr ⟨h, hnh, by simpa [hhg] using hh⟩
    · simp only [hn, if_false]
      constructor
      · rintro (hpj | ⟨h, hnh, hh⟩)
        · exact .inl hpj
        · have hhg : h ≠ g := by
            rintro rfl
            exact hn hnh.symm
          exact .inr ⟨h, hnh, by simpa [hhg] using hh⟩
      · rintro (hpj | ⟨h, hnh, hh⟩)
        · exact .inl hpj
        · have hhg : h ≠ g := by
            rintro rfl
            exact hn hnh.symm
          exact .inr ⟨h, hnh, by simpa [hhg] using hh⟩
  pending n' job' h hp' hn := by
    simp only [Function.update_apply] at hp' ⊢
    split at hp'
    · cases hp'
    · rename_i hn'
      have hhg : h ≠ g := by
        rintro rfl
        exact hn' hn.symm
      simpa [hhg] using hi.pending n' job' h hp' hn
  unique g₁ g₂ job' h₁ h₂ hn := by
    simp only [Function.update_apply] at h₁ h₂
    by_cases h1g : g₁ = g
    · by_cases h2g : g₂ = g
      · rw [h1g, h2g]
      · -- `g₂` would run the job the loop was starting
        subst h1g
        simp only [if_true, JobGoroutine.job?_started, Option.some.injEq, h2g, if_false] at h₁ h₂
        subst h₁
        exact absurd h₂ (hi.pending _ _ g₂ hp hn.symm)
    · by_cases h2g : g₂ = g
      · subst h2g
        simp only [if_true, JobGoroutine.job?_started, Option.some.injEq, h1g, if_false] at h₁ h₂
        subst h₂
        exact absurd h₁ (hi.pending _ _ g₁ hp hn)
      · simp only [h1g, h2g, if_false] at h₁ h₂
        exact hi.unique g₁ g₂ job' h₁ h₂ hn
  tokens n' S hS := by
    simp only [Function.update_apply]
    -- the goroutines of `S` other than `g` were live before
    have hold : (S.erase g).card ≤ s.guard n' := hi.tokens n' _ fun h hh => by
      obtain ⟨hhg, hmem⟩ := Finset.mem_erase.mp hh
      simpa [Function.update_apply, hhg] using hS h hmem
    split
    · rename_i hn
      subst hn
      have := Finset.pred_card_le_card_erase (s := S) (a := g)
      omega
    · rename_i hn
      -- `g` is not a goroutine of this ATC
      have hgS : g ∉ S := fun hgS => hn (hS g hgS).1.symm
      rwa [Finset.erase_eq_of_notMem hgS] at hold
  guard_le n' := by
    simp only [Function.update_apply]
    split
    · rename_i hn
      subst hn
      exact hlt
    · exact hi.guard_le n'

/-- `AcquireSchedulingLock` starts, for the job's scheduling lock. -/
theorem RunnerInv.acquire (hi : RunnerInv maxJobs node s) (hg : s.goroutine g = .started job)
    {l : Lock.State N G} (hl : Lock.step node s.lock (.acquire g (Lock.newJobSchedulingLockID job)) = some l) :
    RunnerInv maxJobs node { s with lock := l, goroutine := Function.update s.goroutine g (.inLock job) } :=
  hi.of_lock
    (fun h id hh => by
      obtain ⟨-, -, rfl⟩ := Lock.step_acquire hl
      simp only [Lock.State.phase_setPhase] at hh
      split at hh
      · rename_i hhg
        subst hhg
        simp only [Lock.Phase.lockId_checking, Option.some.injEq] at hh
        exact ⟨job, by simp, hh.symm⟩
      · rename_i hhg
        obtain ⟨job', hj, hid⟩ := hi.lockPhase h id hh
        exact ⟨job', by simpa [Function.update_apply, hhg] using hj, hid⟩)
    (fun h => by
      simp only [Function.update_apply]
      split
      · rename_i hhg
        rw [hhg, hg]
        rfl
      · rfl)
    rfl rfl rfl

/-- A goroutine past `acquire` takes a step in the lock's code. -/
theorem RunnerInv.lockStep (hi : RunnerInv maxJobs node s) {a : Lock.Action G}
    (hacq : ∀ id, a ≠ .acquire a.goroutine id) {l : Lock.State N G}
    (hl : Lock.step node s.lock a = some l) : RunnerInv maxJobs node { s with lock := l } :=
  hi.of_lock
    (fun h id hh => by
      by_cases hhg : h = a.goroutine
      · subst hhg
        exact hi.lockPhase _ id (Lock.lockId_step hl hacq hh)
      · rw [Lock.phase_step_of_ne hl hhg] at hh
        exact hi.lockPhase h id hh)
    (fun _ => rfl) rfl rfl rfl

/-- The deferred calls: the token is taken back and the job removed from `running`. -/
theorem RunnerInv.exit (hi : RunnerInv maxJobs node s) (hg : s.goroutine g = .inLock job)
    (hidle : s.lock.phase g = .idle) :
    RunnerInv maxJobs node
      { s with guard := Function.update s.guard (node g) (s.guard (node g) - 1)
               running := Function.update s.running (node g)
                 (Function.update (s.running (node g)) job false)
               goroutine := Function.update s.goroutine g .exited } where
  lockPhase h id hh := by
    obtain ⟨job', hj, hid⟩ := hi.lockPhase h id hh
    have hhg : h ≠ g := by
      rintro rfl
      simp [hidle] at hh
    exact ⟨job', by simpa [Function.update_apply, hhg] using hj, hid⟩
  running n' job' := by
    have hgjob : (s.goroutine g).job? = some job := by simp [hg]
    -- `g` has exited; the other goroutines are where they were
    have hjob : ∀ h, (Function.update s.goroutine g .exited h).job? =
        if h = g then none else (s.goroutine h).job? := by
      intro h
      simp only [Function.update_apply]
      split <;> rfl
    simp only [hjob]
    by_cases hn : n' = node g
    · subst hn
      by_cases hj : job' = job
      · subst hj
        simp only [Function.update_self, Bool.false_eq_true, false_iff, not_or, not_exists, not_and]
        -- the loop is not starting the job, and no other goroutine of the ATC runs it
        refine ⟨fun hpj => hi.pending _ _ g hpj rfl hgjob, fun h hnh hh => ?_⟩
        split at hh
        · cases hh
        · rename_i hhg
          exact hhg (hi.unique h g _ hh hgjob hnh)
      · simp only [Function.update_self, Function.update_of_ne hj]
        rw [hi.running _ job']
        constructor
        · rintro (hpj | ⟨h, hnh, hh⟩)
          · exact .inl hpj
          · have hhg : h ≠ g := by
              rintro rfl
              rw [hgjob] at hh
              exact hj (Option.some.inj hh).symm
            exact .inr ⟨h, hnh, by simp [hhg, hh]⟩
        · rintro (hpj | ⟨h, hnh, hh⟩)
          · exact .inl hpj
          · split at hh
            · cases hh
            · exact .inr ⟨h, hnh, hh⟩
    · simp only [Function.update_of_ne hn]
      rw [hi.running n' job']
      constructor
      · rintro (hpj | ⟨h, hnh, hh⟩)
        · exact .inl hpj
        · have hhg : h ≠ g := by
            rintro rfl
            exact hn hnh.symm
          exact .inr ⟨h, hnh, by simp [hhg, hh]⟩
      · rintro (hpj | ⟨h, hnh, hh⟩)
        · exact .inl hpj
        · split at hh
          · cases hh
          · exact .inr ⟨h, hnh, hh⟩
  pending n' job' h hp' hn := by
    simp only [Function.update_apply]
    split
    · simp
    · exact hi.pending n' job' h hp' hn
  unique g₁ g₂ job' h₁ h₂ := by
    simp only [Function.update_apply] at h₁ h₂
    split at h₁
    · simp at h₁
    · split at h₂
      · simp at h₂
      · exact hi.unique g₁ g₂ job' h₁ h₂
  tokens n' S hS := by
    have hgS : g ∉ S := fun hgS => by simpa using (hS g hgS).2
    simp only [Function.update_apply]
    split
    · rename_i hn
      subst hn
      -- with `g`, the goroutines of `S` were live before
      have hold := hi.tokens (node g) (insert g S) fun h hh => by
        rcases Finset.mem_insert.mp hh with rfl | hmem
        · exact ⟨rfl, by simp [hg]⟩
        · have hhg : h ≠ g := fun e => hgS (e ▸ hmem)
          simpa [Function.update_apply, hhg] using hS h hmem
      rw [Finset.card_insert_of_notMem hgS] at hold
      omega
    · exact hi.tokens n' S fun h hh => by
        have hhg : h ≠ g := fun e => hgS (e ▸ hh)
        simpa [Function.update_apply, hhg] using hS h hh
  guard_le n' := by
    simp only [Function.update_apply]
    split
    · exact Nat.le_trans (Nat.sub_le _ _) (hi.guard_le _)
    · exact hi.guard_le n'

/-- Every step of the runners keeps the invariant. -/
theorem runnerInv_step (hi : RunnerInv maxJobs node s) {a : RunnerAction N G}
    {s' : RunnerState N G} (h : runnerStep maxJobs node s a = some s') : RunnerInv maxJobs node s' := by
  cases a with
  | loadOrStore n job =>
    obtain ⟨hp, ⟨-, rfl⟩ | ⟨hr, rfl⟩⟩ := runnerStep_loadOrStore h
    · exact hi
    · exact hi.loadOrStore hp hr
  | spawn g =>
    obtain ⟨job, hp, hg, hlt, rfl⟩ := runnerStep_spawn h
    exact hi.spawn hp hg hlt
  | lockStep a =>
    obtain ⟨l, hl, ⟨job, hg, ha, rfl⟩ | ⟨job, -, hacq, rfl⟩⟩ := runnerStep_lockStep h
    · rw [ha] at hl
      exact hi.acquire hg hl
    · exact hi.lockStep hacq hl
  | exit g =>
    obtain ⟨job, hg, hidle, rfl⟩ := runnerStep_exit h
    exact hi.exit hg hidle

/-- The invariant holds in every reachable state of the runners. -/
theorem reachable_runnerInv (hs : RunnerReachable maxJobs node s) : RunnerInv maxJobs node s :=
  Interleaving.Reachable.invariant runnerInv_init (fun _ _ _ _ hi ha => runnerInv_step hi ha) hs

end Invariant

/-! ### What the runners guarantee -/

section Guarantees

variable {N G : Type} [DecidableEq N] [DecidableEq G] {maxJobs : Nat} {node : G → N}
  {s : RunnerState N G} {g h : G} {job : Int}

/-- Goroutine `g` runs `scheduleJob` of `job`: it is past `AcquireSchedulingLock` and holds the
lock it took. -/
def RunnerState.InScheduleJob (s : RunnerState N G) (g : G) (job : Int) : Prop :=
  s.goroutine g = .inLock job ∧ ∃ id, s.lock.phase g = .holding id

/-- `scheduleJob` of a job never runs on two goroutines at once, on one ATC or on two. -/
theorem scheduleJob_unique (hs : RunnerReachable maxJobs node s) (hg : s.InScheduleJob g job)
    (hh : s.InScheduleJob h job) : g = h := by
  have hi := reachable_runnerInv hs
  obtain ⟨hgj, idg, hgl⟩ := hg
  obtain ⟨hhj, idh, hhl⟩ := hh
  -- the lock each of them holds is the scheduling lock of its job
  obtain ⟨jg, hgj', rfl⟩ := hi.lockPhase g idg (by simp [hgl])
  obtain ⟨jh, hhj', rfl⟩ := hi.lockPhase h idh (by simp [hhl])
  rw [hgj, JobGoroutine.inLock.injEq] at hgj'
  rw [hhj, JobGoroutine.inLock.injEq] at hhj'
  subst hgj' hhj'
  exact Lock.holding_unique (lock_reachable hs) hgl hhl

/-- No set of goroutines of an ATC that have started and not exited is larger than `maxJobs`. -/
theorem live_card_le (hs : RunnerReachable maxJobs node s) (n : N) (S : Finset G)
    (hS : ∀ g ∈ S, node g = n ∧ (s.goroutine g).job?.isSome) : S.card ≤ maxJobs := by
  have hi := reachable_runnerInv hs
  calc S.card ≤ s.guard n := hi.tokens n S hS
    _ ≤ maxJobs := hi.guard_le n

/-- An ATC never has two goroutines for one job. -/
theorem live_unique (hs : RunnerReachable maxJobs node s) (hg : (s.goroutine g).job? = some job)
    (hh : (s.goroutine h).job? = some job) (hn : node g = node h) : g = h :=
  (reachable_runnerInv hs).unique g h job hg hh hn

/-- ATCs 0 and 1 both find job 3 to schedule; goroutine 0 of ATC 0 takes the lock, goroutine 1
of ATC 1 is turned away by the database and exits. -/
def jobSchedulingRace : RunnerState Nat Nat :=
  Interleaving.runSchedule (runnerStep 2 Lock.twoAtcs) .init
    [.loadOrStore 0 3, .spawn 0, .loadOrStore 1 3, .spawn 1,
     .lockStep (.acquire 0 (Lock.newJobSchedulingLockID 3)), .lockStep (.isRegistered 0),
     .lockStep (.dbAcquire 0 false), .lockStep (.register 0),
     .lockStep (.acquire 1 (Lock.newJobSchedulingLockID 3)), .lockStep (.isRegistered 1),
     .lockStep (.dbAcquire 1 false), .exit 1]

theorem reachable_jobSchedulingRace : RunnerReachable 2 Lock.twoAtcs jobSchedulingRace :=
  Interleaving.reachable_runSchedule Interleaving.reachable_init _

example : jobSchedulingRace.goroutine 1 = .exited ∧ jobSchedulingRace.running 1 3 = false := by
  decide

theorem scheduleJob_unique_jobSchedulingRace :
    RunnerReachable 2 Lock.twoAtcs jobSchedulingRace ∧ jobSchedulingRace.InScheduleJob 0 3 ∧
      (0 : Nat) = 0 := by
  have hg : jobSchedulingRace.InScheduleJob 0 3 :=
    ⟨by decide, Lock.newJobSchedulingLockID 3, by decide⟩
  exact ⟨reachable_jobSchedulingRace, hg, scheduleJob_unique reachable_jobSchedulingRace hg hg⟩

theorem live_card_le_jobSchedulingRace :
    RunnerReachable 2 Lock.twoAtcs jobSchedulingRace ∧ ({0} : Finset Nat).card ≤ 2 :=
  ⟨reachable_jobSchedulingRace,
    live_card_le reachable_jobSchedulingRace 0 {0} (by decide)⟩

end Guarantees

end Concourse.Scheduler
