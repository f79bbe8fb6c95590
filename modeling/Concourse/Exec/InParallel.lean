import Mathlib.Algebra.GroupWithZero.Nat
import Mathlib.Data.List.Count
import Concourse.Atc.Steps

/-!
# The parallel executor

`atc/exec/in_parallel.go`: `parallelExecutor.run` starts `runFunc(runCtx, i)` for
`i = 0, 1, …` in goroutines, each after taking a token of the semaphore `sem`, a channel whose
capacity is the effective limit `L` of its `MaxInFlightConfig`.  It stops starting them once
`runCtx` is cancelled: by the parent context, or under `failFast` by a call that failed.  A
goroutine sends its call's error on `errs` and gives its token back; when the call panics, it
gives the token back and sends the error `DumpPanic` makes of the panic.  `run` then receives
one message for each goroutine it started, keeps the errors that are not `context.Canceled`,
and returns.

The model is a step relation over the executor's state (`Step`): the main goroutine's place in
`run`, the tokens taken, the goroutines with their place in their own code, the buffer of
`errs`, the failure count, and whether `runCtx` and the parent context are cancelled.  Each
rule is one operation on the semaphore or on the channel, or the end of a call (with the
failure count and the `cancel` that follow it), and a call may end in any way.  Ghost fields
record the messages received, with their senders, and whether the main goroutine holds a
token.

`Inv` holds of every reachable state (`reachable_inv`).  From it: at most `L` calls run at once;
the indices are started in order, each once; a state where `run` has not returned always has
a step that is not the parent's cancellation, and every step lowers `measure`; and once `run`
returns it has received one message from each goroutine it started, and it returns
`(true, nil)` exactly when the parent context is not cancelled, every index was started and
every call returned `succeeded` with no error or `context.Canceled` (`parallelExecutor_run`).
-/

namespace Concourse
namespace Exec

open Atc

/-- An error a call returns: `context.Canceled` (an error `errors.Is` finds it in), or
another. -/
inductive RunError where
  | canceled
  | failure (msg : String)
  deriving DecidableEq, Repr

/-- How a call of `runFunc` ends: it returns `(succeeded, err)`, or it panics. -/
inductive Outcome where
  | returned (succeeded : Bool) (err : Option RunError)
  | panicked (value : String)
  deriving DecidableEq, Repr

/-- Where a goroutine is in its code. -/
inductive GoPhase where
  /-- in `p.runFunc(runCtx, i)` -/
  | running
  /-- the call returned: at `errs <- err` -/
  | sending (succeeded : Bool) (err : Option RunError)
  /-- at the deferred `<-sem`, after the send or after the panic -/
  | releasing (outcome : Outcome)
  /-- the token given back after a panic: `DumpPanic` is about to send its error -/
  | recovering (value : String)
  | done (outcome : Outcome)
  deriving DecidableEq, Repr

/-- A goroutine, with the index it was started for. -/
structure Goroutine where
  index : Nat
  phase : GoPhase
  deriving DecidableEq, Repr

/-- A message on `errs`, with the index of its sender. -/
structure Message where
  sender : Nat
  err : Option RunError
  deriving DecidableEq, Repr

/-- Why `run` failed: the parent context's error, or the errors of the calls. -/
inductive ExecError where
  | context
  | multi (errs : List RunError)
  deriving DecidableEq, Repr

/-- Where the main goroutine is in `run`. -/
inductive MainPhase where
  /-- at the loop's test `i < p.count` -/
  | loop (i : Nat)
  /-- the token taken by `sem <- true`, at `runCtx.Err()` -/
  | acquired (i : Nat)
  /-- at the `k`-th receive, `<-errs` -/
  | collect (k : Nat)
  | returned (succeeded : Bool) (err : Option ExecError)
  deriving DecidableEq, Repr

/-- A `parallelExecutor`, its `runFunc` apart. -/
structure ParallelExecutor where
  stepName : String
  maxInFlight : Option MaxInFlightConfig
  failFast : Bool
  count : Nat

/-- The capacity of `sem`. -/
def ParallelExecutor.limit (p : ParallelExecutor) : Int :=
  MaxInFlightConfig.effectiveLimit p.maxInFlight p.count

/-- The state of `run` and of the goroutines it started. -/
structure ExecState where
  main : MainPhase
  executedSteps : Nat
  /-- the tokens in `sem` -/
  sem : Nat
  goroutines : List Goroutine
  /-- the buffer of `errs`, oldest first -/
  errs : List Message
  result : List RunError
  numFailures : Nat
  runCancelled : Bool
  parentCancelled : Bool
  /-- the messages received, in order -/
  received : List Message
  /-- the main goroutine holds the token it took last -/
  mainHolds : Bool

/-- The message a goroutine sends for its call: the call's error, or the error `DumpPanic`
makes of the panic. -/
def Outcome.message (stepName : String) : Outcome → Option RunError
  | .returned _ err => err
  | .panicked value => some (.failure ("panic in " ++ stepName ++ " step: " ++ value))

/-- The call returned `succeeded = false`: `numFailures` counts it. -/
def Outcome.failed : Outcome → Bool
  | .returned succeeded _ => !succeeded
  | .panicked _ => false

/-- The call returned `succeeded` with no error or `context.Canceled`. -/
def Outcome.good : Outcome → Bool
  | .returned succeeded err => succeeded && (err == none || err == some .canceled)
  | .panicked _ => false

/-- `err != nil && !errors.Is(err, context.Canceled)`: the error `run` keeps. -/
def keptError : Option RunError → Option RunError
  | some (.failure msg) => some (.failure msg)
  | _ => none

namespace GoPhase

/-- How the goroutine's call ended, once it has. -/
def outcome? : GoPhase → Option Outcome
  | .running => none
  | .sending succeeded err => some (.returned succeeded err)
  | .releasing outcome | .done outcome => some outcome
  | .recovering value => some (.panicked value)

/-- The goroutine holds the token taken for it, from its start to its `<-sem`. -/
def holding : GoPhase → Bool
  | .running | .sending .. | .releasing _ => true
  | .recovering _ | .done _ => false

/-- The goroutine has sent its message. -/
def sent : GoPhase → Bool
  | .releasing (.returned ..) | .done _ => true
  | _ => false

def failed (phase : GoPhase) : Bool :=
  (phase.outcome?.map Outcome.failed).getD false

/-- After `<-sem`: done, or on to `DumpPanic` after a panic. -/
def afterRelease : Outcome → GoPhase
  | .panicked value => .recovering value
  | outcome => .done outcome

@[simp] theorem holding_running : running.holding = true := rfl
@[simp] theorem holding_sending (succeeded : Bool) (err : Option RunError) :
    (sending succeeded err).holding = true := rfl
@[simp] theorem holding_releasing (outcome : Outcome) : (releasing outcome).holding = true := rfl
@[simp] theorem holding_recovering (value : String) : (recovering value).holding = false := rfl
@[simp] theorem holding_done (outcome : Outcome) : (done outcome).holding = false := rfl

@[simp] theorem sent_running : running.sent = false := rfl
@[simp] theorem sent_sending (succeeded : Bool) (err : Option RunError) :
    (sending succeeded err).sent = false := rfl
@[simp] theorem sent_releasing_returned (succeeded : Bool) (err : Option RunError) :
    (releasing (.returned succeeded err)).sent = true := rfl
@[simp] theorem sent_releasing_panicked (value : String) :
    (releasing (.panicked value)).sent = false := rfl
@[simp] theorem sent_recovering (value : String) : (recovering value).sent = false := rfl
@[simp] theorem sent_done (outcome : Outcome) : (done outcome).sent = true := rfl

@[simp] theorem outcome?_running : running.outcome? = none := rfl
@[simp] theorem outcome?_sending (succeeded : Bool) (err : Option RunError) :
    (sending succeeded err).outcome? = some (.returned succeeded err) := rfl
@[simp] theorem outcome?_releasing (outcome : Outcome) :
    (releasing outcome).outcome? = some outcome := rfl
@[simp] theorem outcome?_recovering (value : String) :
    (recovering value).outcome? = some (.panicked value) := rfl
@[simp] theorem outcome?_done (outcome : Outcome) : (done outcome).outcome? = some outcome := rfl

@[simp] theorem failed_running : running.failed = false := rfl
@[simp] theorem failed_sending (succeeded : Bool) (err : Option RunError) :
    (sending succeeded err).failed = !succeeded := rfl
@[simp] theorem failed_releasing (outcome : Outcome) :
    (releasing outcome).failed = outcome.failed := rfl
@[simp] theorem failed_recovering (value : String) : (recovering value).failed = false := rfl
@[simp] theorem failed_done (outcome : Outcome) : (done outcome).failed = outcome.failed := rfl

end GoPhase

@[simp] theorem Outcome.failed_returned (succeeded : Bool) (err : Option RunError) :
    (Outcome.returned succeeded err).failed = !succeeded := rfl
@[simp] theorem Outcome.failed_panicked (value : String) :
    (Outcome.panicked value).failed = false := rfl

/-- What `run` returns once it received every message. -/
def ExecState.returnValue (s : ExecState) : Bool × Option ExecError :=
  if s.parentCancelled then (false, some .context)
  else if !s.result.isEmpty then (false, some (.multi s.result))
  else (s.numFailures == 0, none)

/-- `run` before its first statement. -/
def ExecState.initial : ExecState where
  main := .loop 0
  executedSteps := 0
  sem := 0
  goroutines := []
  errs := []
  result := []
  numFailures := 0
  runCancelled := false
  parentCancelled := false
  received := []
  mainHolds := false

/-- One step of `run`, of one of its goroutines, or of the parent context. -/
inductive Step (p : ParallelExecutor) : ExecState → ExecState → Prop
  /-- `sem <- true`, which blocks while `L` tokens are taken. -/
  | acquire {s : ExecState} {i : Nat} (hmain : s.main = .loop i) (hi : i < p.count)
      (hfree : (s.sem : Int) < p.limit) :
      Step p s { s with main := .acquired i, sem := s.sem + 1, mainHolds := true }
  /-- The loop's test fails. -/
  | exitLoop {s : ExecState} {i : Nat} (hmain : s.main = .loop i) (hi : p.count ≤ i) :
      Step p s { s with main := .collect 0 }
  /-- `if runCtx.Err() != nil { break }`, the token kept. -/
  | breakLoop {s : ExecState} {i : Nat} (hmain : s.main = .acquired i)
      (hcancelled : (s.runCancelled || s.parentCancelled) = true) :
      Step p s { s with main := .collect 0 }
  /-- `go func() {…}()`, `executedSteps++` and `i++`; the token is the goroutine's. -/
  | spawn {s : ExecState} {i : Nat} (hmain : s.main = .acquired i)
      (hcancelled : (s.runCancelled || s.parentCancelled) = false) :
      Step p s { s with
        main := .loop (i + 1)
        executedSteps := s.executedSteps + 1
        goroutines := s.goroutines ++ [⟨i, .running⟩]
        mainHolds := false }
  /-- A call returns; a failure is counted and, under `failFast`, cancels `runCtx`. -/
  | callReturn {s : ExecState} {j : Nat} {g : Goroutine} (hg : s.goroutines[j]? = some g)
      (hphase : g.phase = .running) (succeeded : Bool) (err : Option RunError) :
      Step p s { s with
        goroutines := s.goroutines.set j ⟨g.index, .sending succeeded err⟩
        numFailures := if succeeded then s.numFailures else s.numFailures + 1
        runCancelled := s.runCancelled || (!succeeded && p.failFast) }
  /-- A call panics. -/
  | callPanic {s : ExecState} {j : Nat} {g : Goroutine} (hg : s.goroutines[j]? = some g)
      (hphase : g.phase = .running) (value : String) :
      Step p s { s with
        goroutines := s.goroutines.set j ⟨g.index, .releasing (.panicked value)⟩ }
  /-- `errs <- err`, which blocks while the `p.count` places of `errs` are full. -/
  | send {s : ExecState} {j : Nat} {g : Goroutine} {succeeded : Bool} {err : Option RunError}
      (hg : s.goroutines[j]? = some g) (hphase : g.phase = .sending succeeded err)
      (hroom : s.errs.length < p.count) :
      Step p s { s with
        goroutines := s.goroutines.set j ⟨g.index, .releasing (.returned succeeded err)⟩
        errs := s.errs ++ [⟨g.index, err⟩] }
  /-- The deferred `<-sem`. -/
  | release {s : ExecState} {j : Nat} {g : Goroutine} {outcome : Outcome}
      (hg : s.goroutines[j]? = some g) (hphase : g.phase = .releasing outcome)
      (hsem : 0 < s.sem) :
      Step p s { s with
        goroutines := s.goroutines.set j ⟨g.index, GoPhase.afterRelease outcome⟩
        sem := s.sem - 1 }
  /-- The deferred `DumpPanic` sends the panic's error. -/
  | recover {s : ExecState} {j : Nat} {g : Goroutine} {value : String}
      (hg : s.goroutines[j]? = some g) (hphase : g.phase = .recovering value)
      (hroom : s.errs.length < p.count) :
      Step p s { s with
        goroutines := s.goroutines.set j ⟨g.index, .done (.panicked value)⟩
        errs := s.errs ++ [⟨g.index, (Outcome.panicked value).message p.stepName⟩] }
  /-- `err := <-errs`, kept when it is an error other than `context.Canceled`. -/
  | receive {s : ExecState} {k : Nat} {m : Message} {rest : List Message}
      (hmain : s.main = .collect k) (hk : k < s.executedSteps) (herrs : s.errs = m :: rest) :
      Step p s { s with
        main := .collect (k + 1)
        errs := rest
        received := s.received ++ [m]
        result := s.result ++ (keptError m.err).toList }
  /-- `run` returns. -/
  | finish {s : ExecState} {k : Nat} (hmain : s.main = .collect k) (hk : k = s.executedSteps) :
      Step p s { s with main := .returned s.returnValue.1 s.returnValue.2 }
  /-- The parent context is cancelled while `run` runs. -/
  | cancelParent {s : ExecState} (hmain : ∀ b e, s.main ≠ .returned b e)
      (hparent : s.parentCancelled = false) :
      Step p s { s with parentCancelled := true }

/-- The states `run` can reach. -/
def Reachable (p : ParallelExecutor) : ExecState → Prop :=
  Relation.ReflTransGen (Step p) ExecState.initial

/-- The calls running. -/
def ExecState.active (s : ExecState) : Nat :=
  s.goroutines.countP (·.phase = .running)

/-- Whether the goroutine started for `i` has sent its message. -/
def ExecState.hasSent (s : ExecState) (i : Nat) : Bool :=
  (s.goroutines[i]?.map (·.phase.sent)).getD false

theorem ExecState.hasSent_def (s : ExecState) (i : Nat) :
    s.hasSent i = (s.goroutines[i]?.map (·.phase.sent)).getD false :=
  rfl

/-! ## One goroutine's step -/

section SetPhase

variable {gs : List Goroutine} {j : Nat} {g : Goroutine}

theorem map_index_set (hg : gs[j]? = some g) (phase : GoPhase) :
    (gs.set j ⟨g.index, phase⟩).map (·.index) = gs.map (·.index) := by
  obtain ⟨hj, rfl⟩ := List.getElem?_eq_some_iff.mp hg
  have hj' : j < (gs.map (·.index)).length := by simpa using hj
  have hindex : (gs.map (·.index))[j] = gs[j].index := List.getElem_map ..
  rw [List.map_set, ← hindex, List.set_getElem_self]

/-- A count over the goroutines' phases after one goroutine moves to `phase`. -/
theorem countP_set_phase (hg : gs[j]? = some g) (P : GoPhase → Bool) (phase : GoPhase) :
    (gs.set j ⟨g.index, phase⟩).countP (fun g => P g.phase) + (P g.phase).toNat =
      gs.countP (fun g => P g.phase) + (P phase).toNat := by
  obtain ⟨hj, rfl⟩ := List.getElem?_eq_some_iff.mp hg
  have hle := List.boole_getElem_le_countP (p := fun g : Goroutine => P g.phase) hj
  have htoNat : ∀ b : Bool, (if b = true then 1 else 0) = b.toNat := fun b => by cases b <;> rfl
  rw [List.countP_set hj]
  simp only [htoNat] at hle ⊢
  omega

theorem getElem?_set_phase (hg : gs[j]? = some g) (phase : GoPhase) (i : Nat) :
    (gs.set j ⟨g.index, phase⟩)[i]? = if j = i then some ⟨g.index, phase⟩ else gs[i]? := by
  have hj := (List.getElem?_eq_some_iff.mp hg).1
  simp [List.getElem?_set, hj]

/-- A sum over the goroutines after one goroutine moves to `phase`. -/
theorem sum_map_set (f : GoPhase → Nat) :
    ∀ {gs : List Goroutine} {j : Nat} {g : Goroutine}, gs[j]? = some g → ∀ phase,
      ((gs.set j ⟨g.index, phase⟩).map (f ·.phase)).sum + f g.phase =
        (gs.map (f ·.phase)).sum + f phase
  | [], _, _, hg, _ => by simp at hg
  | g' :: gs, 0, g, hg, phase => by
    cases hg
    simp only [List.set_cons_zero, List.map_cons, List.sum_cons]
    omega
  | g' :: gs, j + 1, g, hg, phase => by
    have ih := @sum_map_set f gs j g hg phase
    simp only [List.set_cons_succ, List.map_cons, List.sum_cons]
    omega

end SetPhase

/-! ## The invariant -/

/-- `run` started every index, or `runCtx` is cancelled. -/
def ExecState.Started (p : ParallelExecutor) (s : ExecState) : Prop :=
  s.goroutines.length = p.count ∨ s.runCancelled = true ∨ s.parentCancelled = true

/-- Where the main goroutine is, and what it has done there. -/
def ExecState.MainInv (p : ParallelExecutor) (s : ExecState) : Prop :=
  match s.main with
  | .loop i => i = s.goroutines.length ∧ s.mainHolds = false ∧ s.received = []
  | .acquired i => i = s.goroutines.length ∧ i < p.count ∧ s.mainHolds = true ∧ s.received = []
  | .collect k => k = s.received.length ∧ k ≤ s.executedSteps ∧ s.Started p
  | .returned b e => s.received.length = s.executedSteps ∧ (b, e) = s.returnValue ∧ s.Started p

/-- What holds of every state `run` reaches. -/
structure Inv (p : ParallelExecutor) (s : ExecState) : Prop where
  /-- the goroutines were started for `0, 1, …`, and `executedSteps` counts them -/
  indices : s.goroutines.map (·.index) = List.range s.goroutines.length
  executed : s.executedSteps = s.goroutines.length
  started_le : s.goroutines.length ≤ p.count
  /-- `sem` holds the goroutines' tokens, and the one the main goroutine took last -/
  sem_eq : s.sem = s.goroutines.countP (·.phase.holding) + s.mainHolds.toNat
  sem_le : (s.sem : Int) ≤ p.limit
  failures : s.numFailures = s.goroutines.countP (·.phase.failed)
  run_cancelled : s.runCancelled = (p.failFast && s.numFailures != 0)
  /-- the messages sent, received or not: one from each goroutine that has sent, with its
  call's error -/
  sent_length : (s.received ++ s.errs).length = s.goroutines.countP (·.phase.sent)
  sent_count : ∀ i, ((s.received ++ s.errs).map (·.sender)).count i = (s.hasSent i).toNat
  sent_err : ∀ m ∈ s.received ++ s.errs, ∃ g outcome, s.goroutines[m.sender]? = some g ∧
    g.phase.outcome? = some outcome ∧ m.err = outcome.message p.stepName
  result_eq : s.result = s.received.flatMap fun m => (keptError m.err).toList
  main_inv : s.MainInv p

variable {p : ParallelExecutor} {s : ExecState}

theorem Inv.initial (hlimit : 0 ≤ p.limit) : Inv p ExecState.initial where
  indices := rfl
  executed := rfl
  started_le := Nat.zero_le _
  sem_eq := rfl
  sem_le := hlimit
  failures := rfl
  run_cancelled := by simp [ExecState.initial]
  sent_length := rfl
  sent_count := fun i => by simp [ExecState.initial, ExecState.hasSent]
  sent_err := fun m hm => by simp [ExecState.initial] at hm
  result_eq := rfl
  main_inv := ⟨rfl, rfl, rfl⟩

section MainPlace

variable (inv : Inv p s)
include inv

theorem Inv.main_loop {i : Nat} (hmain : s.main = .loop i) :
    i = s.goroutines.length ∧ s.mainHolds = false ∧ s.received = [] := by
  have h := inv.main_inv
  simp only [ExecState.MainInv, hmain] at h
  exact h

theorem Inv.main_acquired {i : Nat} (hmain : s.main = .acquired i) :
    i = s.goroutines.length ∧ i < p.count ∧ s.mainHolds = true ∧ s.received = [] := by
  have h := inv.main_inv
  simp only [ExecState.MainInv, hmain] at h
  exact h

theorem Inv.main_collect {k : Nat} (hmain : s.main = .collect k) :
    k = s.received.length ∧ k ≤ s.executedSteps ∧ s.Started p := by
  have h := inv.main_inv
  simp only [ExecState.MainInv, hmain] at h
  exact h

theorem Inv.main_returned {b : Bool} {e : Option ExecError} (hmain : s.main = .returned b e) :
    s.received.length = s.executedSteps ∧ (b, e) = s.returnValue ∧ s.Started p := by
  have h := inv.main_inv
  simp only [ExecState.MainInv, hmain] at h
  exact h

end MainPlace

/-- A goroutine's index is its place in the list. -/
theorem Inv.index_eq (inv : Inv p s) {j : Nat} {g : Goroutine}
    (hg : s.goroutines[j]? = some g) : g.index = j := by
  have hmap : (s.goroutines.map (·.index))[j]? = some g.index := by simp [hg]
  rw [inv.indices, List.getElem?_range (List.getElem?_eq_some_iff.mp hg).1] at hmap
  exact (Option.some.inj hmap).symm

/-- Once every message is received, every goroutine has sent and the buffer is empty. -/
theorem Inv.sent_of_received (inv : Inv p s) (hk : s.received.length = s.executedSteps) :
    s.errs = [] ∧ ∀ g ∈ s.goroutines, g.phase.sent = true := by
  have hlen := inv.sent_length
  have hle := List.countP_le_length (p := fun g : Goroutine => g.phase.sent) (l := s.goroutines)
  rw [List.length_append] at hlen
  rw [inv.executed] at hk
  refine ⟨List.eq_nil_of_length_eq_zero (by omega), List.countP_eq_length.mp ?_⟩
  omega

section GoroutineStep

variable {j : Nat} {g : Goroutine}

theorem Inv.indices_set (inv : Inv p s) (hg : s.goroutines[j]? = some g) (phase : GoPhase) :
    (s.goroutines.set j ⟨g.index, phase⟩).map (·.index) =
      List.range (s.goroutines.set j ⟨g.index, phase⟩).length := by
  rw [map_index_set hg, List.length_set]
  exact inv.indices

theorem hasSent_set (hg : s.goroutines[j]? = some g) (phase : GoPhase) (i : Nat) :
    (((s.goroutines.set j ⟨g.index, phase⟩)[i]?).map (·.phase.sent)).getD false =
      if j = i then phase.sent else s.hasSent i := by
  rw [getElem?_set_phase hg]
  split <;> rfl

/-- The messages keep their errors when the goroutine that moves keeps its outcome. -/
theorem Inv.sent_err_set (inv : Inv p s) (hg : s.goroutines[j]? = some g) (phase : GoPhase)
    (hkeep : ∀ o, g.phase.outcome? = some o → phase.outcome? = some o) :
    ∀ m ∈ s.received ++ s.errs, ∃ g' outcome,
      (s.goroutines.set j ⟨g.index, phase⟩)[m.sender]? = some g' ∧
        g'.phase.outcome? = some outcome ∧ m.err = outcome.message p.stepName := by
  intro m hm
  obtain ⟨g', o, hg', ho, herr⟩ := inv.sent_err m hm
  rw [getElem?_set_phase hg]
  split
  · rename_i hj
    subst hj
    rw [hg] at hg'
    cases hg'
    exact ⟨_, o, rfl, hkeep o ho, herr⟩
  · exact ⟨g', o, hg', ho, herr⟩

theorem hasSent_of_getElem? (hg : s.goroutines[j]? = some g) : s.hasSent j = g.phase.sent := by
  simp [ExecState.hasSent_def, hg]

/-- A goroutine that moves without sending leaves the count of each sender as it was. -/
theorem Inv.sent_count_set (inv : Inv p s) (hg : s.goroutines[j]? = some g) (phase : GoPhase)
    (hsame : phase.sent = g.phase.sent) (i : Nat) :
    ((s.received ++ s.errs).map (·.sender)).count i =
      ((((s.goroutines.set j ⟨g.index, phase⟩)[i]?).map (·.phase.sent)).getD false).toNat := by
  rw [hasSent_set hg, inv.sent_count i]
  split
  · rename_i hji
    subst hji
    rw [hsame, hasSent_of_getElem? hg]
  · rfl

/-- A goroutine that sends adds one message, its own. -/
theorem Inv.sent_count_send (inv : Inv p s) (hg : s.goroutines[j]? = some g)
    (hnot : g.phase.sent = false) (phase : GoPhase) (hsent : phase.sent = true)
    (err : Option RunError) (i : Nat) :
    ((s.received ++ (s.errs ++ [(⟨g.index, err⟩ : Message)])).map (·.sender)).count i =
      ((((s.goroutines.set j ⟨g.index, phase⟩)[i]?).map (·.phase.sent)).getD false).toNat := by
  rw [← List.append_assoc, List.map_append, List.count_append, inv.sent_count i, hasSent_set hg,
    inv.index_eq hg]
  split
  · rename_i hji
    subst hji
    simp [hasSent_of_getElem? hg, hnot, hsent]
  · rename_i hji
    simp [hji]

/-- The message a goroutine sends carries its call's error. -/
theorem Inv.sent_err_send (inv : Inv p s) (hg : s.goroutines[j]? = some g) (phase : GoPhase)
    (hkeep : ∀ o, g.phase.outcome? = some o → phase.outcome? = some o) (outcome : Outcome)
    (houtcome : phase.outcome? = some outcome) :
    ∀ m ∈ s.received ++ (s.errs ++ [(⟨g.index, outcome.message p.stepName⟩ : Message)]), ∃ g' o,
      (s.goroutines.set j ⟨g.index, phase⟩)[m.sender]? = some g' ∧
        g'.phase.outcome? = some o ∧ m.err = o.message p.stepName := by
  intro m hm
  rw [← List.append_assoc, List.mem_append] at hm
  rcases hm with hm | hm
  · exact inv.sent_err_set hg phase hkeep m hm
  · rw [List.mem_singleton] at hm
    subst hm
    refine ⟨⟨g.index, phase⟩, outcome, ?_, houtcome, rfl⟩
    rw [getElem?_set_phase hg, inv.index_eq hg, if_pos rfl]

end GoroutineStep

theorem GoPhase.outcome?_afterRelease (outcome : Outcome) :
    (GoPhase.afterRelease outcome).outcome? = some outcome := by
  cases outcome <;> rfl

theorem GoPhase.failed_afterRelease (outcome : Outcome) :
    (GoPhase.afterRelease outcome).failed = outcome.failed := by
  cases outcome <;> rfl

theorem GoPhase.sent_afterRelease (outcome : Outcome) :
    (GoPhase.afterRelease outcome).sent = (GoPhase.releasing outcome).sent := by
  cases outcome <;> rfl

theorem ExecState.Started.mono {s s' : ExecState} (h : s.Started p)
    (hlen : s'.goroutines.length = s.goroutines.length)
    (hrun : s.runCancelled = true → s'.runCancelled = true)
    (hparent : s.parentCancelled = true → s'.parentCancelled = true) : s'.Started p := by
  rcases h with h | h | h
  · exact Or.inl (hlen.trans h)
  · exact Or.inr (Or.inl (hrun h))
  · exact Or.inr (Or.inr (hparent h))

/-- A step that leaves the main goroutine where it is keeps what is known of it. -/
theorem ExecState.MainInv.frame {s s' : ExecState} (h : s.MainInv p) (hmain : s'.main = s.main)
    (hreceived : s'.received = s.received) (hholds : s'.mainHolds = s.mainHolds)
    (hexec : s'.executedSteps = s.executedSteps)
    (hlen : s'.goroutines.length = s.goroutines.length)
    (hrun : s.runCancelled = true → s'.runCancelled = true)
    (hparent : s.parentCancelled = true → s'.parentCancelled = true)
    (hreturn : ∀ b e, s.main = .returned b e → s'.returnValue = s.returnValue) :
    s'.MainInv p := by
  unfold ExecState.MainInv at h ⊢
  rw [hmain, hreceived, hholds, hexec, hlen]
  cases hm : s.main with
  | loop i => simpa [hm] using h
  | acquired i => simpa [hm] using h
  | collect k =>
    rw [hm] at h
    exact ⟨h.1, h.2.1, h.2.2.mono hlen hrun hparent⟩
  | returned b e =>
    rw [hm] at h
    exact ⟨h.1, (hreturn b e hm).symm ▸ h.2.1, h.2.2.mono hlen hrun hparent⟩

/-! ## Each step keeps the invariant -/

section Preserve

variable {i j k : Nat} {g : Goroutine}

theorem Inv.acquire (inv : Inv p s) (hmain : s.main = .loop i) (hi : i < p.count)
    (hfree : (s.sem : Int) < p.limit) :
    Inv p { s with main := .acquired i, sem := s.sem + 1, mainHolds := true } := by
  obtain ⟨hlen, hholds, hreceived⟩ := inv.main_loop hmain
  exact { inv with
    sem_eq := by simp [inv.sem_eq, hholds]
    sem_le := by push_cast; omega
    main_inv := ⟨hlen, hi, rfl, hreceived⟩ }

theorem Inv.exitLoop (inv : Inv p s) (hmain : s.main = .loop i) (hi : p.count ≤ i) :
    Inv p { s with main := .collect 0 } := by
  obtain ⟨hlen, -, hreceived⟩ := inv.main_loop hmain
  have hstarted := inv.started_le
  exact { inv with
    main_inv := ⟨by simp [hreceived], Nat.zero_le _, Or.inl (by simp only; omega)⟩ }

theorem Inv.breakLoop (inv : Inv p s) (hmain : s.main = .acquired i)
    (hcancelled : (s.runCancelled || s.parentCancelled) = true) :
    Inv p { s with main := .collect 0 } := by
  obtain ⟨-, -, -, hreceived⟩ := inv.main_acquired hmain
  simp only [Bool.or_eq_true] at hcancelled
  exact { inv with main_inv := ⟨by simp [hreceived], Nat.zero_le _, Or.inr hcancelled⟩ }

/-- The goroutine started last is at the end of the list: whether a goroutine has sent is as
before. -/
theorem hasSent_append_running (gs : List Goroutine) (i i' : Nat) :
    (((gs ++ [⟨i, .running⟩])[i']?).map (·.phase.sent)).getD false =
      ((gs[i']?).map (·.phase.sent)).getD false := by
  rcases Nat.lt_or_ge i' gs.length with h | h
  · rw [List.getElem?_append_left h]
  · rw [List.getElem?_append_right h, List.getElem?_eq_none h]
    cases i' - gs.length <;> simp [GoPhase.sent]

theorem Inv.spawn (inv : Inv p s) (hmain : s.main = .acquired i) :
    Inv p { s with
      main := .loop (i + 1)
      executedSteps := s.executedSteps + 1
      goroutines := s.goroutines ++ [⟨i, .running⟩]
      mainHolds := false } := by
  obtain ⟨hlen, hi, hholds, hreceived⟩ := inv.main_acquired hmain
  exact { inv with
    indices := by simp [inv.indices, hlen, List.range_succ]
    executed := by simp [inv.executed]
    started_le := by simp only [List.length_append, List.length_singleton]; omega
    sem_eq := by simp [inv.sem_eq, hholds, GoPhase.holding]
    failures := by simp [inv.failures, GoPhase.failed, GoPhase.outcome?]
    sent_length := by simp [inv.sent_length, GoPhase.sent]
    sent_count := fun i' => by
      simp only [ExecState.hasSent_def]
      rw [hasSent_append_running, ← ExecState.hasSent_def]
      exact inv.sent_count i'
    sent_err := fun m hm => by
      obtain ⟨g', o, hg', ho, herr⟩ := inv.sent_err m hm
      exact ⟨g', o, by rw [List.getElem?_append_left (List.getElem?_eq_some_iff.mp hg').1, hg'],
        ho, herr⟩
    main_inv := ⟨by simp [hlen], rfl, hreceived⟩ }

theorem Inv.callReturn (inv : Inv p s) (hg : s.goroutines[j]? = some g)
    (hphase : g.phase = .running) (succeeded : Bool) (err : Option RunError) :
    Inv p { s with
      goroutines := s.goroutines.set j ⟨g.index, .sending succeeded err⟩
      numFailures := if succeeded then s.numFailures else s.numFailures + 1
      runCancelled := s.runCancelled || (!succeeded && p.failFast) } := by
  have hholding := countP_set_phase hg GoPhase.holding (.sending succeeded err)
  have hfailed := countP_set_phase hg GoPhase.failed (.sending succeeded err)
  have hsent := countP_set_phase hg GoPhase.sent (.sending succeeded err)
  simp [hphase] at hholding hfailed hsent
  -- the call was running, so `run` has not received its message and has not returned
  have hreturn : ∀ b e, s.main = .returned b e → False := fun b e hm => by
    have hall := (inv.sent_of_received (inv.main_returned hm).1).2 g (List.mem_of_getElem? hg)
    simp [hphase, GoPhase.sent] at hall
  exact { inv with
    indices := inv.indices_set hg _
    executed := by simp [inv.executed]
    started_le := by simpa using inv.started_le
    sem_eq := by dsimp only; rw [inv.sem_eq]; omega
    failures := by
      dsimp only
      rw [inv.failures]
      cases succeeded <;> simp only [Bool.not_true, Bool.not_false, if_true, if_false,
        Bool.false_eq_true, Bool.toNat_true, Bool.toNat_false] at hfailed ⊢ <;> omega
    run_cancelled := by
      dsimp only
      rw [inv.run_cancelled]
      cases succeeded <;> cases p.failFast <;> simp
    sent_length := by dsimp only; rw [inv.sent_length]; omega
    sent_count := fun i => by
      simp only [ExecState.hasSent_def]
      exact inv.sent_count_set hg _ (by simp [hphase, GoPhase.sent]) i
    sent_err := inv.sent_err_set hg _ (by simp [hphase, GoPhase.outcome?])
    main_inv := inv.main_inv.frame rfl rfl rfl rfl (List.length_set ..)
      (fun h => by simp [h]) id fun b e hm => (hreturn b e hm).elim }

theorem Inv.callPanic (inv : Inv p s) (hg : s.goroutines[j]? = some g)
    (hphase : g.phase = .running) (value : String) :
    Inv p { s with
      goroutines := s.goroutines.set j ⟨g.index, .releasing (.panicked value)⟩ } := by
  have hholding := countP_set_phase hg GoPhase.holding (.releasing (.panicked value))
  have hfailed := countP_set_phase hg GoPhase.failed (.releasing (.panicked value))
  have hsent := countP_set_phase hg GoPhase.sent (.releasing (.panicked value))
  simp [hphase] at hholding hfailed hsent
  exact { inv with
    indices := inv.indices_set hg _
    executed := by simp [inv.executed]
    started_le := by simpa using inv.started_le
    sem_eq := by dsimp only; rw [inv.sem_eq]; omega
    failures := by dsimp only; rw [inv.failures]; omega
    sent_length := by dsimp only; rw [inv.sent_length]; omega
    sent_count := fun i => by
      simp only [ExecState.hasSent_def]
      exact inv.sent_count_set hg _ (by simp [hphase, GoPhase.sent]) i
    sent_err := inv.sent_err_set hg _ (by simp [hphase, GoPhase.outcome?])
    main_inv := inv.main_inv.frame rfl rfl rfl rfl (List.length_set ..) id id
      fun _ _ _ => rfl }

theorem Inv.send (inv : Inv p s) {succeeded : Bool} {err : Option RunError}
    (hg : s.goroutines[j]? = some g) (hphase : g.phase = .sending succeeded err) :
    Inv p { s with
      goroutines := s.goroutines.set j ⟨g.index, .releasing (.returned succeeded err)⟩
      errs := s.errs ++ [⟨g.index, err⟩] } := by
  have hholding := countP_set_phase hg GoPhase.holding (.releasing (.returned succeeded err))
  have hfailed := countP_set_phase hg GoPhase.failed (.releasing (.returned succeeded err))
  have hsent := countP_set_phase hg GoPhase.sent (.releasing (.returned succeeded err))
  simp [hphase] at hholding hfailed hsent
  exact { inv with
    indices := inv.indices_set hg _
    executed := by simp [inv.executed]
    started_le := by simpa using inv.started_le
    sem_eq := by dsimp only; rw [inv.sem_eq]; omega
    failures := by dsimp only; rw [inv.failures]; omega
    sent_length := by
      dsimp only
      rw [← List.append_assoc, List.length_append, inv.sent_length, List.length_singleton]
      omega
    sent_count := fun i => by
      simp only [ExecState.hasSent_def]
      exact inv.sent_count_send hg (by simp [hphase, GoPhase.sent]) _ rfl err i
    sent_err := inv.sent_err_send hg _ (by simp [hphase, GoPhase.outcome?])
      (.returned succeeded err) rfl
    main_inv := inv.main_inv.frame rfl rfl rfl rfl (List.length_set ..) id id
      fun _ _ _ => rfl }

theorem Inv.release (inv : Inv p s) {outcome : Outcome} (hg : s.goroutines[j]? = some g)
    (hphase : g.phase = .releasing outcome) (hsem : 0 < s.sem) :
    Inv p { s with
      goroutines := s.goroutines.set j ⟨g.index, GoPhase.afterRelease outcome⟩
      sem := s.sem - 1 } := by
  have hholding := countP_set_phase hg GoPhase.holding (GoPhase.afterRelease outcome)
  have hfailed := countP_set_phase hg GoPhase.failed (GoPhase.afterRelease outcome)
  have hsent := countP_set_phase hg GoPhase.sent (GoPhase.afterRelease outcome)
  have hheld : (GoPhase.afterRelease outcome).holding = false := by cases outcome <;> rfl
  simp [hphase, hheld, GoPhase.failed_afterRelease, GoPhase.sent_afterRelease]
    at hholding hfailed hsent
  exact { inv with
    indices := inv.indices_set hg _
    executed := by simp [inv.executed]
    started_le := by simpa using inv.started_le
    sem_eq := by dsimp only; rw [inv.sem_eq] at hsem ⊢; omega
    sem_le := by have := inv.sem_le; dsimp only; omega
    failures := by dsimp only; rw [inv.failures]; omega
    sent_length := by dsimp only; rw [inv.sent_length]; omega
    sent_count := fun i => by
      simp only [ExecState.hasSent_def]
      exact inv.sent_count_set hg _ (by rw [hphase, GoPhase.sent_afterRelease]) i
    sent_err := inv.sent_err_set hg _ (by simp [hphase, GoPhase.outcome?_afterRelease])
    main_inv := inv.main_inv.frame rfl rfl rfl rfl (List.length_set ..) id id
      fun _ _ _ => rfl }

theorem Inv.recover (inv : Inv p s) {value : String} (hg : s.goroutines[j]? = some g)
    (hphase : g.phase = .recovering value) :
    Inv p { s with
      goroutines := s.goroutines.set j ⟨g.index, .done (.panicked value)⟩
      errs := s.errs ++ [⟨g.index, (Outcome.panicked value).message p.stepName⟩] } := by
  have hholding := countP_set_phase hg GoPhase.holding (.done (.panicked value))
  have hfailed := countP_set_phase hg GoPhase.failed (.done (.panicked value))
  have hsent := countP_set_phase hg GoPhase.sent (.done (.panicked value))
  simp [hphase] at hholding hfailed hsent
  exact { inv with
    indices := inv.indices_set hg _
    executed := by simp [inv.executed]
    started_le := by simpa using inv.started_le
    sem_eq := by dsimp only; rw [inv.sem_eq]; omega
    failures := by dsimp only; rw [inv.failures]; omega
    sent_length := by
      dsimp only
      rw [← List.append_assoc, List.length_append, inv.sent_length, List.length_singleton]
      omega
    sent_count := fun i => by
      simp only [ExecState.hasSent_def]
      exact inv.sent_count_send hg (by simp [hphase, GoPhase.sent]) _ rfl _ i
    sent_err := inv.sent_err_send hg _ (by simp [hphase, GoPhase.outcome?]) (.panicked value) rfl
    main_inv := inv.main_inv.frame rfl rfl rfl rfl (List.length_set ..) id id
      fun _ _ _ => rfl }

theorem Inv.receive (inv : Inv p s) {m : Message} {rest : List Message}
    (hmain : s.main = .collect k) (hk : k < s.executedSteps) (herrs : s.errs = m :: rest) :
    Inv p { s with
      main := .collect (k + 1)
      errs := rest
      received := s.received ++ [m]
      result := s.result ++ (keptError m.err).toList } := by
  obtain ⟨hreceived, -, hstarted⟩ := inv.main_collect hmain
  -- the message moves from the buffer to the received ones
  have hmsgs : s.received ++ [m] ++ rest = s.received ++ s.errs := by simp [herrs]
  exact { inv with
    sent_length := by dsimp only; rw [hmsgs]; exact inv.sent_length
    sent_count := fun i => by dsimp only; rw [hmsgs]; exact inv.sent_count i
    sent_err := fun m' hm' => inv.sent_err m' (hmsgs ▸ hm')
    result_eq := by dsimp only; rw [inv.result_eq, List.flatMap_append, List.flatMap_singleton]
    main_inv := ⟨by simp [hreceived], hk, hstarted⟩ }

theorem Inv.finish (inv : Inv p s) (hmain : s.main = .collect k) (hk : k = s.executedSteps) :
    Inv p { s with main := .returned s.returnValue.1 s.returnValue.2 } := by
  obtain ⟨hreceived, -, hstarted⟩ := inv.main_collect hmain
  exact { inv with main_inv := ⟨hreceived ▸ hk, rfl, hstarted⟩ }

theorem Inv.cancelParent (inv : Inv p s) (hmain : ∀ b e, s.main ≠ .returned b e) :
    Inv p { s with parentCancelled := true } :=
  { inv with
    main_inv := inv.main_inv.frame rfl rfl rfl rfl rfl id (fun _ => rfl)
      fun b e hm => (hmain b e hm).elim }

/-- Every step keeps the invariant. -/
theorem Inv.step (inv : Inv p s) {s' : ExecState} (step : Step p s s') : Inv p s' := by
  cases step with
  | acquire hmain hi hfree => exact inv.acquire hmain hi hfree
  | exitLoop hmain hi => exact inv.exitLoop hmain hi
  | breakLoop hmain hcancelled => exact inv.breakLoop hmain hcancelled
  | spawn hmain _ => exact inv.spawn hmain
  | callReturn hg hphase succeeded err => exact inv.callReturn hg hphase succeeded err
  | callPanic hg hphase value => exact inv.callPanic hg hphase value
  | send hg hphase _ => exact inv.send hg hphase
  | release hg hphase hsem => exact inv.release hg hphase hsem
  | recover hg hphase _ => exact inv.recover hg hphase
  | receive hmain hk herrs => exact inv.receive hmain hk herrs
  | finish hmain hk => exact inv.finish hmain hk
  | cancelParent hmain _ => exact inv.cancelParent hmain

/-- The invariant holds along every run, when the semaphore has a capacity. -/
theorem reachable_inv (hlimit : 0 ≤ p.limit) (reach : Reachable p s) : Inv p s := by
  induction reach with
  | refl => exact Inv.initial hlimit
  | tail _ step ih => exact ih.step step

end Preserve

/-! ## Progress and termination -/

/-- What is left of the main goroutine's work: the loop's rounds, then the receives (counted
apart, by `executedSteps - received.length`), then the return. -/
def MainPhase.measure (count : Nat) : MainPhase → Nat
  | .loop i => 6 * (count - i) + 2
  | .acquired i => 6 * (count - i) + 1
  | .collect _ => 1
  | .returned .. => 0

/-- The steps left to a goroutine. -/
def GoPhase.remaining : GoPhase → Nat
  | .running => 3
  | .sending .. => 2
  | .releasing (.returned ..) => 1
  | .releasing (.panicked _) => 2
  | .recovering _ => 1
  | .done _ => 0

/-- A bound on the steps left to `run`, its goroutines and the parent context. -/
def ExecState.measure (p : ParallelExecutor) (s : ExecState) : Nat :=
  s.main.measure p.count + (s.goroutines.map (·.phase.remaining)).sum +
    (s.executedSteps - s.received.length) + (!s.parentCancelled).toNat

section Progress

variable {j : Nat} {g : Goroutine}

/-- A goroutine holding a token keeps `sem` from being empty. -/
theorem Inv.sem_pos (inv : Inv p s) (hg : s.goroutines[j]? = some g)
    (hholding : g.phase.holding = true) : 0 < s.sem := by
  have hpos : 0 < s.goroutines.countP (·.phase.holding) :=
    List.countP_pos_iff.mpr ⟨g, List.mem_of_getElem? hg, hholding⟩
  rw [inv.sem_eq]
  omega

/-- A goroutine that has not sent finds room in `errs`: the buffer never fills. -/
theorem Inv.errs_lt (inv : Inv p s) (hg : s.goroutines[j]? = some g)
    (hnot : g.phase.sent = false) : s.errs.length < p.count := by
  have hlt : s.goroutines.countP (·.phase.sent) < s.goroutines.length := by
    have hle := List.countP_le_length (p := fun g : Goroutine => g.phase.sent)
      (l := s.goroutines)
    have hne : s.goroutines.countP (·.phase.sent) ≠ s.goroutines.length := fun h => by
      have := List.countP_eq_length.mp h g (List.mem_of_getElem? hg)
      rw [hnot] at this
      cases this
    omega
  have hlen := inv.sent_length
  have hstarted := inv.started_le
  rw [List.length_append] at hlen
  omega

/-- A goroutine that has not sent, or still holds its token, can take a step. -/
theorem Inv.goroutine_step (inv : Inv p s) (hg : s.goroutines[j]? = some g)
    (hbusy : g.phase.sent = false ∨ g.phase.holding = true) :
    ∃ s', Step p s s' ∧ s'.parentCancelled = s.parentCancelled := by
  cases hphase : g.phase with
  | running => exact ⟨_, .callReturn hg hphase true none, rfl⟩
  | sending succeeded err =>
    exact ⟨_, .send hg hphase (inv.errs_lt hg (by simp [hphase])), rfl⟩
  | releasing outcome =>
    exact ⟨_, .release hg hphase (inv.sem_pos hg (by simp [hphase])), rfl⟩
  | recovering value =>
    exact ⟨_, .recover hg hphase (inv.errs_lt hg (by simp [hphase])), rfl⟩
  | done outcome => simp [hphase] at hbusy

/-- Until `run` returns, something other than the parent context can move. -/
theorem Inv.progress (inv : Inv p s) (hlimit : 1 ≤ p.limit)
    (hmain : ∀ b e, s.main ≠ .returned b e) :
    ∃ s', Step p s s' ∧ s'.parentCancelled = s.parentCancelled := by
  cases hm : s.main with
  | loop i =>
    obtain ⟨-, hholds, -⟩ := inv.main_loop hm
    by_cases hi : i < p.count
    · by_cases hfree : (s.sem : Int) < p.limit
      · exact ⟨_, .acquire hm hi hfree, rfl⟩
      -- `sem` is full, and the main goroutine holds no token: a goroutine holds one
      have hpos : 0 < s.goroutines.countP (·.phase.holding) := by
        have hsem := inv.sem_eq
        rw [hholds, Bool.toNat_false, Nat.add_zero] at hsem
        omega
      obtain ⟨g, hmem, hholding⟩ := List.countP_pos_iff.mp hpos
      obtain ⟨j, hg⟩ := List.mem_iff_getElem?.mp hmem
      exact inv.goroutine_step hg (.inr hholding)
    · exact ⟨_, .exitLoop hm (Nat.le_of_not_lt hi), rfl⟩
  | acquired i =>
    cases hc : s.runCancelled || s.parentCancelled
    · exact ⟨_, .spawn hm hc, rfl⟩
    · exact ⟨_, .breakLoop hm hc, rfl⟩
  | collect k =>
    obtain ⟨hk, hle, -⟩ := inv.main_collect hm
    rcases Nat.lt_or_eq_of_le hle with hlt | heq
    · cases herrs : s.errs with
      | cons m rest => exact ⟨_, .receive hm hlt herrs, rfl⟩
      | nil =>
        -- the buffer is empty and a message is missing: a goroutine has yet to send
        have hnot : ¬ ∀ g ∈ s.goroutines, g.phase.sent = true := fun hall => by
          have hlen := inv.sent_length
          rw [herrs, List.append_nil, List.countP_eq_length.mpr hall, ← inv.executed] at hlen
          omega
        push Not at hnot
        obtain ⟨g, hmem, hsent⟩ := hnot
        obtain ⟨j, hg⟩ := List.mem_iff_getElem?.mp hmem
        exact inv.goroutine_step hg (.inl (by simpa using hsent))
    · exact ⟨_, .finish hm heq, rfl⟩
  | returned b e => exact absurd hm (hmain b e)

/-- A goroutine's step lowers the goroutines' share of the measure. -/
theorem sum_remaining_set_lt {gs : List Goroutine} (hg : gs[j]? = some g) (phase : GoPhase)
    (hlt : phase.remaining < g.phase.remaining) :
    ((gs.set j ⟨g.index, phase⟩).map (·.phase.remaining)).sum <
      (gs.map (·.phase.remaining)).sum := by
  have hsum := sum_map_set GoPhase.remaining hg phase
  omega

/-- Every step lowers the measure: no run of `run` is infinite. -/
theorem Inv.measure_lt (inv : Inv p s) {s' : ExecState} (step : Step p s s') :
    s'.measure p < s.measure p := by
  cases step with
  | acquire hmain _ _ => simp [ExecState.measure, MainPhase.measure, hmain]
  | exitLoop hmain hi =>
    simp only [ExecState.measure, MainPhase.measure, hmain]
    omega
  | breakLoop hmain _ =>
    -- the loop broke off before its end, at an index below the count
    have hi := (inv.main_acquired hmain).2.1
    simp only [ExecState.measure, MainPhase.measure, hmain]
    omega
  | spawn hmain _ =>
    obtain ⟨-, hi, -, hreceived⟩ := inv.main_acquired hmain
    simp only [ExecState.measure, MainPhase.measure, hmain, List.map_append, List.sum_append,
      hreceived]
    simp [GoPhase.remaining]
    omega
  | callReturn hg hphase succeeded err =>
    have := sum_remaining_set_lt hg (.sending succeeded err)
      (by simp [hphase, GoPhase.remaining])
    simp only [ExecState.measure]
    omega
  | callPanic hg hphase value =>
    have := sum_remaining_set_lt hg (.releasing (.panicked value))
      (by simp [hphase, GoPhase.remaining])
    simp only [ExecState.measure]
    omega
  | @send _ _ succeeded err hg hphase _ =>
    have := sum_remaining_set_lt hg (.releasing (.returned succeeded err))
      (by simp [hphase, GoPhase.remaining])
    simp only [ExecState.measure]
    omega
  | @release _ _ outcome hg hphase _ =>
    have := sum_remaining_set_lt hg (GoPhase.afterRelease outcome)
      (by cases outcome <;> simp [hphase, GoPhase.remaining, GoPhase.afterRelease])
    simp only [ExecState.measure]
    omega
  | @recover _ _ value hg hphase _ =>
    have := sum_remaining_set_lt hg (.done (.panicked value))
      (by simp [hphase, GoPhase.remaining])
    simp only [ExecState.measure]
    omega
  | receive hmain hk _ =>
    obtain ⟨hreceived, -, -⟩ := inv.main_collect hmain
    simp only [ExecState.measure, MainPhase.measure, hmain, List.length_append,
      List.length_singleton]
    omega
  | finish hmain _ => simp [ExecState.measure, MainPhase.measure, hmain]
  | cancelParent _ hparent => simp [ExecState.measure, hparent]

/-- From every state the invariant holds in, `run` can return. -/
theorem Inv.eventually_returns (hlimit : 1 ≤ p.limit) {s : ExecState} (inv : Inv p s) :
    ∃ s', Relation.ReflTransGen (Step p) s s' ∧ ∃ b e, s'.main = .returned b e := by
  by_cases hret : ∃ b e, s.main = .returned b e
  · exact ⟨s, .refl, hret⟩
  simp only [not_exists] at hret
  obtain ⟨s', step, -⟩ := inv.progress hlimit hret
  -- the step lowers the measure, on which the recursion is founded
  have := inv.measure_lt step
  obtain ⟨s'', run, hs''⟩ := (inv.step step).eventually_returns hlimit
  exact ⟨s'', .head step run, hs''⟩
termination_by s.measure p

end Progress

/-! ## What `run` returns -/

/-- A call counts as good for `run` exactly when it did not fail and its message is not kept. -/
theorem Outcome.good_iff (o : Outcome) (stepName : String) :
    o.good = true ↔ o.failed = false ∧ keptError (o.message stepName) = none := by
  cases o with
  | returned succeeded err =>
    cases succeeded <;> rcases err with _ | _ | msg <;>
      simp [Outcome.good, Outcome.message, keptError]
  | panicked value => simp [Outcome.good, Outcome.message, keptError]

theorem GoPhase.failed_of_outcome? {phase : GoPhase} {o : Outcome}
    (h : phase.outcome? = some o) : phase.failed = o.failed := by
  simp [GoPhase.failed, h]

/-- `run` returns `(true, nil)` when the parent context is not cancelled, no error was kept and
no call failed. -/
theorem ExecState.returnValue_eq_true_iff (s : ExecState) :
    s.returnValue = (true, none) ↔
      s.parentCancelled = false ∧ s.result = [] ∧ s.numFailures = 0 := by
  unfold ExecState.returnValue
  cases s.parentCancelled <;> cases s.result <;> simp

/-- The loop ran to its end when neither `runCtx` nor the parent context was cancelled. -/
theorem ExecState.Started.length_eq (h : s.Started p) (hrun : s.runCancelled = false)
    (hparent : s.parentCancelled = false) : s.goroutines.length = p.count := by
  rcases h with h | h | h
  · exact h
  · rw [hrun] at h
    cases h
  · rw [hparent] at h
    cases h

section Returned

variable (inv : Inv p s) (hk : s.received.length = s.executedSteps)
include inv hk

/-- Once every message is received, each goroutine's message is among them. -/
theorem Inv.exists_received {j : Nat} {g : Goroutine} (hg : s.goroutines[j]? = some g) :
    ∃ m ∈ s.received, m.sender = j := by
  obtain ⟨herrs, hall⟩ := inv.sent_of_received hk
  have hcount := inv.sent_count j
  rw [herrs, List.append_nil, hasSent_of_getElem? hg, hall g (List.mem_of_getElem? hg)]
    at hcount
  have hpos : 0 < (s.received.map (·.sender)).count j := by
    rw [hcount, Bool.toNat_true]
    exact Nat.one_pos
  have hmem : j ∈ s.received.map (·.sender) := List.count_pos_iff.mp hpos
  simpa using hmem

/-- Once every message is received, they came one from each goroutine. -/
theorem Inv.received_perm : (s.received.map (·.sender)).Perm (List.range s.executedSteps) := by
  obtain ⟨herrs, hall⟩ := inv.sent_of_received hk
  refine List.perm_iff_count.mpr fun i => ?_
  have hcount := inv.sent_count i
  rw [herrs, List.append_nil] at hcount
  rw [hcount, List.count_range, inv.executed]
  -- a goroutine was started for `i` exactly when `i` is below their number, and all have sent
  cases hg : s.goroutines[i]? with
  | none =>
    have hle := List.getElem?_eq_none_iff.mp hg
    simp [ExecState.hasSent_def, Nat.not_lt.mpr hle]
  | some g =>
    have hlt := (List.getElem?_eq_some_iff.mp hg).1
    simp [hasSent_of_getElem? hg, hall g (List.mem_of_getElem? hg), hlt]

/-- No error was kept exactly when each call's message is one `run` does not keep. -/
theorem Inv.result_eq_nil_iff :
    s.result = [] ↔ ∀ g ∈ s.goroutines, ∃ o, g.phase.outcome? = some o ∧
      keptError (o.message p.stepName) = none := by
  rw [inv.result_eq, List.flatMap_eq_nil_iff]
  constructor
  · intro hkept g hmem
    obtain ⟨j, hg⟩ := List.mem_iff_getElem?.mp hmem
    obtain ⟨m, hm, hsender⟩ := inv.exists_received hk hg
    obtain ⟨g', o, hg', ho, herr⟩ := inv.sent_err m (List.mem_append_left _ hm)
    rw [hsender, hg] at hg'
    cases hg'
    refine ⟨o, ho, ?_⟩
    rw [← herr, ← Option.toList_eq_nil_iff]
    exact hkept m hm
  · intro hgood m hm
    obtain ⟨g, o, hg, ho, herr⟩ := inv.sent_err m (List.mem_append_left _ hm)
    obtain ⟨o', ho', hkept⟩ := hgood g (List.mem_of_getElem? hg)
    rw [ho] at ho'
    cases ho'
    rw [herr, hkept]
    rfl

/-- What `run` returns: `(true, nil)` exactly when the parent context is not cancelled, every
index was started, and every call returned `succeeded` with no error or `context.Canceled`. -/
theorem Inv.returnValue_eq_true_iff (hstarted : s.Started p) :
    s.returnValue = (true, none) ↔ s.parentCancelled = false ∧ s.executedSteps = p.count ∧
      ∀ g ∈ s.goroutines, ∃ o, g.phase.outcome? = some o ∧ o.good = true := by
  have hfailures : s.numFailures = 0 ↔ ∀ g ∈ s.goroutines, g.phase.failed = false := by
    rw [inv.failures, List.countP_eq_zero]
    simp
  rw [s.returnValue_eq_true_iff, inv.result_eq_nil_iff hk, hfailures]
  constructor
  · rintro ⟨hparent, hkept, hfailed⟩
    refine ⟨hparent, ?_, fun g hmem => ?_⟩
    · -- no call failed, so `runCtx` was never cancelled and the loop ran to its end
      have hrun : s.runCancelled = false := by
        rw [inv.run_cancelled, hfailures.mpr hfailed]
        simp
      rw [inv.executed, hstarted.length_eq hrun hparent]
    · obtain ⟨o, ho, hkept⟩ := hkept g hmem
      have hfailed := hfailed g hmem
      rw [GoPhase.failed_of_outcome? ho] at hfailed
      exact ⟨o, ho, (o.good_iff p.stepName).mpr ⟨hfailed, hkept⟩⟩
  · rintro ⟨hparent, -, hgood⟩
    refine ⟨hparent, fun g hmem => ?_, fun g hmem => ?_⟩
    · obtain ⟨o, ho, hgo⟩ := hgood g hmem
      exact ⟨o, ho, ((o.good_iff p.stepName).mp hgo).2⟩
    · obtain ⟨o, ho, hgo⟩ := hgood g hmem
      rw [GoPhase.failed_of_outcome? ho]
      exact ((o.good_iff p.stepName).mp hgo).1

end Returned

/-- At most `L` calls run at once: a running call holds a token of `sem`. -/
theorem Inv.active_le (inv : Inv p s) : (s.active : Int) ≤ p.limit := by
  have hle : s.active ≤ s.goroutines.countP (·.phase.holding) :=
    List.countP_mono_left fun g _ hrunning => by
      rw [decide_eq_true_iff] at hrunning
      rw [hrunning]
      rfl
  have hsem := inv.sem_eq
  have hsem_le := inv.sem_le
  omega

/-- Without `failFast`, a run the parent context leaves alone starts every index. -/
theorem Inv.executed_of_not_failFast (inv : Inv p s) (hstarted : s.Started p)
    (hfailFast : p.failFast = false) (hparent : s.parentCancelled = false) :
    s.executedSteps = p.count := by
  have hrun : s.runCancelled = false := by
    rw [inv.run_cancelled, hfailFast]
    rfl
  rw [inv.executed, hstarted.length_eq hrun hparent]

theorem parallelExecutor_run (p : ParallelExecutor) (hlimit : 1 ≤ p.limit) (s : ExecState)
    (reach : Reachable p s) :
    (s.active : Int) ≤ p.limit ∧
      s.goroutines.map (·.index) = List.range s.goroutines.length ∧
      s.goroutines.length ≤ p.count ∧
      (∀ s', Step p s s' → s'.measure p < s.measure p) ∧
      (∃ s', Relation.ReflTransGen (Step p) s s' ∧ ∃ b e, s'.main = .returned b e) ∧
      ∀ b e, s.main = .returned b e →
        s.executedSteps = s.goroutines.length ∧
        (s.received.map (·.sender)).Perm (List.range s.executedSteps) ∧
        (∀ m ∈ s.received, ∃ g o, s.goroutines[m.sender]? = some g ∧
          g.phase.outcome? = some o ∧ m.err = o.message p.stepName) ∧
        ((b = true ∧ e = none) ↔ s.parentCancelled = false ∧ s.executedSteps = p.count ∧
          ∀ g ∈ s.goroutines, ∃ o, g.phase.outcome? = some o ∧ o.good = true) ∧
        (p.failFast = false → s.parentCancelled = false → s.executedSteps = p.count) := by
  have inv := reachable_inv (by omega) reach
  refine ⟨inv.active_le, inv.indices, inv.started_le, fun s' step => inv.measure_lt step,
    inv.eventually_returns hlimit, fun b e hmain => ?_⟩
  obtain ⟨hk, hvalue, hstarted⟩ := inv.main_returned hmain
  refine ⟨inv.executed, inv.received_perm hk,
    fun m hm => inv.sent_err m (List.mem_append_left _ hm), ?_,
    inv.executed_of_not_failFast hstarted⟩
  rw [← inv.returnValue_eq_true_iff hk hstarted, ← hvalue, Prod.mk.injEq]

/-- An `in_parallel` of three steps, two at a time, that fails fast. -/
def threeSteps : ParallelExecutor where
  stepName := "in_parallel"
  maxInFlight := some ⟨false, 2⟩
  failFast := true
  count := 3

/-- Both tokens taken: the calls of indices 0 and 1 run. -/
def twoRunning : ExecState :=
  { ExecState.initial with
    main := .loop 2, executedSteps := 2, sem := 2, goroutines := [⟨0, .running⟩, ⟨1, .running⟩] }

theorem reachable_twoRunning : Reachable threeSteps twoRunning := by
  have h₁ := Relation.ReflTransGen.single
    (Step.acquire (p := threeSteps) (s := ExecState.initial) rfl (by decide) (by decide))
  have h₂ := h₁.tail (Step.spawn rfl rfl)
  have h₃ := h₂.tail (Step.acquire rfl (by decide) (by decide))
  exact h₃.tail (Step.spawn rfl rfl)

/-- From `twoRunning`: the call of index 0 fails, which cancels `runCtx`; the loop takes the
last token and breaks, index 2 is never started, and `run` returns the failure. -/
def failFastRun : ExecState where
  main := .returned false (some (.multi [.failure "exit status 1"]))
  executedSteps := 2
  sem := 1
  goroutines := [⟨0, .done (.returned false (some (.failure "exit status 1")))⟩,
    ⟨1, .done (.returned true none)⟩]
  errs := []
  result := [.failure "exit status 1"]
  numFailures := 1
  runCancelled := true
  parentCancelled := false
  received := [⟨0, some (.failure "exit status 1")⟩, ⟨1, none⟩]
  mainHolds := true

theorem reachable_failFastRun : Reachable threeSteps failFastRun := by
  have h₅ := reachable_twoRunning.tail
    (Step.callReturn (j := 0) rfl rfl false (some (.failure "exit status 1")))
  have h₆ := h₅.tail (Step.send (j := 0) rfl rfl (by decide))
  have h₇ := h₆.tail (Step.release (j := 0) rfl rfl (by decide))
  have h₈ := h₇.tail (Step.acquire rfl (by decide) (by decide))
  have h₉ := h₈.tail (Step.breakLoop rfl rfl)
  have h₁₀ := h₉.tail (Step.callReturn (j := 1) rfl rfl true none)
  have h₁₁ := h₁₀.tail (Step.send (j := 1) rfl rfl (by decide))
  have h₁₂ := h₁₁.tail (Step.release (j := 1) rfl rfl (by decide))
  have h₁₃ := h₁₂.tail (Step.receive rfl (by decide) rfl)
  have h₁₄ := h₁₃.tail (Step.receive rfl (by decide) rfl)
  exact h₁₄.tail (Step.finish rfl rfl)

theorem parallelExecutor_run_failFast :
    twoRunning.active = 2 ∧ (twoRunning.active : Int) ≤ threeSteps.limit ∧
      failFastRun.main = .returned false (some (.multi [.failure "exit status 1"])) ∧
      failFastRun.executedSteps = failFastRun.goroutines.length ∧
      (failFastRun.received.map (·.sender)).Perm (List.range failFastRun.executedSteps) ∧
      failFastRun.executedSteps < threeSteps.count := by
  have hrunning := parallelExecutor_run threeSteps (by decide) twoRunning reachable_twoRunning
  have hreturned := (parallelExecutor_run threeSteps (by decide) failFastRun
    reachable_failFastRun).2.2.2.2.2 false _ rfl
  exact ⟨by decide, hrunning.1, rfl, hreturned.1, hreturned.2.1, by decide⟩

end Exec
end Concourse
