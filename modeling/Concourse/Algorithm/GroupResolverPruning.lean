import Concourse.Algorithm.GroupResolver

/-!
# The doomed candidates

After a nested `tryResolve` fails, `tryBuildOutputs` remembers the candidates it failed from
(`doomCandidates`), and it skips the nested search when the candidates it has just vouched for
have, input by input, the versions of the doomed ones (`candidatesAreDoomed`).  A nested search
reads more of the candidates than their versions: it passes over the jobs that have vouched for
a candidate, and it constrains the builds of a job by the versions of the inputs that have a
candidate only once the input it resolves has one.  Candidates with the versions of doomed ones
and other vouchers can still resolve, and the check is not a pure optimisation.

`tryResolveWith` is the search with the check as a parameter `doomed`.  At
`ResolverState.candidatesAreDoomed` it is the search of the source (`resolveWith_candidatesAreDoomed`);
at `fun _ => false` it is the search with the check removed, `resolveUnpruned`.  Whatever
the fuel, an answer stays the same with more fuel (`resolveWith_fuel_mono`), so that an
answer of the model is the answer of the Go code.
-/

namespace Concourse
namespace Algorithm

open Db

namespace GroupResolver

variable (r : GroupResolver) (doomed : ResolverState → Bool)

/-- `tryBuildOutputs`, with `doomed` in place of `candidatesAreDoomed`. -/
def tryBuildOutputsWith (tryResolve : Attempt) (st : ResolverState)
    (resolvingIdx jobID buildID : Nat) (hasNext : Bool) : Option (Bool × ResolverState) :=
  let scan := r.tryOutputs jobID buildID hasNext (r.vdb.successfulBuildOutputs buildID)
    { candidates := st.candidates, restore := [], mismatch := false, stopped := false }
  let st := { st with candidates := scan.candidates }
  let giveUp (st : ResolverState) : ResolverState :=
    { st with candidates := restoreCandidates scan.restore st.candidates }
  if (st.candidates.getD resolvingIdx none).any (fun c => jobID ∈ c.vouchedForBy) &&
      !scan.mismatch then
    if doomed st then
      some (false, giveUp st)
    else
      match tryResolve st with
      | none => none
      | some (true, _, st) => some (true, st)
      | some (false, _, st) => some (false, giveUp st.doomCandidates)
  else
    some (false, giveUp st)

/-- `tryJobBuilds` over `tryBuildOutputsWith`. -/
def tryJobBuildsWith (tryResolve : Attempt) (inputIndex passedJobID : Nat) :
    PaginatedBuilds → ResolverState → Option (Bool × ResolverState)
  | [], st => some (false, st)
  | (buildID, hasNext) :: builds, st =>
    match r.tryBuildOutputsWith doomed tryResolve st inputIndex passedJobID buildID hasNext with
    | none => none
    | some (true, st) => some (true, st)
    | some (false, st) => tryJobBuildsWith tryResolve inputIndex passedJobID builds st

/-- `tryOrderedJobs` over `tryJobBuildsWith`. -/
def tryOrderedJobsWith (tryResolve : Attempt) (inputIndex : Nat) (inputConfig : InputConfig)
    (currentCandidate : Option VersionCandidate) : List Nat → Attempt
  | [], st => some (true, "", st)
  | passedJobID :: jobs, st =>
    if currentCandidate.any (fun c => passedJobID ∈ c.vouchedForBy) then
      tryOrderedJobsWith tryResolve inputIndex inputConfig currentCandidate jobs st
    else
      let pb := r.paginatedBuilds st inputConfig currentCandidate inputConfig.jobID passedJobID
      if pb.2.1 then
        tryOrderedJobsWith tryResolve inputIndex inputConfig currentCandidate jobs pb.2.2
      else
        match r.tryJobBuildsWith doomed tryResolve inputIndex passedJobID pb.1 pb.2.2 with
        | none => none
        | some (true, st) => some (true, "", st)
        | some (false, st) => some (false, noSatisfiableBuilds, st)

/-- `trySatisfyPassedConstraintsForInput` over `tryOrderedJobsWith`. -/
def trySatisfyPassedConstraintsForInputWith (tryResolve : Attempt) (inputIndex : Nat) :
    Attempt :=
  fun st =>
    let inputConfig := r.inputConfig inputIndex
    r.tryOrderedJobsWith doomed tryResolve inputIndex inputConfig
      (st.candidates.getD inputIndex none) (orderJobs inputConfig.passed) st

/-- The loop of `tryResolve` over the inputs, over `trySatisfyPassedConstraintsForInputWith`. -/
def tryInputsWith (tryResolve : Attempt) : List Nat → Attempt
  | [], st => some (true, "", st)
  | inputIndex :: inputs, st =>
    match r.trySatisfyPassedConstraintsForInputWith doomed tryResolve inputIndex st with
    | none => none
    | some (true, _, st) => tryInputsWith tryResolve inputs st
    | some (false, failure, st) => some (false, failure, st)

/-- `tryResolve` with `doomed` for the check. -/
def tryResolveWith : Nat → GroupResolver → Attempt
  | 0, _, _ => none
  | fuel + 1, r, st =>
    r.tryInputsWith doomed (tryResolveWith fuel r) (List.range r.inputConfigs.length) st

end GroupResolver

/-- `Resolve` with `doomed` for the check. -/
def resolveWith (doomed : ResolverState → Bool) (fuel : Nat) (vdb : VersionsDB)
    (inputConfigs : List InputConfig) : Option Resolution :=
  match findPins vdb inputConfigs with
  | .error failure => some (none, failure)
  | .ok pins =>
    let r : GroupResolver := { vdb, inputConfigs, pins }
    match GroupResolver.tryResolveWith doomed fuel r (ResolverState.init inputConfigs.length) with
    | none => none
    | some (false, failure, _) => some (none, failure)
    | some (true, _, st) =>
      some (some (inputConfigs.mapIdx fun i input => (input.name, st.candidates.getD i none)), "")

namespace GroupResolver

/-! ## At `candidatesAreDoomed`, the search of the source -/

section Source

variable (r : GroupResolver) (attempt : Attempt)

theorem tryBuildOutputsWith_candidatesAreDoomed :
    r.tryBuildOutputsWith ResolverState.candidatesAreDoomed = r.tryBuildOutputs := rfl

theorem tryJobBuildsWith_candidatesAreDoomed (inputIndex passedJobID : Nat) :
    ∀ (builds : PaginatedBuilds) (st : ResolverState),
      r.tryJobBuildsWith ResolverState.candidatesAreDoomed attempt inputIndex passedJobID
        builds st = r.tryJobBuilds attempt inputIndex passedJobID builds st
  | [], _ => rfl
  | (buildID, hasNext) :: builds, st => by
    -- one case per answer of the build's outputs, so that the matches of both sides reduce
    rcases hout : r.tryBuildOutputs attempt st inputIndex passedJobID buildID hasNext with
      _ | ⟨_ | _, st'⟩ <;>
    simp only [tryJobBuildsWith, tryJobBuilds, tryBuildOutputsWith_candidatesAreDoomed, hout,
      tryJobBuildsWith_candidatesAreDoomed inputIndex passedJobID builds]

theorem tryOrderedJobsWith_candidatesAreDoomed (inputIndex : Nat) (inputConfig : InputConfig)
    (currentCandidate : Option VersionCandidate) :
    ∀ (jobs : List Nat) (st : ResolverState),
      r.tryOrderedJobsWith ResolverState.candidatesAreDoomed attempt inputIndex inputConfig
        currentCandidate jobs st =
      r.tryOrderedJobs attempt inputIndex inputConfig currentCandidate jobs st
  | [], _ => rfl
  | passedJobID :: jobs, st => by
    -- one case per answer of the job's builds, so that the matches of both sides reduce
    rcases hbuilds : r.tryJobBuilds attempt inputIndex passedJobID
        (r.paginatedBuilds st inputConfig currentCandidate inputConfig.jobID passedJobID).1
        (r.paginatedBuilds st inputConfig currentCandidate inputConfig.jobID passedJobID).2.2 with
      _ | ⟨_ | _, st'⟩ <;>
    simp only [tryOrderedJobsWith, tryOrderedJobs, tryJobBuildsWith_candidatesAreDoomed, hbuilds,
      tryOrderedJobsWith_candidatesAreDoomed inputIndex inputConfig currentCandidate jobs]

theorem tryInputsWith_candidatesAreDoomed :
    ∀ (inputs : List Nat) (st : ResolverState),
      r.tryInputsWith ResolverState.candidatesAreDoomed attempt inputs st =
        r.tryInputs attempt inputs st
  | [], _ => rfl
  | inputIndex :: inputs, st => by
    -- one case per answer of the input, so that the matches of both sides reduce
    rcases hinput : r.tryOrderedJobs attempt inputIndex (r.inputConfig inputIndex)
        (st.candidates.getD inputIndex none) (orderJobs (r.inputConfig inputIndex).passed) st with
      _ | ⟨_ | _, failure, st'⟩ <;>
    simp only [tryInputsWith, tryInputs, trySatisfyPassedConstraintsForInputWith,
      trySatisfyPassedConstraintsForInput, tryOrderedJobsWith_candidatesAreDoomed, hinput,
      tryInputsWith_candidatesAreDoomed inputs]

theorem tryResolveWith_candidatesAreDoomed :
    ∀ (fuel : Nat), tryResolveWith ResolverState.candidatesAreDoomed fuel r = tryResolve fuel r
  | 0 => rfl
  | fuel + 1 => by
    funext st
    simp only [tryResolveWith, tryResolve, tryResolveWith_candidatesAreDoomed fuel,
      tryInputsWith_candidatesAreDoomed]

end Source

/-! ## More fuel, the same answer -/

/-- `g` gives every answer `f` gives: it has had at least the fuel of `f`. -/
def Extends (f g : Attempt) : Prop :=
  ∀ st x, f st = some x → g st = some x

section Fuel

variable {r : GroupResolver} {doomed : ResolverState → Bool} {f g : Attempt}

theorem tryBuildOutputsWith_extends (hfg : Extends f g) {st : ResolverState}
    {resolvingIdx jobID buildID : Nat} {hasNext : Bool} {x : Bool × ResolverState}
    (h : r.tryBuildOutputsWith doomed f st resolvingIdx jobID buildID hasNext = some x) :
    r.tryBuildOutputsWith doomed g st resolvingIdx jobID buildID hasNext = some x := by
  unfold tryBuildOutputsWith at h ⊢
  dsimp only at h ⊢
  split_ifs at h ⊢
  · exact h
  · -- only the nested search reads `f`: its answer is one of `g`
    split at h
    · cases h
    · next hf => rw [hfg _ _ hf]; exact h
    · next hf => rw [hfg _ _ hf]; exact h
  · exact h

theorem tryJobBuildsWith_extends (hfg : Extends f g) {inputIndex passedJobID : Nat} :
    ∀ (builds : PaginatedBuilds) (st : ResolverState) (x : Bool × ResolverState),
      r.tryJobBuildsWith doomed f inputIndex passedJobID builds st = some x →
      r.tryJobBuildsWith doomed g inputIndex passedJobID builds st = some x
  | [], _, _, h => h
  | (buildID, hasNext) :: builds, st, x, h => by
    simp only [tryJobBuildsWith] at h ⊢
    cases hb : r.tryBuildOutputsWith doomed f st inputIndex passedJobID buildID hasNext with
    | none => simp [hb] at h
    | some y =>
      rw [tryBuildOutputsWith_extends hfg hb]
      rw [hb] at h
      obtain ⟨_ | _, st'⟩ := y
      · exact tryJobBuildsWith_extends hfg builds st' x h
      · exact h

theorem tryOrderedJobsWith_extends (hfg : Extends f g) {inputIndex : Nat}
    {inputConfig : InputConfig} {currentCandidate : Option VersionCandidate} :
    ∀ (jobs : List Nat), Extends
      (r.tryOrderedJobsWith doomed f inputIndex inputConfig currentCandidate jobs)
      (r.tryOrderedJobsWith doomed g inputIndex inputConfig currentCandidate jobs)
  | [], _, _, h => h
  | passedJobID :: jobs, st, x, h => by
    simp only [tryOrderedJobsWith] at h ⊢
    split_ifs at h ⊢
    · exact tryOrderedJobsWith_extends hfg jobs _ x h
    · exact tryOrderedJobsWith_extends hfg jobs _ x h
    · -- the builds of the job are tried with `f` for the nested search
      split at h
      · cases h
      · next hb => rw [tryJobBuildsWith_extends hfg _ _ _ hb]; exact h
      · next hb => rw [tryJobBuildsWith_extends hfg _ _ _ hb]; exact h

theorem trySatisfyPassedConstraintsForInputWith_extends (hfg : Extends f g) (inputIndex : Nat) :
    Extends (r.trySatisfyPassedConstraintsForInputWith doomed f inputIndex)
      (r.trySatisfyPassedConstraintsForInputWith doomed g inputIndex) :=
  fun st => tryOrderedJobsWith_extends hfg _ st

theorem tryInputsWith_extends (hfg : Extends f g) :
    ∀ (inputs : List Nat), Extends (r.tryInputsWith doomed f inputs) (r.tryInputsWith doomed g inputs)
  | [], _, _, h => h
  | inputIndex :: inputs, st, x, h => by
    simp only [tryInputsWith] at h ⊢
    split at h
    · cases h
    · next hi =>
      rw [trySatisfyPassedConstraintsForInputWith_extends hfg _ _ _ hi]
      exact tryInputsWith_extends hfg inputs _ x h
    · next hi => rw [trySatisfyPassedConstraintsForInputWith_extends hfg _ _ _ hi]; exact h

/-- One more unit of fuel gives every answer the search gave. -/
theorem tryResolveWith_extends_succ :
    ∀ (fuel : Nat), Extends (tryResolveWith doomed fuel r) (tryResolveWith doomed (fuel + 1) r)
  | 0, _, _, h => by simp [tryResolveWith] at h
  | fuel + 1, st, x, h => by
    simp only [tryResolveWith] at h ⊢
    exact tryInputsWith_extends (tryResolveWith_extends_succ fuel) _ st x h

theorem tryResolveWith_fuel_mono {fuel fuel' : Nat} (hle : fuel ≤ fuel') :
    Extends (tryResolveWith doomed fuel r) (tryResolveWith doomed fuel' r) := by
  induction hle with
  | refl => exact fun _ _ h => h
  | step _ ih => exact fun st x h => tryResolveWith_extends_succ _ st x (ih st x h)

end Fuel

end GroupResolver

/-- An answer of the search stays its answer with more fuel. -/
theorem resolveWith_fuel_mono {doomed : ResolverState → Bool} {fuel fuel' : Nat}
    {vdb : VersionsDB} {inputConfigs : List InputConfig} {x : Resolution}
    (h : resolveWith doomed fuel vdb inputConfigs = some x) (hle : fuel ≤ fuel') :
    resolveWith doomed fuel' vdb inputConfigs = some x := by
  unfold resolveWith at h ⊢
  cases hpins : findPins vdb inputConfigs with
  | error failure => rw [hpins] at h; exact h
  | ok pins =>
    rw [hpins] at h
    dsimp only at h ⊢
    split at h
    · cases h
    · next hr => rw [GroupResolver.tryResolveWith_fuel_mono hle _ _ hr]; exact h
    · next hr => rw [GroupResolver.tryResolveWith_fuel_mono hle _ _ hr]; exact h

/-- `resolveWith` at the check of the source is `Resolve`. -/
theorem resolveWith_candidatesAreDoomed :
    resolveWith ResolverState.candidatesAreDoomed = resolve := by
  funext fuel vdb inputConfigs
  -- one case per answer of the pins and of the search, so that the matches of both sides reduce
  rcases hpins : findPins vdb inputConfigs with failure | pins
  · simp only [resolveWith, resolve, hpins]
  · rcases hsearch : GroupResolver.tryResolve fuel { vdb, inputConfigs, pins }
        (ResolverState.init inputConfigs.length) with _ | ⟨_ | _, failure, st⟩ <;>
    simp only [resolveWith, resolve, hpins, GroupResolver.tryResolveWith_candidatesAreDoomed, hsearch]

/-- The search with the check removed: every build that vouches for the resolving input goes
into the nested `tryResolve`. -/
def resolveUnpruned (fuel : Nat) (vdb : VersionsDB) (inputConfigs : List InputConfig) :
    Option Resolution :=
  resolveWith (fun _ => false) fuel vdb inputConfigs

/-! ## Candidates doomed by their versions alone -/

/-- Jobs `10` and `20` pass inputs of resources `1` and `2`.  The newer build of `10` has `v`
of resource `1`, the older `w` of resource `2`; the newer build of `20` has both, the older
only `v`. -/
def doomedDB : VersionsDB where
  succeededBuilds jobID :=
    if jobID = 10 then [⟨102, none⟩, ⟨101, none⟩]
    else if jobID = 20 then [⟨202, none⟩, ⟨201, none⟩] else []
  successfulBuildOutputs b :=
    if b = 102 then [⟨1, "v"⟩] else if b = 101 then [⟨2, "w"⟩]
    else if b = 202 then [⟨1, "v"⟩, ⟨2, "w"⟩] else if b = 201 then [⟨1, "v"⟩] else []
  versionExists _ _ := true
  versionIsDisabled _ _ := false
  findVersionOfResource _ _ := none
  latestBuildUsingLatestVersion _ _ := none
  latestBuildPipes _ := []

/-- Inputs `a` of resource `1` and `b` of resource `2`, both passed through jobs `10` and `20`. -/
def doomedInputs : List InputConfig :=
  [{ name := "a", trigger := false, passed := [10, 20], useEveryVersion := false,
     pinnedVersion := none, resourceID := 1, jobID := 30 },
   { name := "b", trigger := false, passed := [10, 20], useEveryVersion := false,
     pinnedVersion := none, resourceID := 2, jobID := 30 }]

/-- Build `102` gives `a` the version `v`, and under it build `202` gives `b` the version `w`;
the nested search fails, since `b` lacks the voucher of job `10` and no build of `10` has both
versions.  Build `201` gives `a` its voucher of `20` alone, and under it `b`, without a
candidate, takes `w` from build `101` of `10`, with no constraint.  Those candidates have the
versions of the doomed ones and are skipped, and `Resolve` fails; searched, they resolve: build
`202` vouches for `b` as job `20`. -/
theorem resolve_doomedVersions_resolvable (fuel : Nat) (hfuel : 5 ≤ fuel) :
    resolve fuel doomedDB doomedInputs = some (none, noSatisfiableBuilds) ∧
      resolveUnpruned fuel doomedDB doomedInputs =
        some (some [("a", some ⟨"v", [20, 10], [102, 201, 202], false⟩),
          ("b", some ⟨"w", [20, 10], [101, 202], false⟩)], "") := by
  have hpruned : resolveWith ResolverState.candidatesAreDoomed 5 doomedDB doomedInputs =
      some (none, noSatisfiableBuilds) := by
    rw [resolveWith_candidatesAreDoomed]
    decide
  have hunpruned : resolveUnpruned 5 doomedDB doomedInputs =
      some (some [("a", some ⟨"v", [20, 10], [102, 201, 202], false⟩),
        ("b", some ⟨"w", [20, 10], [101, 202], false⟩)], "") := by
    decide
  refine ⟨?_, resolveWith_fuel_mono hunpruned hfuel⟩
  rw [← resolveWith_candidatesAreDoomed]
  exact resolveWith_fuel_mono hpruned hfuel

theorem resolve_doomedVersions_resolvable_five :
    5 ≤ 5 ∧ resolve 5 doomedDB doomedInputs = some (none, noSatisfiableBuilds) ∧
      resolveUnpruned 5 doomedDB doomedInputs =
        some (some [("a", some ⟨"v", [20, 10], [102, 201, 202], false⟩),
          ("b", some ⟨"w", [20, 10], [101, 202], false⟩)], "") :=
  ⟨le_rfl, resolve_doomedVersions_resolvable 5 le_rfl⟩

end Algorithm
end Concourse
