import Concourse.Algorithm.GroupResolverSound

/-!
# A failed build leaves the candidates as it found them

`tryBuildOutputs` vouches with the outputs of one build, goes into a nested `tryResolve`
when the resolving input now has the job's voucher, and on failure writes back `restore`,
the values it overwrote.  That map holds only the slots this call wrote, while the nested
search may have written others.  The candidates still come back exactly as they were, by
two facts proved together by induction on the fuel.

* A nested search that answers `false` has left the candidates as it found them
  (`Restores`).  Each method answers `false` only after checks that wrote nothing, or
  after calls that answered `false` and so restored what they wrote.
* A nested search that answers `true` leaves every input done (`establishes_tryResolve`).
  From such a state every input passes again without writing, so a loop over the inputs
  that went through a nested success does not answer `false` afterwards.
-/

namespace Concourse
namespace Algorithm

open Db UndoLog

namespace GroupResolver

variable {r : GroupResolver}

/-! ## Writing back the log of one build -/

section Scan

variable {jobID buildID : Nat} {hasNext : Bool} {C : List (Option VersionCandidate)}

theorem tryOutputOnCandidates_records {output : AlgorithmVersion} :
    ∀ (cs : List Nat) (scan : OutputsScan), (∀ c ∈ cs, c < C.length) →
      Records C scan.restore scan.candidates →
      Records C (r.tryOutputOnCandidates jobID buildID hasNext output cs scan).restore
        (r.tryOutputOnCandidates jobID buildID hasNext output cs scan).candidates := by
  intro cs
  induction cs with
  | nil => exact fun _ _ h => h
  | cons c cs ih =>
    intro scan hcs h
    have hcs' : ∀ c' ∈ cs, c' < C.length := fun c' hc' => hcs c' (List.mem_cons_of_mem _ hc')
    unfold tryOutputOnCandidates
    rcases hrm : r.outputIsRelatedAndMatches scan.candidates output c jobID with
      ⟨related, mismatch⟩
    dsimp only
    split_ifs with hlogged hmismatch hunrelated hmissing
    · exact ih scan hcs' h
    · exact h
    · exact ih _ hcs' h
    · exact h
    · -- candidate `c` is vouched for: the log gets the value it had
      have hlt : c < scan.candidates.length := by
        rw [h.length]
        exact hcs c List.mem_cons_self
      have hold : scan.candidates[c]? = some (scan.candidates.getD c none) := by
        rw [List.getD_eq_getElem?_getD, List.getElem?_eq_getElem hlt]
        rfl
      exact ih _ hcs' (h.set hlogged hold _)

theorem tryOutputs_records :
    ∀ (outputs : List AlgorithmVersion) (scan : OutputsScan),
      Records C scan.restore scan.candidates →
      Records C (r.tryOutputs jobID buildID hasNext outputs scan).restore
        (r.tryOutputs jobID buildID hasNext outputs scan).candidates := by
  intro outputs
  induction outputs with
  | nil => exact fun _ h => h
  | cons o os ih =>
    intro scan h
    have h1 : Records C
        (r.tryOutputOnCandidates jobID buildID hasNext o (List.range scan.candidates.length)
          scan).restore
        (r.tryOutputOnCandidates jobID buildID hasNext o (List.range scan.candidates.length)
          scan).candidates :=
      tryOutputOnCandidates_records _ scan (fun c hc => h.length ▸ List.mem_range.mp hc) h
    unfold tryOutputs
    dsimp only
    split_ifs
    · exact h1
    · exact ih _ h1

/-- Writing back the log of a build's outputs gives back the candidates the scan started
from. -/
theorem restoreCandidates_tryOutputs (outputs : List AlgorithmVersion) :
    restoreCandidates (r.tryOutputs jobID buildID hasNext outputs ⟨C, [], false, false⟩).restore
        (r.tryOutputs jobID buildID hasNext outputs ⟨C, [], false, false⟩).candidates = C :=
  (tryOutputs_records outputs _ (records_nil C)).undo_eq

end Scan

/-! ## Inputs that are done pass without writing -/

section Done

variable {tryResolve : Attempt}

theorem tryOrderedJobs_of_vouched {i : Nat} {cfg : InputConfig} {c : VersionCandidate} :
    ∀ (jobs : List Nat) (st : ResolverState), (∀ j ∈ jobs, j ∈ c.vouchedForBy) →
      r.tryOrderedJobs tryResolve i cfg (some c) jobs st = some (true, "", st)
  | [], _, _ => rfl
  | j :: jobs, st, hjobs => by
    have hj : (some c).any (fun c => j ∈ c.vouchedForBy) = true := by
      simpa using hjobs j List.mem_cons_self
    unfold tryOrderedJobs
    rw [if_pos hj]
    exact tryOrderedJobs_of_vouched jobs st fun j' hj' => hjobs j' (List.mem_cons_of_mem _ hj')

/-- A done input passes: every one of its jobs vouches for its candidate. -/
theorem trySatisfyPassedConstraintsForInput_of_done {i : Nat} {st : ResolverState}
    (hdone : r.InputDone st.candidates i) :
    r.trySatisfyPassedConstraintsForInput tryResolve i st = some (true, "", st) := by
  have hmem : ∀ j ∈ orderJobs (r.inputConfig i).passed, j ∈ (r.inputConfig i).passed :=
    fun j hj => (List.mem_insertionSort _).mp hj
  unfold trySatisfyPassedConstraintsForInput
  dsimp only
  cases hc : st.candidates.getD i none with
  | none =>
    -- no candidate: the input has no passed job to go through
    have hjobs : orderJobs (r.inputConfig i).passed = [] := by
      refine List.eq_nil_iff_forall_not_mem.mpr fun j hj => ?_
      obtain ⟨c, hc', -⟩ := hdone j (hmem j hj)
      rw [hc] at hc'
      cases hc'
    rw [hjobs]
    rfl
  | some c =>
    refine tryOrderedJobs_of_vouched _ st fun j hj => ?_
    obtain ⟨c', hc', hjc⟩ := hdone j (hmem j hj)
    rw [hc] at hc'
    cases hc'
    exact hjc

theorem tryInputs_of_complete {st : ResolverState} (hc : r.Complete st.candidates) :
    ∀ inputs : List Nat, (∀ i ∈ inputs, i < r.inputConfigs.length) →
      r.tryInputs tryResolve inputs st = some (true, "", st)
  | [], _ => rfl
  | i :: inputs, hinputs => by
    have hi := hinputs i List.mem_cons_self
    unfold tryInputs
    rw [trySatisfyPassedConstraintsForInput_of_done (hc i hi)]
    exact tryInputs_of_complete hc inputs fun i' hi' => hinputs i' (List.mem_cons_of_mem _ hi')

end Done

/-! ## A search that fails restores the candidates -/

/-- What a method asks of the `tryResolve` it calls: when it answers `false`, the
candidates are those it started from. -/
def Restores (attempt : Attempt) : Prop :=
  ∀ st failure st', attempt st = some (false, failure, st') → st'.candidates = st.candidates

section Restores

variable {tryResolve : Attempt} (hrest : Restores tryResolve)
include hrest

theorem candidates_of_tryBuildOutputs_false {st st' : ResolverState} {i jobID buildID : Nat}
    {hasNext : Bool} (h : r.tryBuildOutputs tryResolve st i jobID buildID hasNext = some (false, st')) :
    st'.candidates = st.candidates := by
  unfold tryBuildOutputs at h
  set scan := r.tryOutputs jobID buildID hasNext (r.vdb.successfulBuildOutputs buildID)
    { candidates := st.candidates, restore := [], mismatch := false, stopped := false }
  have hundo : restoreCandidates scan.restore scan.candidates = st.candidates :=
    restoreCandidates_tryOutputs _
  dsimp only at h
  split_ifs at h with hrecurse hdoomed
  · -- the candidates are doomed: nothing is tried, the log is written back
    cases h
    exact hundo
  · cases htr : tryResolve { st with candidates := scan.candidates } with
    | none => simp [htr] at h
    | some res =>
      obtain ⟨ok, failure, st₁⟩ := res
      cases ok
      · -- the nested search failed and restored its own writes; the log undoes ours
        have hsame : st₁.candidates = scan.candidates := hrest _ _ _ htr
        simp only [htr, Option.some.injEq, Prod.mk.injEq, true_and] at h
        rw [← h, ResolverState.doomCandidates_candidates, hsame]
        exact hundo
      · simp [htr] at h
  · -- the resolving input got no voucher, or an output contradicted a candidate
    cases h
    exact hundo

theorem candidates_of_tryJobBuilds_false {i jobID : Nat} :
    ∀ (builds : PaginatedBuilds) (st st' : ResolverState),
      r.tryJobBuilds tryResolve i jobID builds st = some (false, st') →
        st'.candidates = st.candidates := by
  intro builds
  induction builds with
  | nil =>
    intro st st' h
    simp only [tryJobBuilds, Option.some.injEq, Prod.mk.injEq, true_and] at h
    rw [h]
  | cons p builds ih =>
    intro st st' h
    obtain ⟨buildID, hasNext⟩ := p
    obtain ⟨ok, st₁, htb, ⟨rfl, hres⟩ | ⟨rfl, hnext⟩⟩ := r.tryJobBuilds_cons_eq_some h
    · cases hres
    · -- the next build is tried from the candidates this one started from
      rw [ih st₁ st' hnext, candidates_of_tryBuildOutputs_false hrest htb]

theorem candidates_of_tryOrderedJobs_false {i : Nat} {cfg : InputConfig}
    {cc : Option VersionCandidate} :
    ∀ (jobs : List Nat) (st st' : ResolverState) failure,
      r.tryOrderedJobs tryResolve i cfg cc jobs st = some (false, failure, st') →
        st'.candidates = st.candidates := by
  intro jobs
  induction jobs with
  | nil =>
    intro st st' failure h
    simp [tryOrderedJobs] at h
  | cons j jobs ih =>
    intro st st' failure h
    unfold tryOrderedJobs at h
    dsimp only at h
    split_ifs at h with hvouched hskip
    · exact ih st st' failure h
    · -- a deferred job only fetches the build pipes
      rw [ih _ st' failure h, paginatedBuilds_candidates]
    · cases htj : r.tryJobBuilds tryResolve i j (r.paginatedBuilds st cfg cc cfg.jobID j).1
          (r.paginatedBuilds st cfg cc cfg.jobID j).2.2 with
      | none => simp [htj] at h
      | some res =>
        obtain ⟨ok, st₁⟩ := res
        cases ok
        · simp only [htj, Option.some.injEq, Prod.mk.injEq] at h
          rw [← h.2.2, candidates_of_tryJobBuilds_false hrest _ _ _ htj,
            paginatedBuilds_candidates]
        · simp [htj] at h

theorem candidates_of_trySatisfyPassedConstraintsForInput_false {i : Nat}
    {st st' : ResolverState} {failure}
    (h : r.trySatisfyPassedConstraintsForInput tryResolve i st = some (false, failure, st')) :
    st'.candidates = st.candidates :=
  candidates_of_tryOrderedJobs_false hrest _ st st' failure h

/-- The loop over the inputs answers `false` only when no input before the failing one went
through a nested success: after one, every input is done and passes. -/
theorem candidates_of_tryInputs_false (hest : r.Establishes tryResolve) :
    ∀ inputs : List Nat, (∀ i ∈ inputs, i < r.inputConfigs.length) →
      ∀ (st st' : ResolverState) failure,
        r.tryInputs tryResolve inputs st = some (false, failure, st') →
          st'.candidates = st.candidates := by
  intro inputs
  induction inputs with
  | nil =>
    intro _ st st' failure h
    simp [tryInputs] at h
  | cons i inputs ih =>
    intro hinputs st st' failure h
    have hinputs' : ∀ i' ∈ inputs, i' < r.inputConfigs.length :=
      fun i' hi' => hinputs i' (List.mem_cons_of_mem _ hi')
    unfold tryInputs at h
    cases hsat : r.trySatisfyPassedConstraintsForInput tryResolve i st with
    | none => simp [hsat] at h
    | some res =>
      obtain ⟨ok, failure₁, st₁⟩ := res
      cases ok
      · simp only [hsat, Option.some.injEq, Prod.mk.injEq] at h
        rw [← h.2.2]
        exact candidates_of_trySatisfyPassedConstraintsForInput_false hrest hsat
      · simp only [hsat] at h
        rcases trySatisfyPassedConstraintsForInput_true hsat with ⟨st₀, f₀, htr⟩ | ⟨hsame, -⟩
        · -- a nested search succeeded: every input is done, and the rest cannot fail
          have hdone : r.tryInputs tryResolve inputs st₁ = some (true, "", st₁) :=
            tryInputs_of_complete (hest _ _ _ htr) inputs hinputs'
          rw [hdone] at h
          simp at h
        · rw [ih hinputs' st₁ st' failure h, hsame]

end Restores

/-- A search that answers `false`, whatever its fuel, leaves the candidates as it found them. -/
theorem restores_tryResolve (fuel : Nat) : Restores (tryResolve fuel r) := by
  induction fuel with
  | zero =>
    intro st failure st' h
    simp [tryResolve] at h
  | succ fuel ih =>
    intro st failure st' h
    exact candidates_of_tryInputs_false ih (establishes_tryResolve fuel) _
      (fun i hi => List.mem_range.mp hi) st st' failure h

/-- A build whose outputs do not lead to a resolution leaves every candidate as it found
it, also those the nested search vouched for. -/
theorem tryBuildOutputs_restores {fuel : Nat} {st st' : ResolverState}
    {i jobID buildID : Nat} {hasNext : Bool}
    (h : r.tryBuildOutputs (tryResolve fuel r) st i jobID buildID hasNext = some (false, st')) :
    st'.candidates = st.candidates :=
  candidates_of_tryBuildOutputs_false (restores_tryResolve fuel) h

/-- Build `101` tried for input `b` once `a` has `v1` from it: it vouches for `a` again
and, `b`'s output being disabled, not for `b`, so it fails, and `a` gets back the candidate
it had, with one source build. -/
theorem tryBuildOutputs_restores_disabledOutput :
    let r : GroupResolver := ⟨disabledOutputDB, disabledOutputInputs, ["", ""]⟩
    let st : ResolverState := ⟨[some ⟨"v1", [10], [101], false⟩, none], [none, none], none⟩
    ∃ st', r.tryBuildOutputs (tryResolve 2 r) st 1 10 101 false = some (false, st') ∧
      st'.candidates = st.candidates := by
  intro r st
  have hres : (r.tryBuildOutputs (tryResolve 2 r) st 1 10 101 false).map (·.1) = some false := by
    simp only [r, st]
    decide
  obtain ⟨⟨ok, st'⟩, hsome, hok⟩ := Option.map_eq_some_iff.mp hres
  cases hok
  exact ⟨st', hsome, tryBuildOutputs_restores hsome⟩

end GroupResolver

end Algorithm
end Concourse
