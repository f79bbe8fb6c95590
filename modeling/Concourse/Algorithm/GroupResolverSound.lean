import Concourse.Algorithm.GroupResolver

/-!
# Soundness of the group resolver

Whatever the database holds, a group resolver that reports success has chosen, for
every input and every job in its `passed` set, a version that the job vouched for,
that is not disabled, that is the pinned version when the input is pinned, and that is
among the outputs of a successful build of that job recorded in the candidate's
`SourceBuildIds`.

Two invariants carry the proof.

* `Sound`: every candidate in the state is backed by the database as above.  It holds
  of the empty state, vouching keeps it, and so does writing back the undo log
  `restore`, because the log only holds earlier, sound candidates.
* `Complete`: every input holds a candidate with a voucher from each of its passed
  jobs.  It is established, not preserved: a call of `tryResolve` that answers `true`
  ends in a state where it holds.  The loop over an input's jobs only falls through
  when each job already vouches for the current candidate or is deferred; a deferred
  job needs another job of the same input to have a build pipe, and that job is never
  deferred, so an input without a candidate cannot fall through.

Both are proved method by method, each lemma assuming what it needs of the parameter
`tryResolve`, and tied together by induction on the fuel.
-/

namespace Concourse
namespace Algorithm

open Db UndoLog

namespace GroupResolver

/-- A candidate for input `i` that the database backs: its version is not disabled, is the
pinned one when the input is pinned, and every job vouching for it is a passed job of the
input with a successful build among the candidate's source builds that output it. -/
structure CandidateSound (r : GroupResolver) (i : Nat) (c : VersionCandidate) : Prop where
  notDisabled : r.vdb.versionIsDisabled (r.inputConfig i).resourceID c.version = false
  pinned : (r.inputConfig i).pinnedVersion.isSome → c.version = r.pin i
  vouched : ∀ j ∈ c.vouchedForBy, j ∈ (r.inputConfig i).passed ∧
    ∃ b ∈ c.sourceBuildIds, r.vdb.IsSuccessfulBuild j b ∧
      (⟨(r.inputConfig i).resourceID, c.version⟩ : AlgorithmVersion) ∈
        r.vdb.successfulBuildOutputs b

/-- The entry at index `i` of `candidates` is empty or a sound candidate. -/
def SoundEntry (r : GroupResolver) (i : Nat) : Option VersionCandidate → Prop
  | none => True
  | some c => r.CandidateSound i c

/-- Every candidate of the state is backed by the database. -/
def Sound (r : GroupResolver) (candidates : List (Option VersionCandidate)) : Prop :=
  AllAt r.SoundEntry candidates

/-- Input `i` holds a candidate with a voucher from each of its passed jobs. -/
def InputDone (r : GroupResolver) (candidates : List (Option VersionCandidate)) (i : Nat) :
    Prop :=
  ∀ j ∈ (r.inputConfig i).passed, ∃ c, candidates.getD i none = some c ∧ j ∈ c.vouchedForBy

/-- Every input is done. -/
def Complete (r : GroupResolver) (candidates : List (Option VersionCandidate)) : Prop :=
  ∀ i < r.inputConfigs.length, r.InputDone candidates i

variable {r : GroupResolver}

theorem Sound.getD {cs : List (Option VersionCandidate)} (h : r.Sound cs) {i : Nat}
    {c : VersionCandidate} (hc : cs.getD i none = some c) : r.CandidateSound i c := by
  rw [List.getD_eq_getElem?_getD] at hc
  cases hget : cs[i]? with
  | none => simp [hget] at hc
  | some o =>
    simp only [hget, Option.getD_some] at hc
    subst hc
    exact h i _ hget

theorem soundEntry_getD {cs : List (Option VersionCandidate)} (h : r.Sound cs) (i : Nat) :
    r.SoundEntry i (cs.getD i none) := by
  cases hc : cs.getD i none with
  | none => trivial
  | some c => exact h.getD hc

theorem sound_init (n : Nat) : r.Sound (ResolverState.init n).candidates :=
  allAt_replicate fun _ => trivial

/-! ## Vouching -/

/-- What `outputIsRelatedAndMatches` has checked when it answers "related". -/
theorem outputIsRelatedAndMatches_related {cs : List (Option VersionCandidate)}
    {output : AlgorithmVersion} {c jobID : Nat} {m : Bool}
    (h : r.outputIsRelatedAndMatches cs output c jobID = (true, m)) :
    (r.inputConfig c).resourceID = output.resourceID ∧
      jobID ∈ (r.inputConfig c).passed ∧
      (∀ old, cs.getD c none = some old → old.version = output.version) ∧
      r.vdb.versionIsDisabled output.resourceID output.version = false ∧
      ((r.inputConfig c).pinnedVersion.isSome → r.pin c = output.version) := by
  unfold outputIsRelatedAndMatches at h
  dsimp only at h
  -- every branch but the last answers "unrelated"
  split_ifs at h with hres hpassed hany hdis hpin <;> cases h
  refine ⟨not_not.mp hres, hpassed, ?_, by simpa using hdis, ?_⟩
  · intro old hold
    rw [hold] at hany
    simpa using hany
  · intro hsome
    by_contra hne
    exact hpin ⟨hsome, hne⟩

/-- A candidate vouched for by a related output of a successful build is sound. -/
theorem candidateSound_vouch {old : Option VersionCandidate} {output : AlgorithmVersion}
    {c jobID buildID : Nat} {hasNext : Bool} (hold : r.SoundEntry c old)
    (hres : (r.inputConfig c).resourceID = output.resourceID)
    (hpassed : jobID ∈ (r.inputConfig c).passed)
    (hsame : ∀ o, old = some o → o.version = output.version)
    (hdis : r.vdb.versionIsDisabled output.resourceID output.version = false)
    (hpin : (r.inputConfig c).pinnedVersion.isSome → r.pin c = output.version)
    (hbuild : r.vdb.IsSuccessfulBuild jobID buildID)
    (hout : output ∈ r.vdb.successfulBuildOutputs buildID) :
    r.CandidateSound c (vouchForCandidate old output.version jobID buildID hasNext) := by
  -- the output is the input's resource at the new version
  have hnew : (⟨(r.inputConfig c).resourceID, output.version⟩ : AlgorithmVersion) ∈
      r.vdb.successfulBuildOutputs buildID := by
    rw [hres]
    exact hout
  refine ⟨by rw [vouchForCandidate_version, hres]; exact hdis,
    fun hsome => by rw [vouchForCandidate_version]; exact (hpin hsome).symm, ?_⟩
  intro j hj
  rw [vouchForCandidate_vouchedForBy, List.mem_insert_iff] at hj
  rcases hj with rfl | hj
  · exact ⟨hpassed, buildID, by simp, hbuild, by simpa using hnew⟩
  · -- an older voucher: its build still outputs the version, which did not change
    cases old with
    | none => simp at hj
    | some o =>
      have ho : o.version = output.version := hsame o rfl
      obtain ⟨hp, b, hb, hsb, hob⟩ := hold.vouched j (by simpa using hj)
      exact ⟨hp, b, by simp [hb], hsb, by simpa [← ho] using hob⟩

/-! ## The loop over a build's outputs -/

/-- The loop over a build's outputs keeps every candidate sound and logs only sound
candidates in `restore`. -/
structure ScanSound (r : GroupResolver) (scan : OutputsScan) : Prop where
  candidates : r.Sound scan.candidates
  restore : ∀ e ∈ scan.restore, r.SoundEntry e.1 e.2

section Scan

variable {jobID buildID : Nat} {hasNext : Bool}

theorem tryOutputOnCandidates_sound {output : AlgorithmVersion}
    (hbuild : r.vdb.IsSuccessfulBuild jobID buildID)
    (hout : output ∈ r.vdb.successfulBuildOutputs buildID) :
    ∀ (cs : List Nat) (scan : OutputsScan), r.ScanSound scan →
      r.ScanSound (r.tryOutputOnCandidates jobID buildID hasNext output cs scan) := by
  intro cs
  induction cs with
  | nil => exact fun _ h => h
  | cons c cs ih =>
    intro scan h
    unfold tryOutputOnCandidates
    rcases hrm : r.outputIsRelatedAndMatches scan.candidates output c jobID with
      ⟨related, mismatch⟩
    dsimp only
    split_ifs with hlogged hmismatch hunrelated hmissing
    · exact ih scan h
    · exact ⟨h.candidates, h.restore⟩
    · exact ih _ ⟨h.candidates, h.restore⟩
    · exact ⟨h.candidates, h.restore⟩
    · -- the output vouches for candidate `c`; its old value goes to the undo log
      have hrel : r.outputIsRelatedAndMatches scan.candidates output c jobID = (true, mismatch) := by
        simpa using hrm.trans (by simpa using hunrelated)
      obtain ⟨hres, hpassed, hsame, hdis, hpin⟩ := outputIsRelatedAndMatches_related hrel
      refine ih _ ⟨h.candidates.set ?_, ?_⟩
      · exact candidateSound_vouch (soundEntry_getD h.candidates c) hres hpassed
          (fun o ho => hsame o ho) hdis hpin hbuild hout
      · intro e he
        rcases List.mem_append.mp he with he | he
        · exact h.restore e he
        · rw [List.mem_singleton] at he
          subst he
          exact soundEntry_getD h.candidates c

theorem tryOutputs_sound (hbuild : r.vdb.IsSuccessfulBuild jobID buildID) :
    ∀ (outputs : List AlgorithmVersion),
      (∀ o ∈ outputs, o ∈ r.vdb.successfulBuildOutputs buildID) →
      ∀ scan, r.ScanSound scan → r.ScanSound (r.tryOutputs jobID buildID hasNext outputs scan) := by
  intro outputs
  induction outputs with
  | nil => exact fun _ _ h => h
  | cons o os ih =>
    intro hsub scan h
    have h1 : r.ScanSound (r.tryOutputOnCandidates jobID buildID hasNext o
        (List.range scan.candidates.length) scan) :=
      tryOutputOnCandidates_sound hbuild (hsub o (List.mem_cons_self ..)) _ scan h
    unfold tryOutputs
    dsimp only
    split_ifs
    · exact h1
    · exact ih (fun o' ho' => hsub o' (List.mem_cons_of_mem _ ho')) _ h1

end Scan

/-! ## Soundness of the search -/

/-- What a method asks of the `tryResolve` it calls: it keeps the candidates sound. -/
def KeepsSound (r : GroupResolver) (attempt : Attempt) : Prop :=
  ∀ st res, attempt st = some res → r.Sound st.candidates → r.Sound res.2.2.candidates

section KeepsSound

variable {tryResolve : Attempt} (hkeep : r.KeepsSound tryResolve)
include hkeep

theorem tryBuildOutputs_sound {st : ResolverState} {res : Bool × ResolverState}
    {i jobID buildID : Nat} {hasNext : Bool} (hbuild : r.vdb.IsSuccessfulBuild jobID buildID)
    (h : r.tryBuildOutputs tryResolve st i jobID buildID hasNext = some res)
    (hs : r.Sound st.candidates) : r.Sound res.2.candidates := by
  unfold tryBuildOutputs at h
  set scan := r.tryOutputs jobID buildID hasNext (r.vdb.successfulBuildOutputs buildID)
    { candidates := st.candidates, restore := [], mismatch := false, stopped := false }
  have hscan : r.ScanSound scan := tryOutputs_sound hbuild _ (fun _ ho => ho) _ ⟨hs, by simp⟩
  -- writing back the undo log keeps every candidate sound
  have hundo : ∀ cs, r.Sound cs → r.Sound (restoreCandidates scan.restore cs) :=
    fun cs hcs => AllAt.undo hcs hscan.restore
  dsimp only at h
  split_ifs at h with hrecurse hdoomed
  · cases h
    exact hundo _ hscan.candidates
  · cases htr : tryResolve { st with candidates := scan.candidates } with
    | none => simp [htr] at h
    | some res' =>
      obtain ⟨ok, failure, st'⟩ := res'
      have hs' : r.Sound st'.candidates := hkeep _ _ htr hscan.candidates
      cases ok
      · simp only [htr, Option.some.injEq] at h
        subst h
        exact hundo _ hs'
      · simp only [htr, Option.some.injEq] at h
        subst h
        exact hs'
  · cases h
    exact hundo _ hscan.candidates

theorem tryJobBuilds_sound {i jobID : Nat} :
    ∀ (builds : PaginatedBuilds) (st : ResolverState) (res : Bool × ResolverState),
      (∀ p ∈ builds, r.vdb.IsSuccessfulBuild jobID p.1) →
      r.tryJobBuilds tryResolve i jobID builds st = some res →
      r.Sound st.candidates → r.Sound res.2.candidates := by
  intro builds
  induction builds with
  | nil =>
    intro st res _ h hs
    cases h
    exact hs
  | cons p builds ih =>
    intro st res hsucc h hs
    obtain ⟨buildID, hasNext⟩ := p
    obtain ⟨ok, st', htb, hcase⟩ := r.tryJobBuilds_cons_eq_some h
    have hs' := tryBuildOutputs_sound hkeep (hsucc _ (List.mem_cons_self ..)) htb hs
    rcases hcase with ⟨rfl, rfl⟩ | ⟨rfl, hnext⟩
    · exact hs'
    · exact ih st' res (fun q hq => hsucc q (List.mem_cons_of_mem _ hq)) hnext hs'

theorem tryOrderedJobs_sound {i : Nat} {cfg : InputConfig} {cc : Option VersionCandidate} :
    ∀ (jobs : List Nat) (st : ResolverState) res,
      r.tryOrderedJobs tryResolve i cfg cc jobs st = some res →
      r.Sound st.candidates → r.Sound res.2.2.candidates := by
  intro jobs
  induction jobs with
  | nil =>
    intro st res h hs
    cases h
    exact hs
  | cons j jobs ih =>
    intro st res h hs
    unfold tryOrderedJobs at h
    dsimp only at h
    split_ifs at h with hvouched hskip
    · exact ih st res h hs
    · exact ih _ res h (by rw [paginatedBuilds_candidates]; exact hs)
    · cases htj : r.tryJobBuilds tryResolve i j
          (r.paginatedBuilds st cfg cc cfg.jobID j).1
          (r.paginatedBuilds st cfg cc cfg.jobID j).2.2 with
      | none => simp [htj] at h
      | some res' =>
        obtain ⟨ok, st'⟩ := res'
        have hs' := tryJobBuilds_sound hkeep _ _ _ paginatedBuilds_successful htj
          (by rw [paginatedBuilds_candidates]; exact hs)
        cases ok <;>
        · simp only [htj, Option.some.injEq] at h
          subst h
          exact hs'

theorem trySatisfyPassedConstraintsForInput_sound {i : Nat} {st : ResolverState} {res}
    (h : r.trySatisfyPassedConstraintsForInput tryResolve i st = some res)
    (hs : r.Sound st.candidates) : r.Sound res.2.2.candidates :=
  tryOrderedJobs_sound hkeep _ st res h hs

theorem tryInputs_sound :
    ∀ (inputs : List Nat) (st : ResolverState) res,
      r.tryInputs tryResolve inputs st = some res →
      r.Sound st.candidates → r.Sound res.2.2.candidates := by
  intro inputs
  induction inputs with
  | nil =>
    intro st res h hs
    cases h
    exact hs
  | cons i inputs ih =>
    intro st res h hs
    unfold tryInputs at h
    cases hsat : r.trySatisfyPassedConstraintsForInput tryResolve i st with
    | none => simp [hsat] at h
    | some res' =>
      obtain ⟨ok, failure, st'⟩ := res'
      have hs' := trySatisfyPassedConstraintsForInput_sound hkeep hsat hs
      cases ok
      · simp only [hsat, Option.some.injEq] at h
        subst h
        exact hs'
      · simp only [hsat] at h
        exact ih st' res h hs'

end KeepsSound

/-- Every run of the search, whatever its fuel, keeps the candidates sound. -/
theorem keepsSound_tryResolve (fuel : Nat) : r.KeepsSound (tryResolve fuel r) := by
  induction fuel with
  | zero =>
    intro st res h
    simp [tryResolve] at h
  | succ fuel ih =>
    intro st res h hs
    exact tryInputs_sound ih _ st res h hs

/-! ## Completeness of a successful search -/

/-- Job `j` is deferred against the build pipes `L`: the input passes through a job with a
build pipe, and `j` has none. -/
def Deferred (L : Option (List (Nat × BuildCursor))) (cfg : InputConfig) (j : Nat) : Prop :=
  lookupBuild (relatedPassedBuilds L cfg) j = none ∧ relatedPassedBuilds L cfg ≠ []

/-- Not every passed job of an input is deferred: the job whose build pipe makes the
others wait is not. -/
theorem not_all_deferred {L : Option (List (Nat × BuildCursor))} {cfg : InputConfig}
    (hne : cfg.passed ≠ []) : ¬ ∀ j ∈ cfg.passed, Deferred L cfg j := by
  intro hall
  obtain ⟨j, hj⟩ := List.exists_mem_of_ne_nil _ hne
  obtain ⟨p, hp⟩ := List.exists_mem_of_ne_nil _ (hall j hj).2
  have hpassed : p.1 ∈ cfg.passed := by
    simpa using (List.mem_filter.mp hp).2
  have hnone := (hall p.1 hpassed).1
  unfold lookupBuild at hnone
  rw [List.lookup_eq_none_iff] at hnone
  simpa using hnone p (List.mem_reverse.mpr hp)

/-- What a method asks of the `tryResolve` it calls: when it answers `true`, every input
is done. -/
def Establishes (r : GroupResolver) (attempt : Attempt) : Prop :=
  ∀ st failure st', attempt st = some (true, failure, st') → r.Complete st'.candidates

section Establishes

variable {tryResolve : Attempt}

theorem tryBuildOutputs_true {st st' : ResolverState} {i jobID buildID : Nat} {hasNext : Bool}
    (h : r.tryBuildOutputs tryResolve st i jobID buildID hasNext = some (true, st')) :
    ∃ st₀ failure, tryResolve st₀ = some (true, failure, st') := by
  unfold tryBuildOutputs at h
  set scan := r.tryOutputs jobID buildID hasNext (r.vdb.successfulBuildOutputs buildID)
    { candidates := st.candidates, restore := [], mismatch := false, stopped := false }
  dsimp only at h
  split_ifs at h
  · simp at h
  · -- only the nested search can answer `true`
    cases htr : tryResolve { st with candidates := scan.candidates } with
    | none => simp [htr] at h
    | some res =>
      obtain ⟨ok, failure, st₁⟩ := res
      cases ok
      · simp [htr] at h
      · simp only [htr, Option.some.injEq, Prod.mk.injEq, true_and] at h
        exact ⟨_, failure, by rw [htr, h]⟩
  · simp at h

theorem tryJobBuilds_true {i jobID : Nat} :
    ∀ (builds : PaginatedBuilds) (st st' : ResolverState),
      r.tryJobBuilds tryResolve i jobID builds st = some (true, st') →
      ∃ st₀ failure, tryResolve st₀ = some (true, failure, st') := by
  intro builds
  induction builds with
  | nil =>
    intro st st' h
    simp [tryJobBuilds] at h
  | cons p builds ih =>
    intro st st' h
    obtain ⟨buildID, hasNext⟩ := p
    obtain ⟨ok, st₁, htb, ⟨rfl, hres⟩ | ⟨rfl, hnext⟩⟩ := r.tryJobBuilds_cons_eq_some h
    · cases hres
      exact tryBuildOutputs_true htb
    · exact ih st₁ st' hnext

/-- The loop over an input's jobs answers `true` after a nested search that answered `true`,
or having changed no candidate, every job vouching for the current candidate or deferred. -/
theorem tryOrderedJobs_true {i : Nat} {cfg : InputConfig} {cc : Option VersionCandidate} :
    ∀ (jobs : List Nat) (st st' : ResolverState) failure,
      r.tryOrderedJobs tryResolve i cfg cc jobs st = some (true, failure, st') →
      (∃ st₀ failure₀, tryResolve st₀ = some (true, failure₀, st')) ∨
      (st'.candidates = st.candidates ∧ ∀ j ∈ jobs, cc.any (fun c => j ∈ c.vouchedForBy) ∨
        (cc = none ∧ Deferred (r.lastUsedPassedBuildsFor st cfg cfg.jobID) cfg j)) := by
  intro jobs
  induction jobs with
  | nil =>
    intro st st' failure h
    simp only [tryOrderedJobs, Option.some.injEq, Prod.mk.injEq] at h
    exact Or.inr ⟨by rw [h.2.2], by simp⟩
  | cons j jobs ih =>
    intro st st' failure h
    unfold tryOrderedJobs at h
    dsimp only at h
    split_ifs at h with hvouched hskip
    · -- the job already vouches for the candidate
      rcases ih st st' failure h with hnest | ⟨hsame, hall⟩
      · exact Or.inl hnest
      · refine Or.inr ⟨hsame, fun j' hj' => ?_⟩
        rcases List.mem_cons.mp hj' with rfl | hj'
        · exact Or.inl hvouched
        · exact hall j' hj'
    · -- the job is deferred; the build pipes fetched now are the ones every later job sees
      obtain ⟨hcc, hevery, hlookup, hne⟩ := paginatedBuilds_skip hskip
      have hstate : (r.paginatedBuilds st cfg cc cfg.jobID j).2.2 =
          { st with lastUsedPassedBuilds := r.lastUsedPassedBuildsFor st cfg cfg.jobID } := by
        rw [paginatedBuilds_state, if_pos hevery]
      rcases ih _ st' failure h with hnest | ⟨hsame, hall⟩
      · exact Or.inl hnest
      · refine Or.inr ⟨by rw [hsame, paginatedBuilds_candidates], fun j' hj' => ?_⟩
        rcases List.mem_cons.mp hj' with rfl | hj'
        · exact Or.inr ⟨hcc, hlookup, hne⟩
        · rw [hstate, lastUsedPassedBuildsFor_idem] at hall
          exact hall j' hj'
    · cases htj : r.tryJobBuilds tryResolve i j (r.paginatedBuilds st cfg cc cfg.jobID j).1
          (r.paginatedBuilds st cfg cc cfg.jobID j).2.2 with
      | none => simp [htj] at h
      | some res =>
        obtain ⟨ok, st₁⟩ := res
        cases ok
        · simp [htj] at h
        · simp only [htj, Option.some.injEq, Prod.mk.injEq, true_and] at h
          rw [← h.2]
          exact Or.inl (tryJobBuilds_true _ _ _ htj)

/-- `trySatisfyPassedConstraintsForInput` answers `true` after a nested search that
answered `true`, or with its input done and no candidate changed. -/
theorem trySatisfyPassedConstraintsForInput_true {i : Nat} {st st' : ResolverState} {failure}
    (h : r.trySatisfyPassedConstraintsForInput tryResolve i st = some (true, failure, st')) :
    (∃ st₀ failure₀, tryResolve st₀ = some (true, failure₀, st')) ∨
      (st'.candidates = st.candidates ∧ r.InputDone st.candidates i) := by
  unfold trySatisfyPassedConstraintsForInput at h
  rcases tryOrderedJobs_true _ st st' failure h with hnest | ⟨hsame, hall⟩
  · exact Or.inl hnest
  · refine Or.inr ⟨hsame, fun j hj => ?_⟩
    have hmem : ∀ j ∈ (r.inputConfig i).passed, j ∈ orderJobs (r.inputConfig i).passed :=
      fun j hj => (List.mem_insertionSort _).mpr hj
    rcases hall j (hmem j hj) with hv | ⟨hnone, -⟩
    · cases hc : st.candidates.getD i none with
      | none =>
        rw [hc] at hv
        cases hv
      | some c =>
        rw [hc] at hv
        exact ⟨c, rfl, by simpa using hv⟩
    · -- without a candidate every job was deferred, which cannot be
      exfalso
      refine not_all_deferred (L := r.lastUsedPassedBuildsFor st (r.inputConfig i)
        (r.inputConfig i).jobID) (List.ne_nil_of_mem hj) fun j' hj' => ?_
      rcases hall j' (hmem j' hj') with hv' | ⟨-, hdef⟩
      · rw [hnone] at hv'
        cases hv'
      · exact hdef

theorem tryInputs_true (hest : r.Establishes tryResolve) :
    ∀ (inputs : List Nat) (st st' : ResolverState) failure,
      r.tryInputs tryResolve inputs st = some (true, failure, st') →
      r.Complete st'.candidates ∨
        (st'.candidates = st.candidates ∧ ∀ i ∈ inputs, r.InputDone st.candidates i) := by
  intro inputs
  induction inputs with
  | nil =>
    intro st st' failure h
    simp only [tryInputs, Option.some.injEq, Prod.mk.injEq] at h
    exact Or.inr ⟨by rw [h.2.2], by simp⟩
  | cons i inputs ih =>
    intro st st' failure h
    unfold tryInputs at h
    cases hsat : r.trySatisfyPassedConstraintsForInput tryResolve i st with
    | none => simp [hsat] at h
    | some res =>
      obtain ⟨ok, failure₁, st₁⟩ := res
      cases ok
      · simp [hsat] at h
      · simp only [hsat] at h
        rcases trySatisfyPassedConstraintsForInput_true hsat with ⟨st₀, f₀, htr⟩ | ⟨hsame, hdone⟩
        · -- a nested search succeeded: every input is done from here on
          have hcomplete := hest _ _ _ htr
          rcases ih st₁ st' failure h with hc | ⟨hsame', -⟩
          · exact Or.inl hc
          · exact Or.inl (by rw [hsame']; exact hcomplete)
        · rcases ih st₁ st' failure h with hc | ⟨hsame', hall⟩
          · exact Or.inl hc
          · refine Or.inr ⟨hsame'.trans hsame, fun i' hi' => ?_⟩
            rcases List.mem_cons.mp hi' with rfl | hi'
            · exact hdone
            · rw [← hsame]
              exact hall i' hi'

end Establishes

/-- A search that answers `true`, whatever its fuel, leaves every input done. -/
theorem establishes_tryResolve (fuel : Nat) : r.Establishes (tryResolve fuel r) := by
  induction fuel with
  | zero =>
    intro st failure st' h
    simp [tryResolve] at h
  | succ fuel ih =>
    intro st failure st' h
    rcases tryInputs_true ih _ st st' failure h with hc | ⟨hsame, hall⟩
    · exact hc
    · intro i hi
      rw [hsame]
      exact hall i (List.mem_range.mpr hi)

end GroupResolver

/-! ## `Resolve` -/

/-- `findPins` records for every pinned input the digest of its pinned version. -/
theorem findPins_pinned {vdb : VersionsDB} :
    ∀ (inputConfigs : List InputConfig) (pins : List ResourceVersion),
      findPins vdb inputConfigs = .ok pins →
      ∀ i (hi : i < inputConfigs.length) pinnedVersion,
        inputConfigs[i].pinnedVersion = some pinnedVersion →
        vdb.findVersionOfResource inputConfigs[i].resourceID pinnedVersion =
          some (pins.getD i "") := by
  intro inputConfigs
  induction inputConfigs with
  | nil =>
    intro pins _ i hi
    cases hi
  | cons cfg cfgs ih =>
    intro pins h i hi pinnedVersion hpinned
    unfold findPins at h
    -- the head contributes `""` or its digest; the rest is the recursive call
    obtain ⟨version, pins', hrest, rfl, hhead⟩ : ∃ version pins', findPins vdb cfgs = .ok pins' ∧
        pins = version :: pins' ∧
        ∀ pv, cfg.pinnedVersion = some pv → vdb.findVersionOfResource cfg.resourceID pv =
          some version := by
      cases hp : cfg.pinnedVersion with
      | none =>
        rw [hp] at h
        cases hrest : findPins vdb cfgs with
        | error e => simp [hrest, Except.map] at h
        | ok pins' =>
          simp only [hrest, Except.map, Except.ok.injEq] at h
          exact ⟨"", pins', rfl, h.symm, by simp⟩
      | some pv =>
        rw [hp] at h
        cases hv : vdb.findVersionOfResource cfg.resourceID pv with
        | none => simp [hv] at h
        | some version =>
          cases hrest : findPins vdb cfgs with
          | error e => simp [hv, hrest, Except.map] at h
          | ok pins' =>
            simp only [hv, hrest, Except.map, Except.ok.injEq] at h
            exact ⟨version, pins', rfl, h.symm, by simp [hv]⟩
    cases i with
    | zero => exact hhead pinnedVersion hpinned
    | succ i => exact ih pins' hrest i (by simpa using hi) pinnedVersion hpinned

/-- When `Resolve` answers with candidates and no failure, every input's candidate is vouched
for by every job the input passes through, with a version that is not disabled, is the
pinned one when the input is pinned, and is among the outputs of a successful build of
that job recorded as a source build. -/
theorem resolve_vouched {fuel : Nat} {vdb : VersionsDB} {inputConfigs : List InputConfig}
    {cands : List (String × Option VersionCandidate)}
    (h : resolve fuel vdb inputConfigs = some (some cands, "")) :
    ∀ i (hi : i < inputConfigs.length), ∀ j ∈ inputConfigs[i].passed, ∃ c,
      cands[i]? = some (inputConfigs[i].name, some c) ∧ j ∈ c.vouchedForBy ∧
      vdb.versionIsDisabled inputConfigs[i].resourceID c.version = false ∧
      (∀ pinnedVersion, inputConfigs[i].pinnedVersion = some pinnedVersion →
        vdb.findVersionOfResource inputConfigs[i].resourceID pinnedVersion = some c.version) ∧
      ∃ b ∈ c.sourceBuildIds, vdb.IsSuccessfulBuild j b ∧
        ⟨inputConfigs[i].resourceID, c.version⟩ ∈ vdb.successfulBuildOutputs b := by
  unfold resolve at h
  cases hpins : findPins vdb inputConfigs with
  | error failure => simp [hpins] at h
  | ok pins =>
    simp only [hpins] at h
    set r : GroupResolver := { vdb, inputConfigs, pins }
    cases hrun : GroupResolver.tryResolve fuel r (ResolverState.init inputConfigs.length) with
    | none => simp [hrun] at h
    | some res =>
      obtain ⟨ok, failure, st⟩ := res
      cases ok
      · simp [hrun] at h
      · simp only [hrun, Option.some.injEq, Prod.mk.injEq, and_true] at h
        subst h
        -- the search keeps every candidate sound and, answering `true`, leaves every input done
        have hsound : r.Sound st.candidates :=
          GroupResolver.keepsSound_tryResolve fuel _ _ hrun (GroupResolver.sound_init _)
        have hcomplete : r.Complete st.candidates :=
          GroupResolver.establishes_tryResolve fuel _ _ _ hrun
        intro i hi j hj
        have hcfg : r.inputConfig i = inputConfigs[i] := by
          simp [r, GroupResolver.inputConfig, hi]
        obtain ⟨c, hc, hjc⟩ := hcomplete i hi j (by rw [hcfg]; exact hj)
        obtain ⟨hdisabled, hpin, hvouched⟩ : r.CandidateSound i c := hsound.getD hc
        rw [hcfg] at hdisabled hpin hvouched
        obtain ⟨-, b, hb, hsucc, hout⟩ := hvouched j hjc
        refine ⟨c, by simp [hi, ← hc], hjc, hdisabled, fun pinnedVersion hpinned => ?_,
          b, hb, hsucc, hout⟩
        have hpin : c.version = r.pin i := hpin (by simp [hpinned])
        rw [findPins_pinned inputConfigs pins hpins i hi pinnedVersion hpinned, hpin]
        rfl

/-- Job `10` has two successful builds.  The newer one, `101`, produced `v1` for resource `1`
and `v2` for resource `2`, and `v2` is disabled; the older one, `100`, produced `w2`. -/
def disabledOutputDB : VersionsDB where
  succeededBuilds jobID := if jobID = 10 then [⟨101, none⟩, ⟨100, none⟩] else []
  successfulBuildOutputs b :=
    if b = 101 then [⟨1, "v1"⟩, ⟨2, "v2"⟩] else if b = 100 then [⟨2, "w2"⟩] else []
  versionExists _ _ := true
  versionIsDisabled resourceID version := resourceID == 2 && version == "v2"
  findVersionOfResource _ _ := none
  latestBuildUsingLatestVersion _ _ := none
  latestBuildPipes _ := []

/-- Two inputs, of resources `1` and `2`, both passed through job `10`. -/
def disabledOutputInputs : List InputConfig :=
  [{ name := "a", trigger := false, passed := [10], useEveryVersion := false,
     pinnedVersion := none, resourceID := 1, jobID := 20 },
   { name := "b", trigger := false, passed := [10], useEveryVersion := false,
     pinnedVersion := none, resourceID := 2, jobID := 20 }]

/-- Build `101` vouches for `a` but, its output for `b` being disabled, not for `b`; the
search goes on to build `100` for `b` and keeps `a`. -/
theorem resolve_disabledOutput :
    resolve 3 disabledOutputDB disabledOutputInputs =
      some (some [("a", some ⟨"v1", [10], [101], false⟩), ("b", some ⟨"w2", [10], [100], false⟩)],
        "") := by
  decide

/-- Input `b` of the example: the older build `100` vouches for it. -/
theorem resolve_vouched_disabledOutput :
    resolve 3 disabledOutputDB disabledOutputInputs =
        some (some [("a", some ⟨"v1", [10], [101], false⟩), ("b", some ⟨"w2", [10], [100], false⟩)],
          "") ∧
      1 < disabledOutputInputs.length ∧ 10 ∈ [10] ∧
      ∃ c : VersionCandidate, ([("a", some ⟨"v1", [10], [101], false⟩),
          ("b", some ⟨"w2", [10], [100], false⟩)] : List (String × Option VersionCandidate))[1]? =
          some ("b", some c) ∧ 10 ∈ c.vouchedForBy ∧
        disabledOutputDB.versionIsDisabled 2 c.version = false ∧
        (∀ pinnedVersion, (none : Option Version) = some pinnedVersion →
          disabledOutputDB.findVersionOfResource 2 pinnedVersion = some c.version) ∧
        ∃ b ∈ c.sourceBuildIds, disabledOutputDB.IsSuccessfulBuild 10 b ∧
          ⟨2, c.version⟩ ∈ disabledOutputDB.successfulBuildOutputs b :=
  ⟨resolve_disabledOutput, by decide, by decide,
    resolve_vouched resolve_disabledOutput 1 (by decide) 10 (by decide)⟩

/-- Two inputs passed through the same job need not take their versions from one build of it. -/
theorem resolve_vouching_builds_differ :
    ¬ ∀ (fuel : Nat) (vdb : VersionsDB) (inputConfigs : List InputConfig)
        (cands : List (String × Option VersionCandidate)),
        resolve fuel vdb inputConfigs = some (some cands, "") →
        ∀ i i' (hi : i < inputConfigs.length) (hi' : i' < inputConfigs.length),
          ∀ j ∈ inputConfigs[i].passed, j ∈ inputConfigs[i'].passed →
          ∃ c c' b, cands[i]? = some (inputConfigs[i].name, some c) ∧
            cands[i']? = some (inputConfigs[i'].name, some c') ∧
            b ∈ c.sourceBuildIds ∧ b ∈ c'.sourceBuildIds ∧ vdb.IsSuccessfulBuild j b := by
  intro hsame
  obtain ⟨c, c', b, hc, hc', hb, hb', -⟩ := hsame 3 disabledOutputDB disabledOutputInputs _
    resolve_disabledOutput 0 1 (by decide) (by decide) 10 (by decide) (by decide)
  simp only [List.getElem?_cons_zero, List.getElem?_cons_succ, Option.some.injEq,
    Prod.mk.injEq] at hc hc'
  -- `a` was vouched for by build `101` only, `b` by build `100` only
  obtain ⟨-, rfl⟩ := hc
  obtain ⟨-, rfl⟩ := hc'
  simp only [List.mem_singleton] at hb hb'
  omega

end Algorithm
end Concourse
