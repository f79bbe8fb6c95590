import Mathlib.Data.List.Nodup
import Mathlib.Logic.Relation
import Concourse.Atc.StepConfig
import Concourse.Lib.DepOrder
import Concourse.Lib.ExceptFold

/-!
# Cycle detection in pipeline configs

`configvalidate.validateCycle` refuses a pipeline whose jobs depend on each other in a cycle.
Job `j` depends on job `k` when a get of `j`, anywhere in its plan and hooks as a `StepRecursor`
visits them, has a `passed` glob that `path.Match`es the name of `k` (`Edge`).  From every job in
turn it runs `detectCycle`, a depth-first search with a fresh map of visit states kept by job
name: a name is `Visiting` while the search is below its job and `Visited` after, and meeting a
`Visiting` name is the error.

We show

1. that every visiting name reaches, along the graph, the job being searched (`StackReaches`),
   so the error is given only on a cycle (`validateCycle_error_cycle`);
2. that when the names of the jobs are distinct, each search that returns leaves the dependencies
   of every `Visited` name `Visited` (`Closed`), so the search from a job on a cycle comes back to
   that job while it is `Visiting`, and a config without the error has no cycle
   (`acyclic_of_validateCycle_ok`);
3. that the search never runs out of the levels the model gives it
   (`validateCycle_ne_outOfFuel`);
4. so that for distinct names the error is given exactly on a cycle
   (`validateCycle_error_iff_cycle`), while two jobs of one name can hide a cycle
   (`validateCycle_duplicate_names_miss`): once a job of a name is searched, every other job of
   that name is skipped as `Visited` with its own dependencies never searched.  `Validate`
   refuses such a config anyway, by the same-name error of `validateJobs`.

`path.Match` is the parameter `pathMatch`; a malformed pattern matches nothing, as the code
drops its error.  Go's recursion has no bound, and the model gives `detectCycle` one level more
than there are jobs: each level below the first marks a new name `Visiting`.
-/

namespace Concourse
namespace Atc
namespace ConfigValidate

open Config DepOrder Relation

/-- `JobState`. -/
inductive JobState where
  | notVisited
  | visiting
  | visited
  deriving DecidableEq, Repr

/-- How `detectCycle` stops: with Go's error, or, in the model only, out of levels. -/
inductive DetectError where
  | err (message : String)
  | outOfFuel
  deriving DecidableEq, Repr

/-- The `passed` globs of the gets of a job, in the order the `StepRecursor` of `detectCycle`
meets them. -/
def passedGlobs (j : JobConfig) : List String :=
  j.stepConfig.recursorSteps.flatMap fun
    | .get _ _ passed _ => passed
    | _ => []

section Detect

variable (pathMatch : String → String → Bool) (pipelineConfig : Atc.Config)

/-- The `OnGet` hook on one `passed` glob: the search of every job whose name the glob matches,
in the order of the config, up to the first error. -/
def visitMatches
    (visitJob : JobConfig → (String → JobState) → Except DetectError (String → JobState))
    (visited : String → JobState) (nextJobGlob : String) :
    Except DetectError (String → JobState) :=
  pipelineConfig.jobs.foldlM (fun visited job =>
    if pathMatch nextJobGlob job.name then visitJob job visited else pure visited) visited

/-- `detectCycle`, with at most `fuel` levels.  The map `visited` answers `NotVisited` for a
name it does not hold. -/
def detectCycle : Nat → JobConfig → (String → JobState) → Except DetectError (String → JobState)
  | 0, _, _ => .error .outOfFuel
  | fuel + 1, j, visited =>
    match visited j.name with
    | .visiting => .error (.err ("pipeline contains a cycle that starts at Job '" ++ j.name ++ "'"))
    | .visited => .ok visited
    | .notVisited => do
      let visited ← (passedGlobs j).foldlM
        (visitMatches pathMatch pipelineConfig (detectCycle fuel))
        (Function.update visited j.name .visiting)
      pure (Function.update visited j.name .visited)

/-- `validateCycle`: `detectCycle` from every job, each with a fresh map. -/
def validateCycle : Except DetectError Unit :=
  pipelineConfig.jobs.forM fun job =>
    (detectCycle pathMatch pipelineConfig (pipelineConfig.jobs.length + 1) job
      fun _ => .notVisited).map fun _ => ()

/-- The dependency graph: `j` depends on the job `k` of the config when a `passed` glob of `j`
matches the name of `k`. -/
def Edge (j k : JobConfig) : Prop :=
  k ∈ pipelineConfig.jobs ∧ ∃ nextJobGlob ∈ passedGlobs j, pathMatch nextJobGlob k.name = true

end Detect

/-! ## Visit maps -/

/-- What a search that returns does to the visit map: each name keeps its state or goes from
`NotVisited` to `Visited`. -/
def Grows (v w : String → JobState) : Prop :=
  ∀ n, w n = v n ∨ (v n = .notVisited ∧ w n = .visited)

theorem Grows.refl (v : String → JobState) : Grows v v := fun _ => .inl rfl

theorem Grows.trans {u v w : String → JobState} (huv : Grows u v) (hvw : Grows v w) :
    Grows u w := by
  intro n
  rcases huv n with h₁ | ⟨h₁, h₁'⟩ <;> rcases hvw n with h₂ | ⟨h₂, h₂'⟩
  · exact .inl (h₂.trans h₁)
  · exact .inr ⟨h₁ ▸ h₂, h₂'⟩
  · exact .inr ⟨h₁, h₂.trans h₁'⟩
  · rw [h₁'] at h₂; cases h₂

theorem Grows.visiting_iff {v w : String → JobState} (h : Grows v w) (n : String) :
    w n = .visiting ↔ v n = .visiting := by
  rcases h n with h' | ⟨h₁, h₂⟩
  · rw [h']
  · simp [h₁, h₂]

theorem Grows.visited {v w : String → JobState} (h : Grows v w) {n : String}
    (hn : v n = .visited) : w n = .visited := by
  rcases h n with h' | ⟨h₁, -⟩
  · rw [h', hn]
  · rw [hn] at h₁; cases h₁

theorem Grows.notVisited {v w : String → JobState} (h : Grows v w) {n : String}
    (hn : w n = .notVisited) : v n = .notVisited := by
  rcases h n with h' | ⟨-, h₂⟩
  · rw [← h', hn]
  · rw [hn] at h₂; cases h₂

/-! ## One level of the search -/

section Unfold

variable {pathMatch : String → String → Bool} {pipelineConfig : Atc.Config}
  {fuel : Nat} {j : JobConfig} {v w : String → JobState}

theorem detectCycle_visiting (h : v j.name = .visiting) :
    detectCycle pathMatch pipelineConfig (fuel + 1) j v =
      .error (.err ("pipeline contains a cycle that starts at Job '" ++ j.name ++ "'")) := by
  simp [detectCycle, h]

theorem detectCycle_visited (h : v j.name = .visited) :
    detectCycle pathMatch pipelineConfig (fuel + 1) j v = .ok v := by
  simp [detectCycle, h]

theorem detectCycle_notVisited (h : v j.name = .notVisited) :
    detectCycle pathMatch pipelineConfig (fuel + 1) j v =
      (passedGlobs j).foldlM (visitMatches pathMatch pipelineConfig
          (detectCycle pathMatch pipelineConfig fuel)) (Function.update v j.name .visiting) >>=
        fun u => pure (Function.update u j.name .visited) := by
  simp [detectCycle, h]

/-- A level that returns: the name was `Visited` already, or it was `NotVisited` and the searches
below returned. -/
theorem detectCycle_eq_ok (h : detectCycle pathMatch pipelineConfig (fuel + 1) j v = .ok w) :
    (v j.name = .visited ∧ w = v) ∨
      (v j.name = .notVisited ∧ ∃ u,
        (passedGlobs j).foldlM (visitMatches pathMatch pipelineConfig
          (detectCycle pathMatch pipelineConfig fuel)) (Function.update v j.name .visiting) = .ok u ∧
        w = Function.update u j.name .visited) := by
  cases hv : v j.name with
  | visiting => rw [detectCycle_visiting hv] at h; cases h
  | visited =>
    rw [detectCycle_visited hv] at h
    exact .inl ⟨rfl, (Except.ok.inj h).symm⟩
  | notVisited =>
    rw [detectCycle_notVisited hv] at h
    simp only [bind, Except.bind] at h
    split at h
    · cases h
    · rename_i u hu
      exact .inr ⟨rfl, u, hu, (Except.ok.inj h).symm⟩

/-- A level that fails: the name was `Visiting`, or it was `NotVisited` and the loops failed. -/
theorem detectCycle_eq_error {e : DetectError}
    (h : detectCycle pathMatch pipelineConfig (fuel + 1) j v = .error e) :
    v j.name = .visiting ∨
      (v j.name = .notVisited ∧ (passedGlobs j).foldlM (visitMatches pathMatch pipelineConfig
          (detectCycle pathMatch pipelineConfig fuel)) (Function.update v j.name .visiting) =
        .error e) := by
  cases hv : v j.name with
  | visiting => exact .inl rfl
  | visited => rw [detectCycle_visited hv] at h; cases h
  | notVisited =>
    rw [detectCycle_notVisited hv] at h
    simp only [bind, Except.bind] at h
    split at h
    · rename_i e' he'
      cases h
      exact .inr ⟨rfl, he'⟩
    · cases h

end Unfold

/-! ## The loops of one level

`detectCycle` below a job is two loops: over the job's `passed` globs and, for each, over the
jobs of the config.  The lemmas take the search below as any `call` with the property used. -/

section Loops

variable {pathMatch : String → String → Bool} {pipelineConfig : Atc.Config}
  {call : JobConfig → (String → JobState) → Except DetectError (String → JobState)}

/-- One job of the loop over the jobs keeps what every call keeps: the call is made only when the
glob matches. -/
theorem matchedCall_ok_of_step (P : (String → JobState) → Prop)
    (hcall : ∀ k ∈ pipelineConfig.jobs, ∀ t t', P t → call k t = .ok t' → P t')
    {nextJobGlob : String} :
    ∀ k ∈ pipelineConfig.jobs, ∀ u u', P u →
      (if pathMatch nextJobGlob k.name then call k u else pure u) = .ok u' → P u' := by
  intro k hk u u' hu hif
  split at hif
  · exact hcall k hk u u' hu hif
  · cases hif; exact hu

theorem visitMatches_ok_of_step (P : (String → JobState) → Prop)
    (hcall : ∀ k ∈ pipelineConfig.jobs, ∀ t t', P t → call k t = .ok t' → P t')
    {nextJobGlob : String} {s s' : String → JobState} (hs : P s)
    (h : visitMatches pathMatch pipelineConfig call s nextJobGlob = .ok s') : P s' :=
  ExceptFold.foldlM_ok_of_step P pipelineConfig.jobs (matchedCall_ok_of_step P hcall) hs h

/-- A property of the map that every call keeps is kept by the loops. -/
theorem passed_ok_of_step (P : (String → JobState) → Prop)
    (hcall : ∀ k ∈ pipelineConfig.jobs, ∀ t t', P t → call k t = .ok t' → P t')
    {globs : List String} {s s' : String → JobState} (hs : P s)
    (h : globs.foldlM (visitMatches pathMatch pipelineConfig call) s = .ok s') : P s' :=
  ExceptFold.foldlM_ok_of_step P globs
    (fun _ _ _ _ ht hvisit => visitMatches_ok_of_step P hcall ht hvisit) hs h

/-- An error of the loops is the error of a call on a job that a glob of the loop matches, from a
map with the kept property. -/
theorem passed_error_of_step (P : (String → JobState) → Prop)
    (hcall : ∀ k ∈ pipelineConfig.jobs, ∀ t t', P t → call k t = .ok t' → P t')
    {globs : List String} {s : String → JobState} {e : DetectError} (hs : P s)
    (h : globs.foldlM (visitMatches pathMatch pipelineConfig call) s = .error e) :
    ∃ k ∈ pipelineConfig.jobs, ∃ nextJobGlob ∈ globs, pathMatch nextJobGlob k.name = true ∧
      ∃ t, P t ∧ call k t = .error e := by
  -- the glob whose loop failed, then the job of that loop whose call failed
  obtain ⟨nextJobGlob, hglob, t, ht, hvisit⟩ := ExceptFold.foldlM_error_of_step P globs
    (fun _ _ _ _ ht hvisit => visitMatches_ok_of_step P hcall ht hvisit) hs h
  obtain ⟨k, hk, u, hu, hif⟩ :=
    ExceptFold.foldlM_error_of_step P pipelineConfig.jobs (matchedCall_ok_of_step P hcall) ht hvisit
  split at hif
  · rename_i hmatch
    exact ⟨k, hk, nextJobGlob, hglob, hmatch, u, hu, hif⟩
  · cases hif

/-- After the loop over the jobs of one glob, every job the glob matches is `Visited`, when each
call leaves its job `Visited` and keeps `Visited` names so. -/
theorem visitMatches_visited
    (hcall : ∀ k t t', call k t = .ok t' → Grows t t' ∧ t' k.name = .visited)
    (nextJobGlob : String) :
    ∀ (l : List JobConfig) {s s' : String → JobState},
      l.foldlM (fun visited job =>
          if pathMatch nextJobGlob job.name then call job visited else pure visited) s = .ok s' →
        Grows s s' ∧ ∀ k ∈ l, pathMatch nextJobGlob k.name = true → s' k.name = .visited
  | [], _, _, h => by
    cases h
    exact ⟨Grows.refl _, by simp⟩
  | k :: l, s, s', h => by
    simp only [List.foldlM_cons, bind, Except.bind] at h
    split at h
    · cases h
    · rename_i t ht
      obtain ⟨hgrow, hrest⟩ := visitMatches_visited hcall nextJobGlob l h
      -- the first job is `Visited` after its call, and stays so
      have hfirst : Grows s t ∧ (pathMatch nextJobGlob k.name = true → t k.name = .visited) := by
        split at ht
        · exact ⟨(hcall k s t ht).1, fun _ => (hcall k s t ht).2⟩
        · rename_i hno
          cases ht
          exact ⟨Grows.refl _, fun hyes => absurd hyes hno⟩
      refine ⟨hfirst.1.trans hgrow, fun k' hk' hmatch => ?_⟩
      rcases List.mem_cons.mp hk' with rfl | hk'
      · exact hgrow.visited (hfirst.2 hmatch)
      · exact hrest k' hk' hmatch

/-- After the loops of a level, every job a glob of the level matches is `Visited`. -/
theorem passed_visited
    (hcall : ∀ k t t', call k t = .ok t' → Grows t t' ∧ t' k.name = .visited) :
    ∀ (globs : List String) {s s' : String → JobState},
      globs.foldlM (visitMatches pathMatch pipelineConfig call) s = .ok s' →
        ∀ nextJobGlob ∈ globs, ∀ k ∈ pipelineConfig.jobs, pathMatch nextJobGlob k.name = true →
          s' k.name = .visited
  | [], _, _, _ => by simp
  | g :: globs, s, s', h => by
    simp only [List.foldlM_cons, bind, Except.bind] at h
    split at h
    · cases h
    · rename_i t ht
      have hgrow : Grows t s' :=
        passed_ok_of_step (Grows t) (fun _ _ u u' hu hc => hu.trans (hcall _ u u' hc).1)
          (Grows.refl t) h
      intro nextJobGlob hglob k hk hmatch
      rcases List.mem_cons.mp hglob with rfl | hglob
      · exact hgrow.visited ((visitMatches_visited hcall nextJobGlob _ ht).2 k hk hmatch)
      · exact passed_visited hcall globs h nextJobGlob hglob k hk hmatch

end Loops

/-! ## Searches that return -/

section Returns

variable {pathMatch : String → String → Bool} {pipelineConfig : Atc.Config}

/-- A search that returns leaves its job `Visited` and takes names only from `NotVisited` to
`Visited`.  Induction on the levels; the loops keep `Grows` from the map the level starts them
with. -/
theorem detectCycle_ok :
    ∀ {fuel : Nat} {k : JobConfig} {v w : String → JobState},
      detectCycle pathMatch pipelineConfig fuel k v = .ok w → Grows v w ∧ w k.name = .visited
  | 0, _, _, _, h => by cases h
  | fuel + 1, k, v, w, h => by
    rcases detectCycle_eq_ok h with ⟨hv, rfl⟩ | ⟨hv, u, hu, rfl⟩
    · exact ⟨Grows.refl _, hv⟩
    · have hgrow : Grows (Function.update v k.name .visiting) u :=
        passed_ok_of_step _ (fun _ _ t t' ht hc => ht.trans (detectCycle_ok hc).1)
          (Grows.refl _) hu
      refine ⟨fun n => ?_, by simp⟩
      by_cases hn : n = k.name
      · subst hn
        exact .inr ⟨hv, by simp⟩
      · -- a name other than the job's changes as in the loops
        rcases hgrow n with h' | ⟨h₁, h₂⟩
        · exact .inl (by simp [Function.update_of_ne hn, h'])
        · simp only [Function.update_of_ne hn] at h₁ h₂ ⊢
          exact .inr ⟨h₁, h₂⟩

/-- The loops of a level grow the map they start with. -/
theorem passed_grows {fuel : Nat} {globs : List String} {s s' : String → JobState}
    (h : globs.foldlM (visitMatches pathMatch pipelineConfig
      (detectCycle pathMatch pipelineConfig fuel)) s = .ok s') : Grows s s' :=
  passed_ok_of_step (Grows s) (fun _ _ _ _ ht hc => ht.trans (detectCycle_ok hc).1)
    (Grows.refl s) h

/-- After the loops of a level, every job that the level's job depends on is `Visited`. -/
theorem passed_edges_visited {fuel : Nat} {k : JobConfig} {s s' : String → JobState}
    (h : (passedGlobs k).foldlM (visitMatches pathMatch pipelineConfig
      (detectCycle pathMatch pipelineConfig fuel)) s = .ok s') :
    ∀ m, Edge pathMatch pipelineConfig k m → s' m.name = .visited := by
  rintro m ⟨hm, nextJobGlob, hglob, hmatch⟩
  exact passed_visited (fun _ _ _ hc => detectCycle_ok hc) _ h nextJobGlob hglob m hm hmatch

/-- A level that fails below its job fails in the search of a job it depends on, from a map grown
from the one its loops start with. -/
theorem detectCycle_error_below {fuel : Nat} {k : JobConfig} {v : String → JobState}
    {e : DetectError} (hv : v k.name = .notVisited)
    (h : detectCycle pathMatch pipelineConfig (fuel + 1) k v = .error e) :
    ∃ m, Edge pathMatch pipelineConfig k m ∧ ∃ t, Grows (Function.update v k.name .visiting) t ∧
      detectCycle pathMatch pipelineConfig fuel m t = .error e := by
  rcases detectCycle_eq_error h with hv' | ⟨-, he⟩
  · rw [hv] at hv'; cases hv'
  · obtain ⟨m, hm, nextJobGlob, hglob, hmatch, t, hgrow, hcall⟩ :=
      passed_error_of_step (Grows (Function.update v k.name .visiting))
        (fun _ _ _ _ ht hc => ht.trans (detectCycle_ok hc).1) (Grows.refl _) he
    exact ⟨m, ⟨hm, nextJobGlob, hglob, hmatch⟩, t, hgrow, hcall⟩

end Returns

/-! ## The error is a cycle -/

section Sound

variable {pathMatch : String → String → Bool} {pipelineConfig : Atc.Config}

/-- Every `Visiting` name is the name of a job that reaches `k` in the graph. -/
def StackReaches (pathMatch : String → String → Bool) (pipelineConfig : Atc.Config)
    (v : String → JobState) (k : JobConfig) : Prop :=
  ∀ n, v n = .visiting →
    ∃ x ∈ pipelineConfig.jobs, x.name = n ∧ TransGen (Edge pathMatch pipelineConfig) x k

/-- The graph cannot tell apart two jobs of one name. -/
theorem edge_of_name_eq {x k k' : JobConfig} (h : Edge pathMatch pipelineConfig x k)
    (hk' : k' ∈ pipelineConfig.jobs) (hname : k'.name = k.name) :
    Edge pathMatch pipelineConfig x k' := by
  obtain ⟨-, nextJobGlob, hglob, hmatch⟩ := h
  exact ⟨hk', nextJobGlob, hglob, hname ▸ hmatch⟩

/-- A search whose `Visiting` names all reach its job gives the error only on a cycle.
Induction on the levels: a level that meets a `Visiting` name closes a cycle through the job of
that name, and a level that marks its job passes the property on to the jobs it depends on. -/
theorem detectCycle_error_cycle :
    ∀ {fuel : Nat} {k : JobConfig} {v : String → JobState} {message : String},
      k ∈ pipelineConfig.jobs → StackReaches pathMatch pipelineConfig v k →
        detectCycle pathMatch pipelineConfig fuel k v = .error (.err message) →
          ∃ x, TransGen (Edge pathMatch pipelineConfig) x x
  | 0, _, _, _, _, _, h => by cases h
  | fuel + 1, k, v, message, hk, hstack, h => by
    cases hv : v k.name with
    | visiting =>
      -- the job `x` of the name reaches `k`, and what reaches `k` reaches `x`
      obtain ⟨x, hx, hname, hxk⟩ := hstack _ hv
      obtain ⟨z, hxz, hzk⟩ := TransGen.tail'_iff.mp hxk
      exact ⟨x, TransGen.tail' hxz (edge_of_name_eq hzk hx hname)⟩
    | visited => rw [detectCycle_visited hv] at h; cases h
    | notVisited =>
      obtain ⟨m, hedge, t, hgrow, hcall⟩ := detectCycle_error_below hv h
      refine detectCycle_error_cycle hedge.1 (fun n hn => ?_) hcall
      -- the `Visiting` names below `k` are those above it and `k`'s own
      rw [hgrow.visiting_iff] at hn
      by_cases hnk : n = k.name
      · exact ⟨k, hk, hnk.symm, TransGen.single hedge⟩
      · rw [Function.update_of_ne hnk] at hn
        obtain ⟨x, hx, hname, hxk⟩ := hstack n hn
        exact ⟨x, hx, hname, hxk.tail hedge⟩

end Sound

/-! ## Searches that return leave the graph closed -/

section Complete

variable {pathMatch : String → String → Bool} {pipelineConfig : Atc.Config}

/-- Every `Visited` job has its dependencies `Visited`. -/
def Closed (pathMatch : String → String → Bool) (pipelineConfig : Atc.Config)
    (v : String → JobState) : Prop :=
  ∀ x ∈ pipelineConfig.jobs, v x.name = .visited →
    ∀ m, Edge pathMatch pipelineConfig x m → v m.name = .visited

/-- From a `Visited` job of a closed map, everything reachable is `Visited`. -/
theorem Closed.reach {v : String → JobState} (hclosed : Closed pathMatch pipelineConfig v)
    {x y : JobConfig} (hx : x ∈ pipelineConfig.jobs) (hvx : v x.name = .visited)
    (hxy : ReflTransGen (Edge pathMatch pipelineConfig) x y) : v y.name = .visited := by
  induction hxy with
  | refl => exact hvx
  | tail hxz hzy ih =>
    -- the job before the last edge is a job of the config unless it is `x` itself
    rename_i z y'
    have hz : z ∈ pipelineConfig.jobs := by
      rcases hxz.cases_tail with rfl | ⟨w, -, hwz⟩
      · exact hx
      · exact hwz.1
    exact hclosed z hz ih y' hzy

/-- With distinct names, a search that returns keeps the map closed.  Induction on the levels:
marking the job `Visiting` keeps the map closed, the loops keep it so, and after them every
dependency of the job is `Visited` (`passed_edges_visited`), so marking the job `Visited` does too. -/
theorem detectCycle_closed (hnames : (pipelineConfig.jobs.map JobConfig.name).Nodup) :
    ∀ {fuel : Nat} {k : JobConfig} {v w : String → JobState}, k ∈ pipelineConfig.jobs →
      Closed pathMatch pipelineConfig v →
        detectCycle pathMatch pipelineConfig fuel k v = .ok w → Closed pathMatch pipelineConfig w
  | 0, _, _, _, _, _, h => by cases h
  | fuel + 1, k, v, w, hk, hclosed, h => by
    rcases detectCycle_eq_ok h with ⟨-, rfl⟩ | ⟨hv, u, hu, rfl⟩
    · exact hclosed
    · -- marking `k` `Visiting` touches no `Visited` name
      have hclosed₁ : Closed pathMatch pipelineConfig (Function.update v k.name .visiting) := by
        intro x hx hvx m hxm
        have hxk : x.name ≠ k.name := fun he => by simp [he] at hvx
        rw [Function.update_of_ne hxk] at hvx
        have hvm := hclosed x hx hvx m hxm
        have hmk : m.name ≠ k.name := fun he => by rw [he, hv] at hvm; cases hvm
        rw [Function.update_of_ne hmk]
        exact hvm
      have hloops : Closed pathMatch pipelineConfig u :=
        passed_ok_of_step _ (fun m hm _ _ ht hc => detectCycle_closed hnames hm ht hc) hclosed₁ hu
      have hdeps := passed_edges_visited hu
      intro x hx hvx m hxm
      by_cases hxk : x.name = k.name
      · -- with distinct names, `x` is `k`
        obtain rfl : x = k := List.inj_on_of_nodup_map hnames hx hk hxk
        by_cases hmk : m.name = x.name
        · simp [hmk]
        · rw [Function.update_of_ne hmk]; exact hdeps m hxm
      · rw [Function.update_of_ne hxk] at hvx
        have hum := hloops x hx hvx m hxm
        by_cases hmk : m.name = k.name
        · simp [hmk]
        · rw [Function.update_of_ne hmk]; exact hum

end Complete

/-! ## Enough levels -/

section Fuel

variable {pathMatch : String → String → Bool} {pipelineConfig : Atc.Config}

/-- The jobs whose names are `NotVisited`. -/
def notVisitedCount (pipelineConfig : Atc.Config) (v : String → JobState) : Nat :=
  pipelineConfig.jobs.countP fun x => v x.name = .notVisited

theorem notVisitedCount_le_of_grows {v w : String → JobState} (h : Grows v w) :
    notVisitedCount pipelineConfig w ≤ notVisitedCount pipelineConfig v :=
  List.countP_mono_left fun x _ hx => by simpa using h.notVisited (by simpa using hx)

/-- Marking a job of the config `Visiting` leaves fewer jobs `NotVisited`. -/
theorem notVisitedCount_update_lt {v : String → JobState} {k : JobConfig}
    (hk : k ∈ pipelineConfig.jobs) (hv : v k.name = .notVisited) :
    notVisitedCount pipelineConfig (Function.update v k.name .visiting) <
      notVisitedCount pipelineConfig v := by
  unfold notVisitedCount
  simp only [List.countP_eq_length_filter]
  -- the jobs left `NotVisited` are among those before, and `k` is not among them
  have hsub := List.monotone_filter_right pipelineConfig.jobs
    (p := fun x => Function.update v k.name .visiting x.name = .notVisited)
    (q := fun x => v x.name = .notVisited) fun x hx => by
      by_cases hxk : x.name = k.name <;> simp_all
  refine Nat.lt_of_le_of_ne hsub.length_le fun hlen => ?_
  have hmem : k ∈ pipelineConfig.jobs.filter fun x => v x.name = .notVisited :=
    List.mem_filter.mpr ⟨hk, by simp [hv]⟩
  rw [← hsub.eq_of_length hlen] at hmem
  simp at hmem

/-- A search with more levels than there are `NotVisited` jobs never runs out.  Induction on the
levels: a level marks a new job, so the searches below it have one level and one job fewer. -/
theorem detectCycle_ne_outOfFuel :
    ∀ {fuel : Nat} {k : JobConfig} {v : String → JobState}, k ∈ pipelineConfig.jobs →
      notVisitedCount pipelineConfig v < fuel →
        detectCycle pathMatch pipelineConfig fuel k v ≠ .error .outOfFuel
  | 0, _, _, _, hfuel, _ => absurd hfuel (Nat.not_lt_zero _)
  | fuel + 1, k, v, hk, hfuel, h => by
    cases hv : v k.name with
    | visiting => rw [detectCycle_visiting hv] at h; cases h
    | visited => rw [detectCycle_visited hv] at h; cases h
    | notVisited =>
      obtain ⟨m, hedge, t, hgrow, hcall⟩ := detectCycle_error_below hv h
      have hlt := notVisitedCount_update_lt hk hv
      have hcount : notVisitedCount pipelineConfig t ≤
          notVisitedCount pipelineConfig (Function.update v k.name .visiting) :=
        notVisitedCount_le_of_grows hgrow
      exact detectCycle_ne_outOfFuel hedge.1 (by omega) hcall

end Fuel

/-! ## `validateCycle` -/

section Validate

variable {pathMatch : String → String → Bool} {pipelineConfig : Atc.Config}

/-- Each search of an accepted config returns. -/
theorem validateCycle_eq_ok (h : validateCycle pathMatch pipelineConfig = .ok ()) :
    ∀ r ∈ pipelineConfig.jobs, ∃ w, detectCycle pathMatch pipelineConfig
      (pipelineConfig.jobs.length + 1) r (fun _ => .notVisited) = .ok w := by
  intro r hr
  have hmap := ExceptFold.forM_ok h r hr
  cases hd : detectCycle pathMatch pipelineConfig (pipelineConfig.jobs.length + 1) r
      (fun _ => .notVisited) with
  | error e => simp [hd, Except.map] at hmap
  | ok w => exact ⟨w, rfl⟩

/-- The error of `validateCycle` is the error of the search from one job. -/
theorem validateCycle_eq_error {e : DetectError}
    (h : validateCycle pathMatch pipelineConfig = .error e) :
    ∃ r ∈ pipelineConfig.jobs, detectCycle pathMatch pipelineConfig
      (pipelineConfig.jobs.length + 1) r (fun _ => .notVisited) = .error e := by
  obtain ⟨r, hr, hmap⟩ := ExceptFold.forM_error h
  refine ⟨r, hr, ?_⟩
  cases hd : detectCycle pathMatch pipelineConfig (pipelineConfig.jobs.length + 1) r
      (fun _ => .notVisited) with
  | error e' => simp only [hd, Except.map, Except.error.injEq] at hmap; rw [hmap]
  | ok w => simp [hd, Except.map] at hmap

/-- `validateCycle` never runs out of levels: a fresh map has at most as many `NotVisited` jobs
as the config has jobs. -/
theorem validateCycle_ne_outOfFuel :
    validateCycle pathMatch pipelineConfig ≠ .error .outOfFuel := by
  intro h
  obtain ⟨r, hr, hd⟩ := validateCycle_eq_error h
  exact detectCycle_ne_outOfFuel hr (Nat.lt_succ_of_le (List.countP_le_length)) hd

/-- The error of `validateCycle` is given only on a cycle, whatever the names of the jobs. -/
theorem validateCycle_error_cycle {message : String}
    (h : validateCycle pathMatch pipelineConfig = .error (.err message)) :
    ¬Acyclic (Edge pathMatch pipelineConfig) := by
  obtain ⟨r, hr, hd⟩ := validateCycle_eq_error h
  obtain ⟨x, hx⟩ := detectCycle_error_cycle hr (fun n hn => by simp at hn) hd
  exact fun hacyclic => hacyclic x hx

/-- With distinct job names, a config that `validateCycle` accepts has no cycle: the search from
a job on a cycle leaves the next job of the cycle `Visited`, so, the map being closed, the job
itself, which is `Visiting` until its loops are done. -/
theorem acyclic_of_validateCycle_ok (hnames : (pipelineConfig.jobs.map JobConfig.name).Nodup)
    (h : validateCycle pathMatch pipelineConfig = .ok ()) :
    Acyclic (Edge pathMatch pipelineConfig) := by
  intro r hcycle
  obtain ⟨m, hrm, hmr⟩ := TransGen.head'_iff.mp hcycle
  have hr : r ∈ pipelineConfig.jobs := by
    obtain ⟨z, -, hzr⟩ := TransGen.tail'_iff.mp hcycle
    exact hzr.1
  obtain ⟨w, hd⟩ := validateCycle_eq_ok h r hr
  rcases detectCycle_eq_ok hd with ⟨hv, -⟩ | ⟨-, u, hu, -⟩
  · simp at hv
  · -- nothing is `Visited` when the loops from `r` start
    have hclosed₀ : Closed pathMatch pipelineConfig
        (Function.update (fun _ => .notVisited) r.name .visiting) := by
      intro x _ hx
      by_cases hxr : x.name = r.name <;> simp [hxr] at hx
    have hclosed : Closed pathMatch pipelineConfig u :=
      passed_ok_of_step _ (fun k hk _ _ ht hc => detectCycle_closed hnames hk ht hc) hclosed₀ hu
    -- `r` is reachable from `m`, so `Visited`, yet still `Visiting`
    have hvr : u r.name = .visited := hclosed.reach hrm.1 (passed_edges_visited hu m hrm) hmr
    have hvisiting : u r.name = .visiting := ((passed_grows hu).visiting_iff r.name).mpr (by simp)
    rw [hvr] at hvisiting
    cases hvisiting

/-- With distinct job names, `validateCycle` gives its error exactly when the dependency graph
has a cycle. -/
theorem validateCycle_error_iff_cycle (hnames : (pipelineConfig.jobs.map JobConfig.name).Nodup) :
    (∃ message, validateCycle pathMatch pipelineConfig = .error (.err message)) ↔
      ¬Acyclic (Edge pathMatch pipelineConfig) := by
  constructor
  · rintro ⟨message, h⟩
    exact validateCycle_error_cycle h
  · intro hcycle
    cases h : validateCycle pathMatch pipelineConfig with
    | ok u => exact absurd (acyclic_of_validateCycle_ok hnames h) hcycle
    | error e =>
      cases e with
      | err message => exact ⟨message, rfl⟩
      | outOfFuel => exact absurd h validateCycle_ne_outOfFuel

end Validate

/-- A job whose plan is one get with the given `passed` globs. -/
def passedJob (name : String) (passed : List String) : JobConfig :=
  ⟨name, 0, none, none, none, none, none, none, [.mk (.get "input" "" passed []) []]⟩

/-- Two jobs that each get what the other passed. -/
def mutualConfig : Atc.Config :=
  ⟨[], [], [passedJob "unit" ["deploy"], passedJob "deploy" ["unit"]]⟩

theorem validateCycle_error_iff_cycle_mutual :
    (mutualConfig.jobs.map JobConfig.name).Nodup ∧
      ((∃ message, validateCycle (· == ·) mutualConfig = .error (.err message)) ↔
        ¬Acyclic (Edge (· == ·) mutualConfig)) :=
  ⟨by decide +kernel, validateCycle_error_iff_cycle (by decide +kernel)⟩

/-- Two pairs of jobs of one name: the jobs of the second pair depend on each other, and those of
the first on nothing. -/
def duplicateNamesConfig : Atc.Config :=
  ⟨[], [], [passedJob "unit" [], passedJob "deploy" [], passedJob "unit" ["deploy"],
    passedJob "deploy" ["unit"]]⟩

/-- With two jobs of a name, a cycle goes unreported: the search from the third job marks
`deploy` `Visited` at the second job and so never searches the fourth. -/
theorem validateCycle_duplicate_names_miss :
    validateCycle (· == ·) duplicateNamesConfig = .ok () ∧
      ¬Acyclic (Edge (· == ·) duplicateNamesConfig) := by
  refine ⟨by decide +kernel, fun hacyclic => hacyclic (passedJob "unit" ["deploy"]) ?_⟩
  have hunit : Edge (· == ·) duplicateNamesConfig (passedJob "unit" ["deploy"])
      (passedJob "deploy" ["unit"]) :=
    ⟨by simp [duplicateNamesConfig], "deploy", by decide +kernel, by decide +kernel⟩
  have hdeploy : Edge (· == ·) duplicateNamesConfig (passedJob "deploy" ["unit"])
      (passedJob "unit" ["deploy"]) :=
    ⟨by simp [duplicateNamesConfig], "unit", by decide +kernel, by decide +kernel⟩
  exact TransGen.head hunit (TransGen.single hdeploy)


end ConfigValidate
end Atc
end Concourse
