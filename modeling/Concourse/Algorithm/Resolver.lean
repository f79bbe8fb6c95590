import Mathlib.Data.List.Permutation
import Concourse.Db.VersionsDB
import Concourse.Lib.LastMatch

/-!
# Splitting the inputs of a job between resolvers

`atc/scheduler/algorithm/resolver.go`: `constructResolvers` gives every input without a
`passed` constraint a resolver of its own, pinned or individual, and hands the inputs with
one to `groupInputsConfigsByPassedJobs`, which sorts them into groups, one `groupResolver`
each.  Only a group resolver makes two inputs passed through the same job take their
versions from one build of it.

The grouping adds each input to a group that shares one of its jobs, when there is one,
and otherwise opens a new group.  What holds for every list of inputs: each input lands in
exactly one group (`groupInputsConfigsByPassedJobs_perm`), the jobs of a group are those of
its inputs (`groupInputsConfigsByPassedJobs_wellFormed`), and an input opens a group only
when no group shares a job with it.  Two groups are never merged, though, so an input
whose jobs lie in two earlier groups joins one of them and leaves the two sharing a job.
-/

namespace Concourse
namespace Algorithm

open Db List

/-- `relatedInputConfigs`: a group of inputs and the set of jobs they are passed through. -/
structure RelatedInputConfigs where
  passedJobs : List Nat
  inputConfigs : List InputConfig
  deriving DecidableEq, Repr

/-- The inner loops of `groupInputsConfigsByPassedJobs`: for every job of the input, in map
order, every group holding that job sets `found` and `index`, so the last one wins. -/
def findRelatedGroup (groups : List RelatedInputConfigs) (passed : List Nat) : Option Nat :=
  passed.foldl (fun found passedJob =>
    groups.zipIdx.foldl (fun found entry =>
      if passedJob ∈ entry.1.passedJobs then some entry.2 else found) found) none

/-- Setting `passedJobs[jobID] = true` for every job of an input. -/
def insertJobs (passedJobs passed : List Nat) : List Nat :=
  passed.foldl (fun jobs jobID => jobs.insert jobID) passedJobs

/-- One iteration of the loop of `groupInputsConfigsByPassedJobs`: join the group found, or
open a new one. -/
def groupInputConfig (groups : List RelatedInputConfigs) (inputConfig : InputConfig) :
    List RelatedInputConfigs :=
  match findRelatedGroup groups inputConfig.passed with
  | some index =>
    groups.modify index fun group =>
      { passedJobs := insertJobs group.passedJobs inputConfig.passed
        inputConfigs := group.inputConfigs ++ [inputConfig] }
  | none =>
    groups ++ [{ passedJobs := insertJobs [] inputConfig.passed, inputConfigs := [inputConfig] }]

/-- `groupInputsConfigsByPassedJobs`. -/
def groupInputsConfigsByPassedJobs (passedInputConfigs : List InputConfig) :
    List RelatedInputConfigs :=
  passedInputConfigs.foldl groupInputConfig []

/-- The resolvers `constructResolvers` builds. -/
inductive Resolver where
  | pinned (inputConfig : InputConfig)
  | individual (inputConfig : InputConfig)
  | group (inputConfigs : List InputConfig)
  deriving DecidableEq, Repr

/-- `constructResolvers`: the inputs without `passed` in order, then one group resolver per
group.  It never fails. -/
def constructResolvers (inputs : List InputConfig) : List Resolver :=
  let resolvers := (inputs.filter (·.passed.isEmpty)).map fun input =>
    if input.pinnedVersion.isSome then Resolver.pinned input else Resolver.individual input
  let inputConfigsWithPassed := inputs.filter fun input => !input.passed.isEmpty
  resolvers ++ (groupInputsConfigsByPassedJobs inputConfigsWithPassed).map
    fun group => Resolver.group group.inputConfigs

/-! ## The group found for an input -/

theorem findRelatedGroup_eq_none_iff {groups : List RelatedInputConfigs} {passed : List Nat} :
    findRelatedGroup groups passed = none ↔
      ∀ jobID ∈ passed, ∀ group ∈ groups, jobID ∉ group.passedJobs := by
  have h := LastMatch.foldl_foldl_overwrite_eq_none Prod.snd (fun _ => groups.zipIdx)
    (fun passedJob (entry : RelatedInputConfigs × Nat) => passedJob ∈ entry.1.passedJobs)
    passed none
  refine h.trans ⟨fun hnone jobID hjob group hgroup => ?_, fun hall => ⟨rfl, ?_⟩⟩
  · -- a group of the list is an entry of its `zipIdx`
    obtain ⟨i, hi⟩ := List.getElem?_of_mem hgroup
    exact hnone.2 jobID hjob (group, i) (List.mem_zipIdx_iff_getElem?.mpr hi)
  · intro jobID hjob entry hentry
    exact hall jobID hjob entry.1 (List.mem_of_getElem? (List.mem_zipIdx_iff_getElem?.mp hentry))

/-- The group found holds one of the input's jobs. -/
theorem findRelatedGroup_eq_some {groups : List RelatedInputConfigs} {passed : List Nat}
    {index : Nat} (h : findRelatedGroup groups passed = some index) :
    ∃ group, groups[index]? = some group ∧ ∃ jobID ∈ passed, jobID ∈ group.passedJobs := by
  rcases LastMatch.foldl_foldl_overwrite_eq_some Prod.snd (fun _ => groups.zipIdx)
      (fun passedJob (entry : RelatedInputConfigs × Nat) => passedJob ∈ entry.1.passedJobs) h
    with hnone | ⟨jobID, hjob, entry, hentry, hmem, rfl⟩
  · cases hnone
  · exact ⟨entry.1, List.mem_zipIdx_iff_getElem?.mp hentry, jobID, hjob, hmem⟩

@[simp] theorem mem_insertJobs {passedJobs passed : List Nat} {jobID : Nat} :
    jobID ∈ insertJobs passedJobs passed ↔ jobID ∈ passedJobs ∨ jobID ∈ passed := by
  induction passed generalizing passedJobs with
  | nil => simp [insertJobs]
  | cons j js ih =>
    simp only [insertJobs, List.foldl_cons] at ih ⊢
    rw [ih, List.mem_insert_iff, List.mem_cons]
    tauto

/-! ## Every input lands in exactly one group -/

/-- The inputs of all groups, group after group. -/
def groupedInputs (groups : List RelatedInputConfigs) : List InputConfig :=
  groups.flatMap (·.inputConfigs)

/-- Appending an input to one group of the list appends it to the grouped inputs, up to
order. -/
theorem groupedInputs_modify_perm {inputConfig : InputConfig}
    {f : RelatedInputConfigs → RelatedInputConfigs}
    (hf : ∀ group, (f group).inputConfigs = group.inputConfigs ++ [inputConfig]) :
    ∀ (groups : List RelatedInputConfigs) (index : Nat), index < groups.length →
      (groupedInputs (groups.modify index f)).Perm (groupedInputs groups ++ [inputConfig]) := by
  intro groups
  induction groups with
  | nil =>
    intro index hindex
    cases hindex
  | cons group groups ih =>
    intro index hindex
    cases index with
    | zero =>
      simp only [List.modify_zero_cons, groupedInputs, List.flatMap_cons, hf, List.append_assoc]
      exact List.Perm.append_left _ List.perm_append_comm
    | succ index =>
      simp only [List.modify_succ_cons, groupedInputs, List.flatMap_cons, List.append_assoc]
      exact List.Perm.append_left _ (ih index (by simpa using hindex))

theorem groupInputConfig_perm (groups : List RelatedInputConfigs) (inputConfig : InputConfig) :
    (groupedInputs (groupInputConfig groups inputConfig)).Perm
      (groupedInputs groups ++ [inputConfig]) := by
  unfold groupInputConfig
  cases hfound : findRelatedGroup groups inputConfig.passed with
  | none => simp [groupedInputs]
  | some index =>
    obtain ⟨_, hgroup, -⟩ := findRelatedGroup_eq_some hfound
    exact groupedInputs_modify_perm (fun _ => rfl) groups index
      (List.getElem?_eq_some_iff.mp hgroup).1

/-- Every input is in exactly one group, and every input of a group is an input. -/
theorem groupInputsConfigsByPassedJobs_perm (passedInputConfigs : List InputConfig) :
    (groupedInputs (groupInputsConfigsByPassedJobs passedInputConfigs)).Perm
      passedInputConfigs := by
  -- the loop invariant: the groups hold the inputs seen so far
  suffices h : ∀ (groups : List RelatedInputConfigs) (inputs : List InputConfig),
      (groupedInputs (inputs.foldl groupInputConfig groups)).Perm (groupedInputs groups ++ inputs) by
    simpa [groupedInputs, groupInputsConfigsByPassedJobs] using h [] passedInputConfigs
  intro groups inputs
  induction inputs generalizing groups with
  | nil => simp
  | cons inputConfig inputs ih =>
    rw [List.foldl_cons]
    calc groupedInputs (inputs.foldl groupInputConfig (groupInputConfig groups inputConfig))
        _ ~ groupedInputs (groupInputConfig groups inputConfig) ++ inputs := ih _
        _ ~ (groupedInputs groups ++ [inputConfig]) ++ inputs :=
          (groupInputConfig_perm groups inputConfig).append_right _
        _ = groupedInputs groups ++ inputConfig :: inputs := by simp

/-! ## The jobs of a group are the jobs of its inputs -/

/-- A group's jobs are exactly those its inputs are passed through. -/
def RelatedInputConfigs.WellFormed (group : RelatedInputConfigs) : Prop :=
  ∀ jobID, jobID ∈ group.passedJobs ↔ ∃ inputConfig ∈ group.inputConfigs, jobID ∈ inputConfig.passed

theorem wellFormed_join {group : RelatedInputConfigs} (hgroup : group.WellFormed)
    (inputConfig : InputConfig) :
    RelatedInputConfigs.WellFormed
      { passedJobs := insertJobs group.passedJobs inputConfig.passed
        inputConfigs := group.inputConfigs ++ [inputConfig] } := by
  intro jobID
  simp only [mem_insertJobs, hgroup jobID, List.mem_append, List.mem_singleton]
  constructor
  · rintro (⟨c, hc, hj⟩ | hj)
    · exact ⟨c, Or.inl hc, hj⟩
    · exact ⟨inputConfig, Or.inr rfl, hj⟩
  · rintro ⟨c, hc | rfl, hj⟩
    · exact Or.inl ⟨c, hc, hj⟩
    · exact Or.inr hj

theorem groupInputConfig_wellFormed {groups : List RelatedInputConfigs}
    (hgroups : ∀ group ∈ groups, group.WellFormed) (inputConfig : InputConfig) :
    ∀ group ∈ groupInputConfig groups inputConfig, group.WellFormed := by
  unfold groupInputConfig
  cases findRelatedGroup groups inputConfig.passed with
  | none =>
    -- a new group holds the input and its jobs
    intro group hgroup
    rcases List.mem_append.mp hgroup with hgroup | hgroup
    · exact hgroups group hgroup
    · rw [List.mem_singleton.mp hgroup]
      intro jobID
      simp
  | some index =>
    intro group hgroup
    obtain ⟨i, hi⟩ := List.getElem?_of_mem hgroup
    by_cases hindex : index = i
    · -- the group the input joined
      subst hindex
      rw [List.getElem?_modify_eq, Option.map_eq_map, Option.map_eq_some_iff] at hi
      obtain ⟨old, hold, rfl⟩ := hi
      exact wellFormed_join (hgroups old (List.mem_of_getElem? hold)) inputConfig
    · rw [List.getElem?_modify_ne _ _ hindex] at hi
      exact hgroups group (List.mem_of_getElem? hi)

theorem groupInputsConfigsByPassedJobs_wellFormed (passedInputConfigs : List InputConfig) :
    ∀ group ∈ groupInputsConfigsByPassedJobs passedInputConfigs, group.WellFormed := by
  suffices h : ∀ (groups : List RelatedInputConfigs), (∀ group ∈ groups, group.WellFormed) →
      ∀ group ∈ passedInputConfigs.foldl groupInputConfig groups, group.WellFormed from
    h [] (by simp)
  induction passedInputConfigs with
  | nil => exact fun _ hgroups => hgroups
  | cons inputConfig inputs ih =>
    intro groups hgroups
    exact ih _ (groupInputConfig_wellFormed hgroups inputConfig)

/-! ## Groups are never merged -/

/-- An input opens a group of its own only when no group shares one of its jobs. -/
theorem groupInputConfig_length (groups : List RelatedInputConfigs) (inputConfig : InputConfig) :
    (groupInputConfig groups inputConfig).length =
      if ∃ jobID ∈ inputConfig.passed, ∃ group ∈ groups, jobID ∈ group.passedJobs then
        groups.length
      else groups.length + 1 := by
  unfold groupInputConfig
  cases hfound : findRelatedGroup groups inputConfig.passed with
  | none =>
    have hnone := findRelatedGroup_eq_none_iff.mp hfound
    rw [if_neg]
    · simp
    · rintro ⟨jobID, hjob, group, hgroup, hmem⟩
      exact hnone jobID hjob group hgroup hmem
  | some index =>
    obtain ⟨group, hgroup, jobID, hjob, hmem⟩ := findRelatedGroup_eq_some hfound
    rw [if_pos ⟨jobID, hjob, group, List.mem_of_getElem? hgroup, hmem⟩, List.length_modify]

/-- Three inputs passed through jobs `1`, `2`, and both.  The third input's jobs are a Go
map, met in any order. -/
def bridgeInputs (order : List Nat) : List InputConfig :=
  [{ name := "x", trigger := false, passed := [1], useEveryVersion := false,
     pinnedVersion := none, resourceID := 1, jobID := 3 },
   { name := "y", trigger := false, passed := [2], useEveryVersion := false,
     pinnedVersion := none, resourceID := 2, jobID := 3 },
   { name := "z", trigger := false, passed := order, useEveryVersion := false,
     pinnedVersion := none, resourceID := 3, jobID := 3 }]

/-- Whatever order the map of the third input yields its jobs in, the first two inputs make
two groups, the third joins one of them, and the two groups share a job. -/
theorem groupInputsConfigsByPassedJobs_bridge {order : List Nat} (horder : order.Perm [1, 2]) :
    ∃ group₁ group₂, groupInputsConfigsByPassedJobs (bridgeInputs order) = [group₁, group₂] ∧
      ∃ jobID, jobID ∈ group₁.passedJobs ∧ jobID ∈ group₂.passedJobs := by
  rcases List.perm_pair.mp horder with rfl | rfl
  · exact ⟨⟨[1], [(bridgeInputs [1, 2])[0]]⟩, ⟨[1, 2], (bridgeInputs [1, 2]).drop 1⟩,
      by decide, 1, by decide, by decide⟩
  · exact ⟨⟨[2, 1], [(bridgeInputs [2, 1])[0], (bridgeInputs [2, 1])[2]]⟩,
      ⟨[2], [(bridgeInputs [2, 1])[1]]⟩, by decide, 2, by decide, by decide⟩

theorem groupInputsConfigsByPassedJobs_bridge_swapped :
    [2, 1].Perm [1, 2] ∧ ∃ group₁ group₂,
      groupInputsConfigsByPassedJobs (bridgeInputs [2, 1]) = [group₁, group₂] ∧
      ∃ jobID, jobID ∈ group₁.passedJobs ∧ jobID ∈ group₂.passedJobs :=
  ⟨List.Perm.swap 1 2 [], groupInputsConfigsByPassedJobs_bridge (List.Perm.swap 1 2 [])⟩

end Algorithm
end Concourse
