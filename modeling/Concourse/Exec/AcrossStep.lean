import Concourse.Atc.Steps
import Concourse.Engine.AcrossSubsteps
import Concourse.Lib.LexProduct

/-!
# Running the substeps of an `across` step

`atc/exec/across_step.go`: `AcrossStep.Run` evaluates the values of each var, builds one substep
for each combination of values that `cartesianProduct` lists (`ConstructAcrossSubsteps`), and
runs them under nested `parallelExecutor`s.  The executor of a var that is not the last runs,
for each of its values, the executor of the next var over the slice of substeps that begins
with that value, `stepsPerValue` of them; the executor of the last var runs each substep of its
slice, in a scope where the vars are set to the substep's values.

`AcrossRun` is what those executors run: an executor with its count and what its `runFunc`
runs for each index, a substep's plan with its scope, or the panic of an index or a slice out
of range.  How an executor schedules its indices is `parallelExecutor.run`'s business; here an
executor is the tree of what its indices run.

`acrossStepRun_combinations` says that the combinations are the lexicographic product of the
values (`LexProduct.lexProduct`), and that the executors run each substep once, in order, the
one at the index path `[i₀, …]` being the substep of the values `V₀[i₀], …`.
-/

namespace Concourse
namespace Exec

open Atc Engine GoJson LexProduct

/-- `atc.AcrossVar`: a var of an `across` plan, with the limit on the values run at once. -/
structure AcrossVar where
  var : String
  maxInFlight : Option MaxInFlightConfig

section Product

variable {α : Type}

/-- `cartesianProduct` over the value lists in reverse order, the last var first. -/
def cartesianProductRev : List (List α) → List (List α)
  | [] => [[]]
  | last :: revInit =>
    (cartesianProductRev revInit).flatMap fun vec => last.map fun val => vec ++ [val]

/-- `cartesianProduct`: each combination of the vars but the last, followed by each value of the
last var.  `vec_copy` is made with no spare capacity, so each `append(vec_copy, val)` copies it
and no two combinations share a cell. -/
def cartesianProduct (varValues : List (List α)) : List (List α) :=
  cartesianProductRev varValues.reverse

/-- Go's recursion on all the vars but the last builds the product from its end. -/
theorem cartesianProductRev_eq : ∀ revValues : List (List α),
    cartesianProductRev revValues = lexProduct revValues.reverse
  | [] => rfl
  | last :: revInit => by
    rw [cartesianProductRev, cartesianProductRev_eq revInit, List.reverse_cons,
      lexProduct_append_singleton]

/-- The combinations come in lexicographic order, the first var's value changing slowest. -/
theorem cartesianProduct_eq_lexProduct (varValues : List (List α)) :
    cartesianProduct varValues = lexProduct varValues := by
  rw [cartesianProduct, cartesianProductRev_eq, List.reverse_reverse]

end Product

/-- What the executors of an `across` step run: a substep's plan in a scope where the vars are
set, an executor that runs, for each index below its count, what its `runFunc` runs, or a
panic. -/
inductive AcrossRun where
  | substep (plan : Plan) (scope : List (String × Value))
  | executor (maxInFlight : Option MaxInFlightConfig) (failFast : Bool) (count : Nat)
      (runFunc : Nat → AcrossRun)
  | panic (err : String)

namespace AcrossRun

/-- What runs when every index below every count runs: the substeps and panics that the
`runFunc`s reach, in the order of the indices. -/
def leaves : AcrossRun → List AcrossRun
  | .executor _ _ count runFunc => (List.range count).flatMap fun i => (runFunc i).leaves
  | run => [run]

/-- What runs at the index path `path`, one index for each nested executor. -/
def runAt : AcrossRun → List Nat → Option AcrossRun
  | run, [] => some run
  | .executor _ _ count runFunc, i :: path => if i < count then (runFunc i).runAt path else none
  | _, _ :: _ => none

end AcrossRun

section Executors

variable (vars : List AcrossVar) (failFast : Bool)

/-- The leaf executor's `runFunc` for one substep: its plan, in a scope where each var is set to
the substep's value at its place (`scope.AddLocalVar(v.Var, steps[i].Values[j])`). -/
def substepRun (step : Plan × List Value) : AcrossRun :=
  match localVarsOf (vars.map (·.var)) step.2 with
  | .ok scope => .substep step.1 scope
  | .error err => .panic err

/-- `acrossStepLeafExecutor`: one index for each substep of the slice. -/
def acrossStepLeafExecutor (lastVar : AcrossVar) (steps : List (Plan × List Value)) :
    AcrossRun :=
  .executor lastVar.maxInFlight failFast steps.length fun i =>
    match steps[i]? with
    | some step => substepRun vars step
    | none => .panic ("runtime error: index out of range [" ++ toString i ++ "] with length " ++
        toString steps.length)

/-- `acrossStepExecutor` at a var, given the vars from it on and their values: the last var's
executor is the leaf executor; another's runs, for each of its values, the next var's executor
over the slice `[i * stepsPerValue, (i + 1) * stepsPerValue)` of the substeps. -/
def acrossStepExecutor :
    List AcrossVar → List (List Value) → List (Plan × List Value) → AcrossRun
  | [lastVar], _, steps => acrossStepLeafExecutor vars failFast lastVar steps
  | var :: rest, values :: restValues, steps =>
    let stepsPerValue := (restValues.map List.length).prod
    .executor var.maxInFlight failFast values.length fun i =>
      if (i + 1) * stepsPerValue ≤ steps.length then
        acrossStepExecutor rest restValues ((steps.drop (i * stepsPerValue)).take stepsPerValue)
      else .panic "runtime error: slice bounds out of range"
  | _, _, _ => .panic "runtime error: index out of range"

end Executors

/-- `AcrossStep.Run` once the values are evaluated: the substeps of the product of the values,
and the executor of the first var over them. -/
def acrossStepRun (interpolate : List (String × Value) → Plan → Except TemplateError Plan)
    (saveEvent : List (Plan × List Value) → Except String Unit) (planID : PlanID)
    (template : Plan) (vars : List AcrossVar) (failFast : Bool)
    (varValues : List (List Value)) : Except String AcrossRun := do
  let substeps ← constructAcrossSubsteps interpolate saveEvent planID template
    (vars.map (·.var)) (cartesianProduct varValues)
  pure (acrossStepExecutor vars failFast vars varValues substeps)

/-! ## What the executors run -/

/-- An executor whose index `i` runs the `i`-th block of `k` substeps runs them all, in
order. -/
theorem leaves_executor_blocks {maxInFlight : Option MaxInFlightConfig} {failFast : Bool}
    {count k : Nat} {runFunc : Nat → AcrossRun} {steps : List (Plan × List Value)}
    {g : Plan × List Value → AcrossRun} (hlength : steps.length = count * k)
    (hblocks : ∀ i < count, (runFunc i).leaves = ((steps.drop (i * k)).take k).map g) :
    (AcrossRun.executor maxInFlight failFast count runFunc).leaves = steps.map g := by
  have hcongr : ((List.range count).flatMap fun i => (runFunc i).leaves) =
      (List.range count).flatMap fun i => ((steps.drop (i * k)).take k).map g :=
    List.flatMap_congr fun i hi => hblocks i (List.mem_range.mp hi)
  rw [AcrossRun.leaves, hcongr, ← List.map_flatMap, ← take_eq_flatMap_range,
    List.take_of_length_le (by rw [hlength])]

section Runs

variable (vars : List AcrossVar) (failFast : Bool)

theorem leaves_substepRun (step : Plan × List Value) :
    (substepRun vars step).leaves = [substepRun vars step] := by
  unfold substepRun
  split <;> rfl

theorem leaves_acrossStepLeafExecutor (lastVar : AcrossVar) (steps : List (Plan × List Value)) :
    (acrossStepLeafExecutor vars failFast lastVar steps).leaves = steps.map (substepRun vars) := by
  refine leaves_executor_blocks (k := 1) (by simp) fun i hi => ?_
  rw [Nat.mul_one, List.take_one_drop_eq_of_lt_length hi, List.getElem?_eq_getElem hi,
    leaves_substepRun]
  rfl

/-- The values of the substeps, block by block: the block of the `i`-th value of the first var
holds the product of the other vars after that value. -/
theorem map_snd_slice {steps : List (Plan × List Value)} {values : List Value}
    {restValues : List (List Value)} {pre : List Value}
    (hsteps : steps.map (·.2) = (lexProduct (values :: restValues)).map (pre ++ ·)) {i : Nat}
    (hi : i < values.length) :
    ((steps.drop (i * (restValues.map List.length).prod)).take
        (restValues.map List.length).prod).map (·.2) =
      (lexProduct restValues).map ((pre ++ [values[i]]) ++ ·) := by
  have hblocks : ∀ a ∈ values,
      ((lexProduct restValues).map (a :: ·)).length = (restValues.map List.length).prod :=
    fun a _ => by simp [length_lexProduct]
  rw [List.map_take, List.map_drop, hsteps, ← List.map_drop, ← List.map_take, lexProduct_cons,
    take_drop_flatMap values hblocks hi, List.map_map]
  congr 1
  funext c
  simp

theorem length_steps {steps : List (Plan × List Value)} {valueLists : List (List Value)}
    {pre : List Value} (hsteps : steps.map (·.2) = (lexProduct valueLists).map (pre ++ ·)) :
    steps.length = (valueLists.map List.length).prod := by
  rw [← List.length_map (f := (·.2)), hsteps, List.length_map, length_lexProduct]

/-- The slice of each value of the first var is in range, so no `runFunc` panics. -/
theorem slice_le_length {steps : List (Plan × List Value)} {values : List Value}
    {restValues : List (List Value)} {pre : List Value}
    (hsteps : steps.map (·.2) = (lexProduct (values :: restValues)).map (pre ++ ·)) {i : Nat}
    (hi : i < values.length) : (i + 1) * (restValues.map List.length).prod ≤ steps.length := by
  rw [length_steps hsteps, List.map_cons, List.prod_cons]
  exact Nat.mul_le_mul_right _ hi

/-- What the executor of the vars `rs` runs, when each index below each count runs: the substeps
of its slice, in order. -/
theorem leaves_acrossStepExecutor : ∀ (rs : List AcrossVar) (valueLists : List (List Value))
    (pre : List Value) (steps : List (Plan × List Value)), rs ≠ [] →
    valueLists.length = rs.length → steps.map (·.2) = (lexProduct valueLists).map (pre ++ ·) →
    (acrossStepExecutor vars failFast rs valueLists steps).leaves = steps.map (substepRun vars)
  | [lastVar], _, _, steps, _, _, _ => leaves_acrossStepLeafExecutor vars failFast lastVar steps
  | var :: var' :: rest, values :: restValues, pre, steps, _, hlen, hsteps => by
    have hlength := length_steps hsteps
    simp only [List.map_cons, List.prod_cons] at hlength
    simp only [acrossStepExecutor]
    refine leaves_executor_blocks hlength fun i hi => ?_
    -- the `i`-th value's slice is in range, and its values carry that value after `pre`
    rw [if_pos (slice_le_length hsteps hi)]
    exact leaves_acrossStepExecutor (var' :: rest) restValues (pre ++ [values[i]]) _
      (List.cons_ne_nil _ _) (by simpa using hlen) (map_snd_slice hsteps hi)
  | [], _, _, _, hne, _, _ => absurd rfl hne
  | _ :: _ :: _, [], _, _, _, hlen, _ => by simp at hlen

/-- The substep that the combination of `path` stands for: at its rank, with its values after
`pre`. -/
theorem getElem?_steps_of_pick {steps : List (Plan × List Value)}
    {valueLists : List (List Value)} {pre : List Value}
    (hsteps : steps.map (·.2) = (lexProduct valueLists).map (pre ++ ·)) {path : List Nat}
    {c : List Value} (hpick : pick valueLists path = some c) :
    ∃ step, steps[rank path (valueLists.map List.length)]? = some step ∧ step.2 = pre ++ c := by
  have hmap : (steps.map (·.2))[rank path (valueLists.map List.length)]? = some (pre ++ c) := by
    rw [hsteps, List.getElem?_map, getElem?_lexProduct_rank hpick]
    rfl
  rw [List.getElem?_map] at hmap
  exact Option.map_eq_some_iff.mp hmap

/-- What runs at an index path that picks a value of each var: the substep of those values. -/
theorem runAt_acrossStepExecutor : ∀ (rs : List AcrossVar) (valueLists : List (List Value))
    (pre : List Value) (steps : List (Plan × List Value)), rs ≠ [] →
    valueLists.length = rs.length → steps.map (·.2) = (lexProduct valueLists).map (pre ++ ·) →
    ∀ {path : List Nat} {c : List Value}, pick valueLists path = some c →
      ∃ step, steps[rank path (valueLists.map List.length)]? = some step ∧ step.2 = pre ++ c ∧
        (acrossStepExecutor vars failFast rs valueLists steps).runAt path =
          some (substepRun vars step)
  | [lastVar], [values], pre, steps, _, _, hsteps, [i], c, hpick => by
    obtain ⟨step, hstep, hvalues⟩ := getElem?_steps_of_pick hsteps hpick
    -- one var: the rank of the path is its one index
    simp only [rank, List.map_cons, List.map_nil, List.prod_nil, Nat.mul_one, Nat.add_zero]
      at hstep
    obtain ⟨hi, hget⟩ := List.getElem?_eq_some_iff.mp hstep
    refine ⟨step, by simpa [rank] using hstep, hvalues, ?_⟩
    simp [acrossStepExecutor, acrossStepLeafExecutor, AcrossRun.runAt, hi, hget]
  | [_], [_], _, _, _, _, _, [], _, hpick => by simp [pick] at hpick
  | [_], [values], _, _, _, _, _, i :: _ :: _, _, hpick => by
    cases values[i]? <;> simp [pick] at hpick
  | var :: var' :: rest, values :: restValues, pre, steps, _, hlen, hsteps, i :: path, c,
      hpick => by
    simp only [pick] at hpick
    split at hpick
    · rename_i a c' hi hrest
      cases hpick
      obtain ⟨hlt, rfl⟩ := List.getElem?_eq_some_iff.mp hi
      -- the rest of the path runs in the slice of `values[i]`
      obtain ⟨step, hstep, hvalues, hrun⟩ := runAt_acrossStepExecutor (var' :: rest) restValues
        (pre ++ [values[i]]) _ (List.cons_ne_nil _ _) (by simpa using hlen)
        (map_snd_slice hsteps hlt) hrest
      refine ⟨step, ?_, by simp [hvalues], ?_⟩
      · rw [List.getElem?_take_of_lt (rank_lt hrest), List.getElem?_drop] at hstep
        simpa [rank] using hstep
      · simp [acrossStepExecutor, AcrossRun.runAt, hlt, slice_le_length hsteps hlt, hrun]
    · cases hpick
  | [], _, _, _, hne, _, _, _, _, _ => absurd rfl hne
  | [_], [], _, _, _, hlen, _, _, _, _ | [_], _ :: _ :: _, _, _, _, hlen, _, _, _, _ => by
    simp at hlen
  | _ :: _ :: _, [], _, _, _, hlen, _, _, _, _ => by simp at hlen
  | _ :: _ :: _, _ :: _, _, _, _, _, _, [], _, hpick => by simp [pick] at hpick

end Runs

/-- An `across` step over `n ≥ 1` vars whose substeps were built: the combinations are the
lexicographic product of the values, all `∏ |Vₖ|` of them; the executors run each substep once,
in order; and the index path `[i₀, …]` runs the substep of the values `V₀[i₀], …`, in the scope
where each var is set to its value. -/
theorem acrossStepRun_combinations
    (interpolate : List (String × Value) → Plan → Except TemplateError Plan)
    (saveEvent : List (Plan × List Value) → Except String Unit) (planID : PlanID)
    (template : Plan) (vars : List AcrossVar) (failFast : Bool) (varValues : List (List Value))
    (exec : AcrossRun) (hvars : vars ≠ []) (hlen : varValues.length = vars.length)
    (hrun : acrossStepRun interpolate saveEvent planID template vars failFast varValues =
      .ok exec) :
    cartesianProduct varValues = lexProduct varValues ∧
      (cartesianProduct varValues).length = (varValues.map List.length).prod ∧
      ∃ substeps : List (Plan × List Value), substeps.map (·.2) = cartesianProduct varValues ∧
        exec.leaves = substeps.map (substepRun vars) ∧
        ∀ (path : List Nat) (c : List Value), pick varValues path = some c →
          ∃ step scope, substeps[rank path (varValues.map List.length)]? = some step ∧
            step.2 = c ∧ localVarsOf (vars.map (·.var)) c = .ok scope ∧
            exec.runAt path = some (.substep step.1 scope) := by
  simp only [acrossStepRun, bind, Except.bind] at hrun
  split at hrun
  · cases hrun
  · rename_i substeps hsubsteps
    simp only [pure, Except.pure, Except.ok.injEq] at hrun
    subst hrun
    have hcombos := map_snd_constructAcrossSubsteps interpolate hsubsteps
    rw [cartesianProduct_eq_lexProduct] at hcombos ⊢
    -- the outermost executor runs the whole product, after no value
    have hsteps : substeps.map (·.2) = (lexProduct varValues).map ([] ++ ·) := by
      simpa using hcombos
    refine ⟨rfl, length_lexProduct varValues, substeps, hcombos,
      leaves_acrossStepExecutor vars failFast vars varValues [] substeps hvars hlen hsteps,
      fun path c hpick => ?_⟩
    obtain ⟨step, hstep, hvalues, hrunAt⟩ :=
      runAt_acrossStepExecutor vars failFast vars varValues [] substeps hvars hlen hsteps hpick
    -- a combination has a value for each var, so the leaf sets them all
    obtain ⟨scope, hscope⟩ := @localVarsOf_ok (vars.map (·.var)) c
      (by simp [length_of_pick hpick, hlen])
    rw [List.nil_append] at hvalues
    refine ⟨step, scope, hstep, hvalues, hscope, ?_⟩
    rw [hrunAt, substepRun, hvalues, hscope]

/-- `acrossStepRun_combinations` for the vars `a` over `1, 2` and `b` over `3`, with a template
that interpolation keeps. -/
theorem acrossStepRun_combinations_twoVars :
    [(⟨"a", none⟩ : AcrossVar), ⟨"b", none⟩] ≠ [] ∧
      [[Value.number 1, .number 2], [.number 3]].length =
        [(⟨"a", none⟩ : AcrossVar), ⟨"b", none⟩].length ∧
      acrossStepRun (fun _ p => .ok p) (fun _ => .ok ()) (.num 1) (.loadVar (.num 0) "x")
          [⟨"a", none⟩, ⟨"b", none⟩] false [[.number 1, .number 2], [.number 3]] =
        .ok (acrossStepExecutor [⟨"a", none⟩, ⟨"b", none⟩] false [⟨"a", none⟩, ⟨"b", none⟩]
          [[.number 1, .number 2], [.number 3]]
          [(.loadVar (.substep (.num 1) 0 0) "x", [.number 1, .number 3]),
            (.loadVar (.substep (.num 1) 1 0) "x", [.number 2, .number 3])]) ∧
      (cartesianProduct [[Value.number 1, .number 2], [.number 3]] =
          lexProduct [[Value.number 1, .number 2], [.number 3]] ∧
        (cartesianProduct [[Value.number 1, .number 2], [.number 3]]).length =
          ([[Value.number 1, .number 2], [.number 3]].map List.length).prod ∧
        ∃ substeps : List (Plan × List Value),
          substeps.map (·.2) = cartesianProduct [[Value.number 1, .number 2], [.number 3]] ∧
          (acrossStepExecutor [⟨"a", none⟩, ⟨"b", none⟩] false [⟨"a", none⟩, ⟨"b", none⟩]
              [[.number 1, .number 2], [.number 3]]
              [(.loadVar (.substep (.num 1) 0 0) "x", [.number 1, .number 3]),
                (.loadVar (.substep (.num 1) 1 0) "x", [.number 2, .number 3])]).leaves =
            substeps.map (substepRun [⟨"a", none⟩, ⟨"b", none⟩]) ∧
          ∀ (path : List Nat) (c : List Value),
            pick [[Value.number 1, .number 2], [.number 3]] path = some c →
            ∃ step scope,
              substeps[rank path ([[Value.number 1, .number 2], [.number 3]].map List.length)]? =
                some step ∧
              step.2 = c ∧ localVarsOf ["a", "b"] c = .ok scope ∧
              (acrossStepExecutor [⟨"a", none⟩, ⟨"b", none⟩] false [⟨"a", none⟩, ⟨"b", none⟩]
                  [[.number 1, .number 2], [.number 3]]
                  [(.loadVar (.substep (.num 1) 0 0) "x", [.number 1, .number 3]),
                    (.loadVar (.substep (.num 1) 1 0) "x", [.number 2, .number 3])]).runAt path =
                some (.substep step.1 scope)) := by
  -- the template has no plans under it, so each walk is one call of its callback
  have hleaf : ∀ (σ : Type) (f : σ → Plan → Plan × σ) (id : PlanID) (s : σ),
      Plan.each f (.loadVar id "x") s =
        ((f s (.loadVar id "x")).1.withChildren [], (f s (.loadVar id "x")).2) :=
    fun _ _ _ => Plan.each_of_children_eq_nil rfl
  have hrun : acrossStepRun (fun _ p => .ok p) (fun _ => .ok ()) (.num 1) (.loadVar (.num 0) "x")
      [⟨"a", none⟩, ⟨"b", none⟩] false [[.number 1, .number 2], [.number 3]] =
        .ok (acrossStepExecutor [⟨"a", none⟩, ⟨"b", none⟩] false [⟨"a", none⟩, ⟨"b", none⟩]
          [[.number 1, .number 2], [.number 3]]
          [(.loadVar (.substep (.num 1) 0 0) "x", [.number 1, .number 3]),
            (.loadVar (.substep (.num 1) 1 0) "x", [.number 2, .number 3])]) := by
    simp [acrossStepRun, constructAcrossSubsteps, constructSubsteps, constructSubstep, hleaf,
      cartesianProduct, cartesianProductRev, localVarsOf, bind, Except.bind, pure, Except.pure,
      renameSubplan, remapVersionFrom, Plan.withId, Plan.withChildren, Plan.versionFrom]
  exact ⟨by simp, rfl, hrun, acrossStepRun_combinations _ _ _ _ _ _ _ _ (by simp) rfl hrun⟩

end Exec
end Concourse
