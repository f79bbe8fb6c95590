import Concourse.Atc.PlanId
import Concourse.Lib.Renumber

/-!
# Build plans

`atc/plan.go`: a build runs a tree of `Plan`s, each with an ID.  The planner numbers the
plans from a counter (`PlanFactory.NewPlan` writes it in hexadecimal); the image of a custom
resource type is fetched by a get plan and checked by a check plan named after the plan that
needs it, with `/image-get` and `/image-check` appended; the substeps of an `across` step are
renumbered `<acrossID>/<index>/<counter>` when the step runs (`PlanId`).

`Plan.Each` visits a plan and then the plans under it, in a fixed order of its fields, down
into the images of get, put and check plans but not into the template of an `across` plan;
`Plan.children` lists the plans under a plan in that order, `Plan.nodes` every plan `Each`
visits, and `Plan.each` is `Each` with a callback that changes a plan's own fields only,
threading the callback's state.  `each_nodes` says what `Each` does in terms of that list: it
walks `nodes` in order (`Renumber.walk`).

`Resolves within ps` says that every `GetPlan.VersionFrom` among the plans `ps` names a put or
a check plan among `within`.

A plan keeps, of the fields the planner copies from the step, those that decide other plans
or their IDs.
-/

namespace Concourse
namespace Atc

/-- The fields of a `GetPlan` other than its image and `VersionFrom`. -/
structure GetFields where
  name : String
  type : String
  resource : String
  version : Option (List (String × String))
  tags : List String
  deriving DecidableEq, Repr

/-- The fields of a `PutPlan` other than its image. -/
structure PutFields where
  name : String
  type : String
  resource : String
  tags : List String
  deriving DecidableEq, Repr

/-- `CheckEvery`: never, or an interval in nanoseconds. -/
structure CheckEvery where
  never : Bool
  interval : Nat
  deriving DecidableEq, Repr

/-- The fields of a `CheckPlan` other than its image. -/
structure CheckFields where
  name : String
  type : String
  resourceType : String
  tags : List String
  skipInterval : Bool
  interval : CheckEvery
  deriving DecidableEq, Repr

mutual
/-- `Plan`: its ID and the one plan field that is set. -/
inductive Plan where
  | inParallel (id : PlanID) (steps : List Plan) (limit : Int) (failFast : Bool)
  | across (id : PlanID) (vars : List String) (subStepTemplate : Plan) (failFast : Bool)
  | doPlan (id : PlanID) (steps : List Plan)
  | get (id : PlanID) (fields : GetFields) (typeImage : TypeImage) (versionFrom : Option PlanID)
  | put (id : PlanID) (fields : PutFields) (typeImage : TypeImage)
  | task (id : PlanID) (name : String) (tags : List String)
  | run (id : PlanID) (message type : String) (tags : List String)
  | setPipeline (id : PlanID) (name : String)
  | loadVar (id : PlanID) (name : String)
  | check (id : PlanID) (fields : CheckFields) (typeImage : TypeImage)
  | onAbort (id : PlanID) (step next : Plan)
  | onError (id : PlanID) (step next : Plan)
  | ensure (id : PlanID) (step next : Plan)
  | onSuccess (id : PlanID) (step next : Plan)
  | onFailure (id : PlanID) (step next : Plan)
  | tryPlan (id : PlanID) (step : Plan)
  | timeout (id : PlanID) (duration : String) (step : Plan)
  | retry (id : PlanID) (attempts : List Plan)

/-- `TypeImage`: the base type and, for a custom type, the plans that check and fetch its
image. -/
inductive TypeImage where
  | mk (baseType : String) (privileged : Bool) (checkPlan : Option Plan) (getPlan : Option Plan)
end

namespace TypeImage

/-- `TypeImage.BaseType`. -/
def baseType : TypeImage → String
  | mk baseType .. => baseType

/-- `TypeImage.EachPlan`'s order: the check plan, then the get plan. -/
def plans : TypeImage → List Plan
  | mk _ _ checkPlan getPlan => checkPlan.toList ++ getPlan.toList

/-- The image with another base type. -/
def withBaseType (baseType : String) : TypeImage → TypeImage
  | mk _ privileged checkPlan getPlan => mk baseType privileged checkPlan getPlan

@[simp] theorem plans_withBaseType (baseType : String) (typeImage : TypeImage) :
    (typeImage.withBaseType baseType).plans = typeImage.plans := by
  cases typeImage
  rfl

/-- The image with its plans replaced, in the same order. -/
def withPlans : TypeImage → List Plan → TypeImage
  | mk baseType privileged (some _) (some _), [checkPlan, getPlan] =>
    mk baseType privileged (some checkPlan) (some getPlan)
  | mk baseType privileged (some _) none, [checkPlan] => mk baseType privileged (some checkPlan) none
  | mk baseType privileged none (some _), [getPlan] => mk baseType privileged none (some getPlan)
  | typeImage, _ => typeImage

theorem plans_withPlans (typeImage : TypeImage) {plans : List Plan}
    (h : plans.length = typeImage.plans.length) : (typeImage.withPlans plans).plans = plans := by
  obtain ⟨baseType, privileged, checkPlan, getPlan⟩ := typeImage
  cases checkPlan <;> cases getPlan <;>
    rcases plans with _ | ⟨a, _ | ⟨b, _ | ⟨c, rest⟩⟩⟩ <;>
    simp_all [TypeImage.plans, withPlans]

end TypeImage

namespace Plan

/-- The ID of a plan. -/
def id : Plan → PlanID
  | inParallel id .. | across id .. | doPlan id .. | get id .. | put id .. | task id ..
  | run id .. | setPipeline id .. | loadVar id .. | check id .. | onAbort id .. | onError id ..
  | ensure id .. | onSuccess id .. | onFailure id .. | tryPlan id .. | timeout id ..
  | retry id .. => id

/-- The plans `Each` visits right under a plan, in its order. -/
def children : Plan → List Plan
  | inParallel _ steps _ _ => steps
  | doPlan _ steps => steps
  | get _ _ typeImage _ => typeImage.plans
  | put _ _ typeImage => typeImage.plans
  | check _ _ typeImage => typeImage.plans
  | onAbort _ step next | onError _ step next | ensure _ step next | onSuccess _ step next
  | onFailure _ step next => [step, next]
  | tryPlan _ step => [step]
  | timeout _ _ step => [step]
  | retry _ attempts => attempts
  | across .. | task .. | run .. | setPipeline .. | loadVar .. => []

/-- The plan with another ID. -/
def withId (id : PlanID) : Plan → Plan
  | inParallel _ steps limit failFast => inParallel id steps limit failFast
  | across _ vars template failFast => across id vars template failFast
  | doPlan _ steps => doPlan id steps
  | get _ fields typeImage versionFrom => get id fields typeImage versionFrom
  | put _ fields typeImage => put id fields typeImage
  | task _ name tags => task id name tags
  | run _ message type tags => run id message type tags
  | setPipeline _ name => setPipeline id name
  | loadVar _ name => loadVar id name
  | check _ fields typeImage => check id fields typeImage
  | onAbort _ step next => onAbort id step next
  | onError _ step next => onError id step next
  | ensure _ step next => ensure id step next
  | onSuccess _ step next => onSuccess id step next
  | onFailure _ step next => onFailure id step next
  | tryPlan _ step => tryPlan id step
  | timeout _ duration step => timeout id duration step
  | retry _ attempts => retry id attempts

/-- The plan with the plans under it replaced, in `Each`'s order. -/
def withChildren : Plan → List Plan → Plan
  | inParallel id _ limit failFast, steps => inParallel id steps limit failFast
  | doPlan id _, steps => doPlan id steps
  | get id fields typeImage versionFrom, plans => get id fields (typeImage.withPlans plans) versionFrom
  | put id fields typeImage, plans => put id fields (typeImage.withPlans plans)
  | check id fields typeImage, plans => check id fields (typeImage.withPlans plans)
  | onAbort id _ _, [step, next] => onAbort id step next
  | onError id _ _, [step, next] => onError id step next
  | ensure id _ _, [step, next] => ensure id step next
  | onSuccess id _ _, [step, next] => onSuccess id step next
  | onFailure id _ _, [step, next] => onFailure id step next
  | tryPlan id _, [step] => tryPlan id step
  | timeout id duration _, [step] => timeout id duration step
  | retry id _, attempts => retry id attempts
  | plan, _ => plan

/-- `GetPlan.VersionFrom`. -/
def versionFrom : Plan → Option PlanID
  | get _ _ _ versionFrom => versionFrom
  | _ => none

/-- The plan with `GetPlan.VersionFrom` replaced. -/
def withVersionFrom (versionFrom : Option PlanID) : Plan → Plan
  | get id fields typeImage _ => get id fields typeImage versionFrom
  | plan => plan

/-- Whether the plan is a put or a check plan. -/
def isPutOrCheck : Plan → Bool
  | put .. | check .. => true
  | _ => false

/-- The template of an `across` plan. -/
def template? : Plan → Option Plan
  | across _ _ template _ => some template
  | _ => none

/-- `plan.Get.TypeImage`, of a get plan. -/
def getTypeImage? : Plan → Option TypeImage
  | get _ _ typeImage _ => some typeImage
  | _ => none

/-- A check plan with `Check.ResourceType` set. -/
def withResourceType (resourceType : String) : Plan → Plan
  | check id fields typeImage => check id { fields with resourceType } typeImage
  | plan => plan

@[simp] theorem id_withResourceType (resourceType : String) (plan : Plan) :
    (plan.withResourceType resourceType).id = plan.id := by
  cases plan <;> rfl

@[simp] theorem children_withResourceType (resourceType : String) (plan : Plan) :
    (plan.withResourceType resourceType).children = plan.children := by
  cases plan <;> rfl

@[simp] theorem versionFrom_withResourceType (resourceType : String) (plan : Plan) :
    (plan.withResourceType resourceType).versionFrom = plan.versionFrom := by
  cases plan <;> rfl

@[simp] theorem isPutOrCheck_withResourceType (resourceType : String) (plan : Plan) :
    (plan.withResourceType resourceType).isPutOrCheck = plan.isPutOrCheck := by
  cases plan <;> rfl

@[simp] theorem template?_withResourceType (resourceType : String) (plan : Plan) :
    (plan.withResourceType resourceType).template? = plan.template? := by
  cases plan <;> rfl

@[simp] theorem id_withId (id : PlanID) (plan : Plan) : (plan.withId id).id = id := by
  cases plan <;> rfl

@[simp] theorem children_withId (id : PlanID) (plan : Plan) :
    (plan.withId id).children = plan.children := by
  cases plan <;> rfl

@[simp] theorem versionFrom_withId (id : PlanID) (plan : Plan) :
    (plan.withId id).versionFrom = plan.versionFrom := by
  cases plan <;> rfl

@[simp] theorem isPutOrCheck_withId (id : PlanID) (plan : Plan) :
    (plan.withId id).isPutOrCheck = plan.isPutOrCheck := by
  cases plan <;> rfl

@[simp] theorem id_withVersionFrom (versionFrom : Option PlanID) (plan : Plan) :
    (plan.withVersionFrom versionFrom).id = plan.id := by
  cases plan <;> rfl

@[simp] theorem children_withVersionFrom (versionFrom : Option PlanID) (plan : Plan) :
    (plan.withVersionFrom versionFrom).children = plan.children := by
  cases plan <;> rfl

@[simp] theorem isPutOrCheck_withVersionFrom (versionFrom : Option PlanID) (plan : Plan) :
    (plan.withVersionFrom versionFrom).isPutOrCheck = plan.isPutOrCheck := by
  cases plan <;> rfl

@[simp] theorem id_withChildren (plan : Plan) (kids : List Plan) :
    (plan.withChildren kids).id = plan.id := by
  cases plan <;> rcases kids with _ | ⟨a, _ | ⟨b, _ | ⟨c, rest⟩⟩⟩ <;> rfl

@[simp] theorem versionFrom_withChildren (plan : Plan) (kids : List Plan) :
    (plan.withChildren kids).versionFrom = plan.versionFrom := by
  cases plan <;> rcases kids with _ | ⟨a, _ | ⟨b, _ | ⟨c, rest⟩⟩⟩ <;> rfl

@[simp] theorem isPutOrCheck_withChildren (plan : Plan) (kids : List Plan) :
    (plan.withChildren kids).isPutOrCheck = plan.isPutOrCheck := by
  cases plan <;> rcases kids with _ | ⟨a, _ | ⟨b, _ | ⟨c, rest⟩⟩⟩ <;> rfl

theorem children_withChildren (plan : Plan) {kids : List Plan}
    (h : kids.length = plan.children.length) : (plan.withChildren kids).children = kids := by
  cases plan with
  | get id fields typeImage versionFrom => exact typeImage.plans_withPlans h
  | put id fields typeImage => exact typeImage.plans_withPlans h
  | check id fields typeImage => exact typeImage.plans_withPlans h
  | _ =>
    rcases kids with _ | ⟨a, _ | ⟨b, _ | ⟨c, rest⟩⟩⟩ <;> simp_all [children, withChildren]

theorem sizeOf_lt_of_mem_children {plan child : Plan} (h : child ∈ plan.children) :
    sizeOf child < sizeOf plan := by
  cases plan with
  | get id fields typeImage versionFrom | put id fields typeImage | check id fields typeImage =>
    obtain ⟨baseType, privileged, checkPlan, getPlan⟩ := typeImage
    simp only [children, TypeImage.plans, List.mem_append, Option.mem_toList] at h
    rcases h with rfl | rfl <;> simp +arith
  | inParallel id steps limit failFast | doPlan id steps | retry id steps =>
    have := List.sizeOf_lt_of_mem h
    simp only [children] at this
    simp
    omega
  | across | task | run | setPipeline | loadVar => simp [children] at h
  | tryPlan id step | timeout id _ step =>
    simp only [children, List.mem_singleton] at h
    subst h
    simp +arith
  | _ =>
    simp only [children, List.mem_cons, List.not_mem_nil, or_false] at h
    rcases h with rfl | rfl <;> simp +arith

/-- The plans `Each` visits: the plan, then those under each of its children in order. -/
def nodes (plan : Plan) : List Plan :=
  plan :: plan.children.attach.flatMap fun ⟨child, _⟩ => child.nodes
termination_by sizeOf plan
decreasing_by exact sizeOf_lt_of_mem_children ‹_›

theorem nodes_eq (plan : Plan) : plan.nodes = plan :: plan.children.flatMap nodes := by
  rw [nodes]
  simp

/-- Induction over the plans `Each` visits: a plan is settled once the plans under it are. -/
theorem children_induction {motive : Plan → Prop}
    (step : ∀ plan, (∀ child ∈ plan.children, motive child) → motive plan) (plan : Plan) :
    motive plan :=
  step plan fun child h => children_induction step child
termination_by sizeOf plan
decreasing_by exact sizeOf_lt_of_mem_children h

@[simp] theorem mem_nodes_self (plan : Plan) : plan ∈ plan.nodes := by
  rw [nodes_eq]
  exact List.mem_cons_self

theorem nodes_subset_of_mem_children {plan child : Plan} (h : child ∈ plan.children) :
    child.nodes ⊆ plan.nodes := by
  rw [nodes_eq plan]
  exact fun q hq => List.mem_cons_of_mem _ (List.mem_flatMap.mpr ⟨child, h, hq⟩)

/-- The plans `Each` visits under a plan are among its own. -/
theorem nodes_subset_of_children_eq {plan : Plan} {kids : List Plan} (h : plan.children = kids) :
    kids.flatMap nodes ⊆ plan.nodes := by
  rw [nodes_eq plan, h]
  exact List.subset_cons_self _ _

/-- What the results read of a plan, besides the plans under it: its ID, its `VersionFrom` and
whether it is a put or a check plan. -/
def label (plan : Plan) : PlanID × Option PlanID × Bool :=
  (plan.id, plan.versionFrom, plan.isPutOrCheck)

@[simp] theorem label_withChildren (plan : Plan) (kids : List Plan) :
    (plan.withChildren kids).label = plan.label := by
  simp [label]

@[simp] theorem label_withId (id : PlanID) (plan : Plan) :
    (plan.withId id).label = (id, plan.versionFrom, plan.isPutOrCheck) := by
  simp [label]

/-- Only a get plan has a `VersionFrom`, and it is the one set. -/
theorem versionFrom_withVersionFrom_of_eq_some {plan : Plan} {v : PlanID}
    (h : plan.versionFrom = some v) (versionFrom : Option PlanID) :
    (plan.withVersionFrom versionFrom).versionFrom = versionFrom := by
  cases plan <;> first | rfl | cases h

section Each

open Renumber

variable {σ : Type} (f : σ → Plan → Plan × σ)

/-- `Plan.Each` with a callback `f` that changes the plan's own fields, threading its state:
the plan, then the plans under it. -/
def each (plan : Plan) (s : σ) : Plan × σ :=
  let updated := f s plan
  let kids := plan.children.attach.foldl
    (fun acc child => let r := each child.1 acc.2; (acc.1 ++ [r.1], r.2)) ([], updated.2)
  (updated.1.withChildren kids.1, kids.2)
termination_by sizeOf plan
decreasing_by exact sizeOf_lt_of_mem_children child.2

theorem each_eq (plan : Plan) (s : σ) :
    each f plan s =
      ((f s plan).1.withChildren (walk (fun s c => each f c s) plan.children (f s plan).2).1,
        (walk (fun s c => each f c s) plan.children (f s plan).2).2) := by
  -- the loop over `attach`, there for termination, is a walk over the children
  have hkids := @List.foldl_attach Plan (List Plan × σ) plan.children
    (fun acc child => let r := each f child acc.2; (acc.1 ++ [r.1], r.2)) ([], (f s plan).2)
  rw [foldl_append_eq_walk (fun s c => each f c s), List.nil_append] at hkids
  rw [each]
  exact congrArg (fun kids => ((f s plan).1.withChildren kids.1, kids.2)) hkids

variable {f}

/-- A plan with no plans under it is only `f`'s own change. -/
theorem each_of_children_eq_nil {plan : Plan} (h : plan.children = []) (s : σ) :
    each f plan s = ((f s plan).1.withChildren [], (f s plan).2) := by
  rw [each_eq, h]
  rfl

/-- `each` keeps the number of plans under a plan when `f` does. -/
theorem children_each (hf : ∀ s q, (f s q).1.children.length = q.children.length)
    (plan : Plan) (s : σ) :
    (each f plan s).1.children = (walk (fun s c => each f c s) plan.children (f s plan).2).1 := by
  rw [each_eq]
  exact children_withChildren _ (by simp [hf])

/-- The loop over sibling plans, in terms of the plans `Each` visits under them. -/
theorem walk_each_nodes {children : List Plan}
    (ih : ∀ child ∈ children, ∀ s : σ,
      (each f child s).1.nodes.map label = (walk f child.nodes s).1.map label ∧
        (each f child s).2 = (walk f child.nodes s).2)
    (s : σ) :
    ((walk (fun s c => each f c s) children s).1.flatMap nodes).map label =
        (walk f (children.flatMap nodes) s).1.map label ∧
      (walk (fun s c => each f c s) children s).2 = (walk f (children.flatMap nodes) s).2 := by
  induction children generalizing s with
  | nil => simp
  | cons child children ihs =>
    obtain ⟨hlabels, hstate⟩ := ih child List.mem_cons_self s
    obtain ⟨hlabels', hstate'⟩ :=
      ihs (fun c hc => ih c (List.mem_cons_of_mem _ hc)) (each f child s).2
    simp only [walk_cons, List.flatMap_cons, walk_append, List.map_append]
    rw [hlabels, hlabels', hstate', hstate]
    exact ⟨rfl, rfl⟩

/-- `Each` walks the plans it visits in order: the plans of its result carry, in order, the
labels of `f` applied along `nodes`, and it ends in the state of that walk. -/
theorem each_nodes (hf : ∀ s q, (f s q).1.children.length = q.children.length) :
    ∀ (plan : Plan) (s : σ),
      (each f plan s).1.nodes.map label = (walk f plan.nodes s).1.map label ∧
        (each f plan s).2 = (walk f plan.nodes s).2 := by
  refine children_induction fun plan ih s => ?_
  obtain ⟨hlabels, hstate⟩ := walk_each_nodes ih (f s plan).2
  have hkids := children_each hf plan s
  rw [nodes_eq (each f plan s).1, hkids, nodes_eq plan]
  rw [each_eq]
  simp only [walk_cons, List.map_cons, label_withChildren]
  rw [hlabels, hstate]
  exact ⟨rfl, rfl⟩

end Each

/-! ## The string fields of a plan -/

/-- The strings of a plan's own fields that the JSON of the plan holds, in the order of its
fields: names, types, resources, the keys and values of a version, tags, a run's message and
type, a timeout's duration and an `across` plan's var names, and an image's base type last. -/
def strings : Plan → List String
  | across _ vars _ _ => vars
  | get _ fields typeImage _ =>
    [fields.name, fields.type, fields.resource] ++
      ((fields.version.map fun version => version.flatMap fun kv => [kv.1, kv.2]).getD []) ++
      fields.tags ++ [typeImage.baseType]
  | put _ fields typeImage =>
    [fields.name, fields.type, fields.resource] ++ fields.tags ++ [typeImage.baseType]
  | task _ name tags => name :: tags
  | run _ message type tags => message :: type :: tags
  | setPipeline _ name | loadVar _ name => [name]
  | check _ fields typeImage =>
    [fields.name, fields.type, fields.resourceType] ++ fields.tags ++ [typeImage.baseType]
  | timeout _ duration _ => [duration]
  | _ => []

/-- A version from its keys and values, in order. -/
def versionOfStrings : List String → List (String × String)
  | k :: v :: rest => (k, v) :: versionOfStrings rest
  | _ => []

/-- The plan with the strings of its own fields replaced, in the order of `strings`. -/
def withStrings : Plan → List String → Plan
  | across id vars template failFast, ss => across id (ss.take vars.length) template failFast
  | get id fields typeImage versionFrom, ss =>
    let n := ((fields.version.map fun version => version.flatMap fun kv => [kv.1, kv.2]).getD []).length
    let version := fields.version.map fun _ => versionOfStrings ((ss.drop 3).take n)
    let tags := (ss.drop (3 + n)).take fields.tags.length
    get id ⟨ss.getD 0 "", ss.getD 1 "", ss.getD 2 "", version, tags⟩
      (typeImage.withBaseType (ss.getD (3 + n + fields.tags.length) "")) versionFrom
  | put id fields typeImage, ss =>
    put id ⟨ss.getD 0 "", ss.getD 1 "", ss.getD 2 "", (ss.drop 3).take fields.tags.length⟩
      (typeImage.withBaseType (ss.getD (3 + fields.tags.length) ""))
  | task id _ tags, ss => task id (ss.getD 0 "") ((ss.drop 1).take tags.length)
  | run id _ _ tags, ss => run id (ss.getD 0 "") (ss.getD 1 "") ((ss.drop 2).take tags.length)
  | setPipeline id _, ss => setPipeline id (ss.getD 0 "")
  | loadVar id _, ss => loadVar id (ss.getD 0 "")
  | check id fields typeImage, ss =>
    check id { fields with
        name := ss.getD 0 "", type := ss.getD 1 "", resourceType := ss.getD 2 "",
        tags := (ss.drop 3).take fields.tags.length }
      (typeImage.withBaseType (ss.getD (3 + fields.tags.length) ""))
  | timeout id _ step, ss => timeout id (ss.getD 0 "") step
  | plan, _ => plan

@[simp] theorem label_withStrings (plan : Plan) (ss : List String) :
    (plan.withStrings ss).label = plan.label := by
  cases plan <;> rfl

@[simp] theorem children_withStrings (plan : Plan) (ss : List String) :
    (plan.withStrings ss).children = plan.children := by
  cases plan <;> simp [withStrings, children]

/-! ## Links between plans -/

/-- Every `GetPlan.VersionFrom` among `plans` names a put or a check plan among `within`. -/
def Resolves (within plans : List Plan) : Prop :=
  ∀ q ∈ plans, ∀ v, q.versionFrom = some v → ∃ t ∈ within, t.id = v ∧ t.isPutOrCheck = true

namespace Resolves

variable {within within' plans plans' : List Plan}

theorem mono (h : Resolves within plans) (hsub : within ⊆ within') : Resolves within' plans :=
  fun q hq v hv => (h q hq v hv).imp fun _ ⟨ht, hid⟩ => ⟨hsub ht, hid⟩

theorem append (h : Resolves within plans) (h' : Resolves within plans') :
    Resolves within (plans ++ plans') := by
  intro q hq
  rcases List.mem_append.mp hq with hq | hq
  · exact h q hq
  · exact h' q hq

theorem cons {q : Plan}
    (hq : ∀ v, q.versionFrom = some v → ∃ t ∈ within, t.id = v ∧ t.isPutOrCheck = true)
    (h : Resolves within plans) : Resolves within (q :: plans) := by
  intro q' hq'
  rcases List.mem_cons.mp hq' with rfl | hq'
  · exact hq
  · exact h q' hq'

/-- A plan's links resolve when its own does and those under it do. -/
theorem nodes {plan : Plan}
    (hown : ∀ v, plan.versionFrom = some v →
      ∃ t ∈ within, t.id = v ∧ t.isPutOrCheck = true)
    (hkids : Resolves within (plan.children.flatMap Plan.nodes)) : Resolves within plan.nodes := by
  rw [nodes_eq plan]
  exact hkids.cons hown

end Resolves

/-- The IDs of the plans `Each` visits are distinct. -/
def IdsUnique (plan : Plan) : Prop :=
  (plan.nodes.map id).Nodup

/-- Every `VersionFrom` of the plans `Each` visits names a put or a check plan among them. -/
def LinksResolve (plan : Plan) : Prop :=
  Resolves plan.nodes plan.nodes

end Plan

end Atc
end Concourse
