import Concourse.Atc.Plan

/-!
# Images of resource types

`atc/config.go`: a get, put or check plan runs in the image of its resource type.  For a custom
type `ImageForType` asks `FetchImagePlan` for a get plan that fetches the type's image and, the
image having no version, a check plan that finds one; the get takes its version from the
check (`VersionFrom`).  The two are named after the plan that needs the image, with
`/image-get` and `/image-check` appended, and their own images are looked up among the other
types (`ResourceTypes.Without`), so that a type defined in terms of itself, or two types
defined in terms of each other, end in a base type.

`imageForType_forest` says what the image plans of any plan are: their IDs extend the plan's
with image suffixes and are distinct, every `VersionFrom` among them names a check among them,
and none is an `across` plan.  `imageForType_bottomsOut` says where the lookups end: `Chain`
is the sequence of lookups from a type, each among the types its parents left, and the image's
base type, and every path down its image plans, follow it.

A type's source, params and defaults are left out, and `DefaultCheckInterval` is a parameter.
-/

namespace Concourse
namespace Atc

/-- The fields of a `ResourceType` that `ImageForType` reads, less its source and params. -/
structure ResourceType where
  name : String
  type : String
  privileged : Bool
  checkEvery : Option CheckEvery
  tags : List String
  deriving DecidableEq, Repr

/-- `ImageResource`, less its source and params. -/
structure ImageResource where
  name : String
  type : String
  version : Option (List (String × String))
  tags : List String
  deriving DecidableEq, Repr

namespace ResourceTypes

/-- `ResourceTypes.Lookup`: the first type of the name. -/
def lookup (types : List ResourceType) (name : String) : Option ResourceType :=
  types.find? (·.name == name)

/-- `ResourceTypes.Without`: the types of the other names. -/
def without (types : List ResourceType) (name : String) : List ResourceType :=
  types.filter (·.name != name)

/-- A type found by its name is among the types `Without` drops. -/
theorem length_without_lt {types : List ResourceType} {name : String} {parent : ResourceType}
    (h : lookup types name = some parent) : (without types parent.name).length < types.length := by
  refine List.length_filter_lt_length_iff_exists.mpr ⟨parent, List.mem_of_find?_eq_some h, ?_⟩
  simp

/-- `Chain types t chain base rest`: looking `t` up among `types`, then the type of what was
found among the types without its name, and so on, goes through the custom types `chain` and
ends at `base`, which is not a custom type of the types `rest` left. -/
inductive Chain : List ResourceType → String → List ResourceType → String → List ResourceType → Prop
  | base {types : List ResourceType} {t : String} (h : lookup types t = none) :
      Chain types t [] t types
  | custom {types : List ResourceType} {t : String} {parent : ResourceType}
      {chain : List ResourceType} {base : String} {rest : List ResourceType}
      (h : lookup types t = some parent)
      (tail : Chain (without types parent.name) parent.type chain base rest) :
      Chain types t (parent :: chain) base rest

namespace Chain

variable {types rest chain : List ResourceType} {t base : String}

theorem lookup_base (h : Chain types t chain base rest) : lookup rest base = none := by
  induction h with
  | base h => exact h
  | custom _ _ ih => exact ih

theorem mem (h : Chain types t chain base rest) : ∀ p ∈ chain, p ∈ types := by
  induction h with
  | base _ => simp
  | custom hfound _ ih =>
    intro p hp
    rcases List.mem_cons.mp hp with rfl | hp
    · exact List.mem_of_find?_eq_some hfound
    · exact List.mem_of_mem_filter (ih p hp)

theorem nodup_names (h : Chain types t chain base rest) : (chain.map (·.name)).Nodup := by
  induction h with
  | base _ => simp
  | custom _ tail ih =>
    rw [List.map_cons, List.nodup_cons]
    refine ⟨fun hmem => ?_, ih⟩
    obtain ⟨q, hq, hname⟩ := List.mem_map.mp hmem
    have := (List.mem_filter.mp (tail.mem q hq)).2
    simp [hname] at this

/-- The lookups decide the chain. -/
theorem unique {chain' rest' : List ResourceType} {base' : String}
    (h : Chain types t chain base rest) (h' : Chain types t chain' base' rest') :
    chain' = chain ∧ base' = base ∧ rest' = rest := by
  induction h generalizing chain' base' rest' with
  | base hnone =>
    cases h' with
    | base _ => exact ⟨rfl, rfl, rfl⟩
    | custom hsome _ => simp [hnone] at hsome
  | custom hfound _ ih =>
    cases h' with
    | base hnone => simp [hfound] at hnone
    | custom hsome tail' =>
      rw [hfound, Option.some.injEq] at hsome
      subst hsome
      obtain ⟨rfl, rfl, rfl⟩ := ih tail'
      exact ⟨rfl, rfl, rfl⟩

theorem length_le (h : Chain types t chain base rest) : chain.length ≤ types.length := by
  induction h with
  | base _ => simp
  | custom hfound _ ih =>
    have := length_without_lt hfound
    simp only [List.length_cons]
    omega

end Chain
end ResourceTypes

/-- The custom types whose images a type image fetches, outermost first: the name and type of
its get plan, then of the get plan of that plan's image, and so on. -/
def TypeImage.fetchedTypes : TypeImage → List (String × String)
  | .mk _ _ _ (some (.get _ fields typeImage _)) => (fields.name, fields.type) :: typeImage.fetchedTypes
  | _ => []

/-- A path down the images of a type image, through the get or the check plan of each image, to
an image with no plans: the name and type of the image resource at each step. -/
inductive TypeImage.FetchPath : TypeImage → List (String × String) → Prop
  | base (baseType : String) (privileged : Bool) : FetchPath (.mk baseType privileged none none) []
  | get {baseType : String} {privileged : Bool} {checkPlan : Option Plan} {id : PlanID}
      {fields : GetFields} {typeImage : TypeImage} {versionFrom : Option PlanID}
      {path : List (String × String)} (h : FetchPath typeImage path) :
      FetchPath (.mk baseType privileged checkPlan (some (.get id fields typeImage versionFrom)))
        ((fields.name, fields.type) :: path)
  | check {baseType : String} {privileged : Bool} {getPlan : Option Plan} {id : PlanID}
      {fields : CheckFields} {typeImage : TypeImage} {path : List (String × String)}
      (h : FetchPath typeImage path) :
      FetchPath (.mk baseType privileged (some (.check id fields typeImage)) getPlan)
        ((fields.name, fields.type) :: path)

section Images

open ResourceTypes

variable (defaultCheckInterval : Nat)

mutual
/-- `ResourceTypes.ImageForType`: a base type as it is, a custom type through the plans that
fetch its image. -/
def imageForType (types : List ResourceType) (planID : PlanID) (resourceType : String)
    (stepTags : List String) (skipInterval : Bool) : TypeImage :=
  match h : lookup types resourceType with
  | none => .mk resourceType false none none
  | some parent =>
    let imageResource : ImageResource := ⟨parent.name, parent.type, none, parent.tags⟩
    let fetched := fetchImagePlan planID imageResource (without types parent.name) stepTags
      skipInterval parent.checkEvery
    -- the image resource has no version, so that the check plan is there to be set
    .mk ((fetched.1.getTypeImage?.map TypeImage.baseType).getD "") parent.privileged
      (fetched.2.map (·.withResourceType resourceType)) (some fetched.1)
termination_by 2 * types.length
decreasing_by have := length_without_lt h; omega

/-- `FetchImagePlan`: the get plan of the image and, when the image has no version, the check
plan it takes its version from. -/
def fetchImagePlan (planID : PlanID) (image : ImageResource) (resourceTypes : List ResourceType)
    (stepTags : List String) (skipInterval : Bool) (checkEvery : Option CheckEvery) :
    Plan × Option Plan :=
  let getPlanID := planID.imageGet
  let tags := if image.tags.isEmpty then stepTags else image.tags
  let getTypeImage := imageForType resourceTypes getPlanID image.type tags skipInterval
  match image.version with
  | none =>
    let checkPlanID := planID.imageCheck
    let interval := checkEvery.getD ⟨false, defaultCheckInterval⟩
    let checkPlan := Plan.check checkPlanID ⟨image.name, image.type, "", tags, skipInterval, interval⟩
      (imageForType resourceTypes checkPlanID image.type tags skipInterval)
    (.get getPlanID ⟨image.name, image.type, "", none, tags⟩ getTypeImage (some checkPlanID),
      some checkPlan)
  | some version =>
    (.get getPlanID ⟨image.name, image.type, "", some version, tags⟩ getTypeImage none, none)
termination_by 2 * resourceTypes.length + 1
end

end Images

/-- Plans fetched for the image of the plan `planID`: their IDs extend `planID` with image
suffixes and are distinct, their links stay among them, and none is an `across` plan. -/
structure ImageForest (planID : PlanID) (plans : List Plan) : Prop where
  below : ∀ q ∈ plans.flatMap Plan.nodes, planID.Below q.id
  nodup : ((plans.flatMap Plan.nodes).map Plan.id).Nodup
  resolves : Plan.Resolves (plans.flatMap Plan.nodes) (plans.flatMap Plan.nodes)
  noTemplate : ∀ q ∈ plans.flatMap Plan.nodes, q.template? = none

namespace ImageForest

theorem nil (planID : PlanID) : ImageForest planID [] :=
  ⟨by simp, by simp, by simp [Plan.Resolves], by simp⟩

variable {planID : PlanID} {plan : Plan}

/-- A plan named `planID` whose image plans form a forest for `planID`. -/
structure Node (planID : PlanID) (plan : Plan) : Prop where
  id_eq : plan.id = planID
  template_eq : plan.template? = none
  image : ImageForest planID plan.children

namespace Node

theorem extends_ (h : Node planID plan) : ∀ q ∈ plan.nodes, planID.Extends q.id := by
  intro q hq
  rw [Plan.nodes_eq, List.mem_cons] at hq
  rcases hq with rfl | hq
  · rw [h.id_eq]
    exact .refl
  · exact (h.image.below q hq).toExtends

theorem nodup (h : Node planID plan) : (plan.nodes.map Plan.id).Nodup := by
  rw [Plan.nodes_eq, List.map_cons, List.nodup_cons]
  refine ⟨fun hmem => ?_, h.image.nodup⟩
  obtain ⟨q, hq, hid⟩ := List.mem_map.mp hmem
  exact (h.image.below q hq).ne (hid.trans h.id_eq)

theorem noTemplate (h : Node planID plan) : ∀ q ∈ plan.nodes, q.template? = none := by
  intro q hq
  rw [Plan.nodes_eq, List.mem_cons] at hq
  rcases hq with rfl | hq
  · exact h.template_eq
  · exact h.image.noTemplate q hq

/-- The links of the image plans under the node stay among the node's plans. -/
theorem resolves_image (h : Node planID plan) :
    Plan.Resolves plan.nodes (plan.children.flatMap Plan.nodes) :=
  h.image.resolves.mono fun q hq => by
    rw [Plan.nodes_eq]
    exact List.mem_cons_of_mem _ hq

end Node

/-- The check plan and the get plan of an image, named after `planID`, form its forest when
the get takes its version from the check. -/
theorem checkThenGet {check get : Plan} (hcheck : Node planID.imageCheck check)
    (hget : Node planID.imageGet get) (hcheckFrom : check.versionFrom = none)
    (hcheckKind : check.isPutOrCheck = true) (hgetFrom : get.versionFrom = some planID.imageCheck) :
    ImageForest planID [check, get] := by
  have hnodes : [check, get].flatMap Plan.nodes = check.nodes ++ get.nodes := by simp
  refine ⟨?_, ?_, ?_, ?_⟩ <;> rw [hnodes]
  · intro q hq
    rcases List.mem_append.mp hq with hq | hq
    · exact .inr (hcheck.extends_ q hq)
    · exact .inl (hget.extends_ q hq)
  · rw [List.map_append, List.nodup_append]
    refine ⟨hcheck.nodup, hget.nodup, ?_⟩
    -- the check's IDs extend `planID/image-check`, the get's `planID/image-get`
    rintro _ hc _ hg rfl
    obtain ⟨c, hcmem, rfl⟩ := List.mem_map.mp hc
    obtain ⟨g, hgmem, hid⟩ := List.mem_map.mp hg
    exact PlanID.Extends.not_imageGet_imageCheck (hid ▸ hget.extends_ g hgmem)
      (hcheck.extends_ c hcmem)
  · refine Plan.Resolves.append (Plan.Resolves.nodes (by simp [hcheckFrom]) ?_)
      (Plan.Resolves.nodes ?_ ?_)
    · exact (Node.resolves_image hcheck).mono (List.subset_append_left _ _)
    · intro v hv
      rw [hgetFrom] at hv
      cases hv
      exact ⟨check, List.mem_append_left _ (Plan.mem_nodes_self check), hcheck.id_eq,
        hcheckKind⟩
    · exact (Node.resolves_image hget).mono (List.subset_append_right _ _)
  · intro q hq
    rcases List.mem_append.mp hq with hq | hq
    · exact hcheck.noTemplate q hq
    · exact hget.noTemplate q hq

end ImageForest

/-- The image plans of any plan form a forest for its ID, whatever the resource types,
including types defined in terms of themselves or of each other. -/
theorem imageForType_forest (defaultCheckInterval : Nat) (types : List ResourceType)
    (planID : PlanID) (resourceType : String) (stepTags : List String) (skipInterval : Bool) :
    ImageForest planID
      (imageForType defaultCheckInterval types planID resourceType stepTags
        skipInterval).plans := by
  rw [imageForType]
  split
  · exact ImageForest.nil planID
  · rename_i parent h
    have hshorter := ResourceTypes.length_without_lt h
    -- the image plans of the fetched get and check, over the types left
    have hget := imageForType_forest defaultCheckInterval (ResourceTypes.without types parent.name)
      planID.imageGet parent.type (if parent.tags.isEmpty then stepTags else parent.tags)
      skipInterval
    have hcheck := imageForType_forest defaultCheckInterval
      (ResourceTypes.without types parent.name) planID.imageCheck parent.type
      (if parent.tags.isEmpty then stepTags else parent.tags) skipInterval
    simp only [fetchImagePlan, Option.map_some, TypeImage.plans, Option.toList_some,
      List.singleton_append]
    exact ImageForest.checkThenGet ⟨rfl, rfl, hcheck⟩ ⟨rfl, rfl, hget⟩ rfl rfl rfl
termination_by types.length
decreasing_by all_goals assumption

/-- The lookups that `ImageForType` makes, read off the image it returns: its base type ends
the chain of lookups from the type, and every path down its image plans fetches the custom
types of that chain. -/
theorem imageForType_chain (defaultCheckInterval : Nat) (types : List ResourceType)
    (planID : PlanID) (resourceType : String) (stepTags : List String) (skipInterval : Bool) :
    let image := imageForType defaultCheckInterval types planID resourceType stepTags skipInterval
    ∃ chain base rest, ResourceTypes.Chain types resourceType chain base rest ∧
      image.baseType = base ∧ image.fetchedTypes = chain.map (fun p => (p.name, p.type)) ∧
      ∀ path, image.FetchPath path → path = chain.map fun p => (p.name, p.type) := by
  intro image
  dsimp only [image]
  rw [imageForType]
  split
  · rename_i h
    refine ⟨[], resourceType, types, .base h, rfl, rfl, ?_⟩
    intro path hpath
    cases hpath
    rfl
  · rename_i parent h
    have hshorter := ResourceTypes.length_without_lt h
    -- the image fetched for the get plan and the one for the check plan, over the types left
    obtain ⟨chain, base, rest, hchain, hbase, hfetched, hpaths⟩ := imageForType_chain
      defaultCheckInterval (ResourceTypes.without types parent.name) planID.imageGet parent.type
      (if parent.tags.isEmpty then stepTags else parent.tags) skipInterval
    obtain ⟨chainc, basec, restc, hchainc, -, -, hpathsc⟩ := imageForType_chain
      defaultCheckInterval (ResourceTypes.without types parent.name) planID.imageCheck parent.type
      (if parent.tags.isEmpty then stepTags else parent.tags) skipInterval
    obtain ⟨hsame, -, -⟩ := hchain.unique hchainc
    rw [hsame] at hpathsc
    refine ⟨parent :: chain, base, rest, .custom h hchain, ?_, ?_, ?_⟩
    · simpa [fetchImagePlan, Plan.getTypeImage?, TypeImage.baseType] using hbase
    · simpa [fetchImagePlan, TypeImage.fetchedTypes] using hfetched
    · intro path hpath
      simp only [fetchImagePlan, Option.map_some, Plan.withResourceType] at hpath
      cases hpath with
      | get h => simp [hpaths _ h]
      | check h => simp [hpathsc _ h]
termination_by types.length
decreasing_by all_goals assumption

/-- Whatever the resource types, cycles, self-references and shadowed names included, the image
of a type bottoms out: the lookups from the type go through at most as many custom types as
there are types, each name once, to a base type that the types left there do not define; the
image's base type is that one, and every path of image plans, through gets or checks, fetches
the custom types of that chain in order. -/
theorem imageForType_bottomsOut (defaultCheckInterval : Nat) (types : List ResourceType)
    (planID : PlanID) (resourceType : String) (stepTags : List String) (skipInterval : Bool) :
    let image := imageForType defaultCheckInterval types planID resourceType stepTags skipInterval
    ∃ chain base rest, ResourceTypes.Chain types resourceType chain base rest ∧
      ResourceTypes.lookup rest base = none ∧ (chain.map (·.name)).Nodup ∧
      chain.length ≤ types.length ∧ image.baseType = base ∧
      image.fetchedTypes = chain.map (fun p => (p.name, p.type)) ∧
      ∀ path, image.FetchPath path → path = chain.map fun p => (p.name, p.type) := by
  intro image
  obtain ⟨chain, base, rest, hchain, hbase, hfetched, hpaths⟩ :=
    imageForType_chain defaultCheckInterval types planID resourceType stepTags skipInterval
  exact ⟨chain, base, rest, hchain, hchain.lookup_base, hchain.nodup_names, hchain.length_le,
    hbase, hfetched, hpaths⟩

end Atc
end Concourse
