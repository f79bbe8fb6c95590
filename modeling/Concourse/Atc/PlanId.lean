import Concourse.Lib.GoText

/-!
# Plan IDs

A `PlanID` is a string.  The code makes them three ways: `PlanFactory.NewPlan` writes the next
number of its counter with `%x` (`atc/plan_factory.go`); `FetchImagePlan` appends
`/image-get` or `/image-check` to the ID of the plan whose image it fetches
(`atc/config.go`); `ConstructAcrossSubsteps` writes `<acrossID>/<index>/<counter>`
(`atc/engine/build_step_delegate.go`).  `PlanID` records how an ID was made and
`PlanID.render` is the string the code makes; `render_injective` says that two IDs made
differently are different strings, so that IDs can be compared as they were made.

`PlanID.Extends p q` says that `q` is `p` with image suffixes appended: the IDs of the image
plans fetched for a plan `p` extend `p`, and `FetchImagePlan` makes the get and the check of
one image from IDs that no common ID extends.
-/

namespace Concourse
namespace Atc

open GoText

/-- `PlanID`, by how it was made. -/
inductive PlanID where
  /-- a number of the plan factory's counter -/
  | num (n : Int)
  /-- `planID + "/image-get"` -/
  | imageGet (plan : PlanID)
  /-- `planID + "/image-check"` -/
  | imageCheck (plan : PlanID)
  /-- `fmt.Sprintf("%s/%d/%d", acrossID, index, counter)` -/
  | substep (across : PlanID) (index counter : Nat)
  deriving DecidableEq, Repr

namespace PlanID

/-- The string of a plan ID. -/
def render : PlanID → String
  | num n => String.ofList (fmtHex n)
  | imageGet plan => plan.render ++ "/image-get"
  | imageCheck plan => plan.render ++ "/image-check"
  | substep across index counter =>
    across.render ++ "/" ++ toString index ++ "/" ++ toString counter

/-- The counter number an ID was made from through image suffixes. -/
def root : PlanID → Option Int
  | num n => some n
  | imageGet plan => plan.root
  | imageCheck plan => plan.root
  | substep .. => none

/-- The number of image suffixes at the end of an ID. -/
def imageDepth : PlanID → Nat
  | imageGet plan => plan.imageDepth + 1
  | imageCheck plan => plan.imageDepth + 1
  | num _ | substep .. => 0

section Equations

variable {plan across : PlanID} {n : Int} {index counter : Nat}

-- one equation per constructor, so that proofs do not each unfold the recursive definitions
theorem render_num : (num n).render = String.ofList (fmtHex n) := rfl
theorem render_imageGet : (imageGet plan).render = plan.render ++ "/image-get" := rfl
theorem render_imageCheck : (imageCheck plan).render = plan.render ++ "/image-check" := rfl
theorem render_substep : (substep across index counter).render =
    across.render ++ "/" ++ toString index ++ "/" ++ toString counter := rfl

theorem root_num : (num n).root = some n := rfl
theorem root_imageGet : (imageGet plan).root = plan.root := rfl
theorem root_imageCheck : (imageCheck plan).root = plan.root := rfl
theorem root_substep : (substep across index counter).root = none := rfl

theorem imageDepth_imageGet : (imageGet plan).imageDepth = plan.imageDepth + 1 := rfl
theorem imageDepth_imageCheck : (imageCheck plan).imageDepth = plan.imageDepth + 1 := rfl
theorem imageDepth_num : (num n).imageDepth = 0 := rfl
theorem imageDepth_substep : (substep across index counter).imageDepth = 0 := rfl

end Equations

/-! ## Rendering -/

theorem toList_render_num (n : Int) : (num n).render.toList = fmtHex n := by
  simp [render_num]

theorem toList_render_imageGet (plan : PlanID) :
    (imageGet plan).render.toList = plan.render.toList ++ '/' :: "image-get".toList := by
  simp [render_imageGet]

theorem toList_render_imageCheck (plan : PlanID) :
    (imageCheck plan).render.toList = plan.render.toList ++ '/' :: "image-check".toList := by
  simp [render_imageCheck]

theorem toList_render_substep (across : PlanID) (index counter : Nat) :
    (substep across index counter).render.toList =
      (across.render.toList ++ '/' :: Nat.toDigits 10 index) ++ '/' :: Nat.toDigits 10 counter := by
  simp [render_substep, Nat.toString_eq_repr, Nat.toList_repr]

/-- A counter number is written without `/`; every other ID has one. -/
theorem slash_mem_render_iff (plan : PlanID) : '/' ∈ plan.render.toList ↔ plan.root = none ∨
    ∃ inner, plan = imageGet inner ∨ plan = imageCheck inner := by
  cases plan with
  | num n => simpa [toList_render_num, root_num] using slash_not_mem_fmtHex n
  | imageGet plan => simp [toList_render_imageGet]
  | imageCheck plan => simp [toList_render_imageCheck]
  | substep across index counter => simp [toList_render_substep, root_substep]

/-- A counter number renders without `/`, which every other ID's string has. -/
theorem render_num_ne {m : Int} {q : PlanID} (hq : '/' ∈ q.render.toList) :
    (num m).render ≠ q.render := by
  intro h
  have hslash := (slash_mem_render_iff (num m)).mp (h ▸ hq)
  simp [root_num] at hslash

/-- An image ID's string ends in `/image-get` or `/image-check`, which no substep ID's string
does: it ends in the digits of its counter. -/
theorem toList_render_ne_substep {p q : PlanID} {suffix : List Char} (hslash : '/' ∉ suffix)
    (hi : 'i' ∈ suffix) (index counter : Nat) :
    p.render.toList ++ '/' :: suffix ≠ (substep q index counter).render.toList := by
  rw [toList_render_substep]
  intro h
  have htail := (append_cons_inj_of_not_mem hslash (not_mem_toDigits_ten (by decide) counter) h).2
  exact not_mem_toDigits_ten (by decide : Char.isDigit 'i' = false) counter (htail ▸ hi)

/-- Different IDs render to different strings. -/
theorem render_injective : ∀ {p q : PlanID}, p.render = q.render → p = q
  | num m, num n, h =>
    congrArg num (fmtHex_injective (by simpa [toList_render_num] using congrArg String.toList h))
  | num m, imageGet q, h | num m, imageCheck q, h | num m, substep q _ _, h =>
    absurd h (render_num_ne ((slash_mem_render_iff _).mpr (by simp [root_substep])))
  | imageGet p, num n, h | imageCheck p, num n, h | substep p _ _, num n, h =>
    absurd h.symm (render_num_ne ((slash_mem_render_iff _).mpr (by simp [root_substep])))
  | imageGet p, imageGet q, h => by
    have h' := congrArg String.toList h
    rw [toList_render_imageGet, toList_render_imageGet] at h'
    rw [render_injective (String.toList_inj.mp (append_cons_inj_of_not_mem (by decide)
      (by decide) h').1)]
  | imageCheck p, imageCheck q, h => by
    have h' := congrArg String.toList h
    rw [toList_render_imageCheck, toList_render_imageCheck] at h'
    rw [render_injective (String.toList_inj.mp (append_cons_inj_of_not_mem (by decide)
      (by decide) h').1)]
  | imageGet p, imageCheck q, h | imageCheck p, imageGet q, h => by
    have h' := congrArg String.toList h
    simp only [toList_render_imageGet, toList_render_imageCheck] at h'
    have := (append_cons_inj_of_not_mem (by decide) (by decide) h').2
    simp at this
  | imageGet p, substep q i c, h =>
    absurd (toList_render_imageGet p ▸ congrArg String.toList h)
      (toList_render_ne_substep (by decide) (by decide) i c)
  | imageCheck p, substep q i c, h =>
    absurd (toList_render_imageCheck p ▸ congrArg String.toList h)
      (toList_render_ne_substep (by decide) (by decide) i c)
  | substep p i c, imageGet q, h =>
    absurd (toList_render_imageGet q ▸ congrArg String.toList h.symm)
      (toList_render_ne_substep (by decide) (by decide) i c)
  | substep p i c, imageCheck q, h =>
    absurd (toList_render_imageCheck q ▸ congrArg String.toList h.symm)
      (toList_render_ne_substep (by decide) (by decide) i c)
  | substep p i c, substep q j d, h => by
    have h' := congrArg String.toList h
    rw [toList_render_substep, toList_render_substep] at h'
    -- the counter follows the last `/`, the index the one before
    obtain ⟨hfront, hcounter⟩ := append_cons_inj_of_not_mem
      (not_mem_toDigits_ten (by decide) c) (not_mem_toDigits_ten (by decide) d) h'
    obtain ⟨hacross, hindex⟩ := append_cons_inj_of_not_mem
      (not_mem_toDigits_ten (by decide) i) (not_mem_toDigits_ten (by decide) j) hfront
    rw [render_injective (String.toList_inj.mp hacross), toDigits_ten_injective hindex,
      toDigits_ten_injective hcounter]

/-! ## Image suffixes -/

/-- `q` is `p` with image suffixes appended. -/
inductive Extends (p : PlanID) : PlanID → Prop
  | refl : Extends p p
  | imageGet {q : PlanID} : Extends p q → Extends p (imageGet q)
  | imageCheck {q : PlanID} : Extends p q → Extends p (imageCheck q)

/-- `q` is `p` with at least one image suffix appended. -/
def Below (p q : PlanID) : Prop :=
  Extends (imageGet p) q ∨ Extends (imageCheck p) q

namespace Extends

variable {p q r : PlanID}

theorem trans (hpq : Extends p q) (hqr : Extends q r) : Extends p r := by
  induction hqr with
  | refl => exact hpq
  | imageGet _ ih => exact ih.imageGet
  | imageCheck _ ih => exact ih.imageCheck

theorem root_eq (h : Extends p q) : q.root = p.root := by
  induction h with
  | refl => rfl
  | imageGet _ ih | imageCheck _ ih => simpa [root_imageGet, root_imageCheck] using ih

theorem imageDepth_le (h : Extends p q) : p.imageDepth ≤ q.imageDepth := by
  induction h with
  | refl => exact Nat.le_refl _
  | imageGet _ ih | imageCheck _ ih => simp only [imageDepth_imageGet, imageDepth_imageCheck]; omega

theorem eq_of_imageDepth_le (h : Extends p q) (hd : q.imageDepth ≤ p.imageDepth) : p = q := by
  cases h with
  | refl => rfl
  | imageGet h | imageCheck h =>
    have := h.imageDepth_le
    simp only [imageDepth_imageGet, imageDepth_imageCheck] at hd
    omega

/-- Two IDs that one ID extends are one an extension of the other. -/
theorem total {p' : PlanID} (hp : Extends p q) (hp' : Extends p' q) :
    Extends p p' ∨ Extends p' p := by
  induction hp with
  | refl => exact .inr hp'
  | imageGet h ih =>
    cases hp' with
    | refl => exact .inl h.imageGet
    | imageGet hp' => exact ih hp'
  | imageCheck h ih =>
    cases hp' with
    | refl => exact .inl h.imageCheck
    | imageCheck hp' => exact ih hp'

/-- No ID extends both the image get and the image check of one plan. -/
theorem not_imageGet_imageCheck (hget : Extends (PlanID.imageGet p) q)
    (hcheck : Extends (PlanID.imageCheck p) q) : False := by
  rcases hget.total hcheck with h | h
  · cases h.eq_of_imageDepth_le (by simp [imageDepth_imageGet, imageDepth_imageCheck])
  · cases h.eq_of_imageDepth_le (by simp [imageDepth_imageGet, imageDepth_imageCheck])

end Extends

namespace Below

variable {p q : PlanID}

theorem toExtends (h : Below p q) : Extends p q := by
  rcases h with h | h
  · exact Extends.trans (Extends.refl.imageGet) h
  · exact Extends.trans (Extends.refl.imageCheck) h

theorem ne (h : Below p q) : q ≠ p := by
  rintro rfl
  rcases h with h | h <;>
  · have := h.imageDepth_le
    simp only [imageDepth_imageGet, imageDepth_imageCheck] at this
    omega

theorem root_eq (h : Below p q) : q.root = p.root :=
  h.toExtends.root_eq

end Below

end PlanID

end Atc
end Concourse
