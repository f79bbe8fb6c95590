import Mathlib.Logic.Relation

/-!
# Systems of atomic steps

A system given by a partial step function: an action is taken in a state where it is enabled,
and the runs of the system are all the interleavings of its actions.  This file gives the
reachable states, the rule that proves an invariant of all of them from its initial case and one
step, the rule that carries reachability from a composed system to one of its parts, and a
schedule runner for testing a system on a fixed order of actions.
-/

namespace Interleaving

variable {σ τ α β : Type}

/-- `s'` is one enabled action away from `s`. -/
def Steps (step : σ → α → Option σ) (s s' : σ) : Prop := ∃ a, step s a = some s'

/-- The states some interleaving of enabled actions reaches from `init`. -/
def Reachable (step : σ → α → Option σ) (init : σ) : σ → Prop :=
  Relation.ReflTransGen (Steps step) init

variable {step : σ → α → Option σ} {init s s' : σ}

theorem reachable_init : Reachable step init init := Relation.ReflTransGen.refl

theorem Reachable.next (hs : Reachable step init s) {a : α} (ha : step s a = some s') :
    Reachable step init s' :=
  Relation.ReflTransGen.tail hs ⟨a, ha⟩

/-- An invariant that holds initially and that every enabled action keeps holds in every
reachable state. -/
theorem Reachable.invariant {P : σ → Prop} (h0 : P init)
    (hstep : ∀ s a s', Reachable step init s → P s → step s a = some s' → P s')
    (hs : Reachable step init s) : P s := by
  induction hs with
  | refl => exact h0
  | tail hr hss ih =>
    obtain ⟨a, ha⟩ := hss
    exact hstep _ a _ hr ih ha

/-- A part of a composed system: when every action of the whole leaves the part as it is or moves
it by one action of the part, the part of a reachable state is reachable by the part alone. -/
theorem Reachable.map {step' : τ → β → Option τ} {init' : τ} (f : σ → τ) (h0 : f init = init')
    (hstep : ∀ s a s', Reachable step init s → step s a = some s' →
      f s' = f s ∨ ∃ b, step' (f s) b = some (f s'))
    (hs : Reachable step init s) : Reachable step' init' (f s) := by
  induction hs with
  | refl => rw [h0]; exact Relation.ReflTransGen.refl
  | tail hr hss ih =>
    obtain ⟨a, ha⟩ := hss
    rcases hstep _ a _ hr ha with heq | ⟨b, hb⟩
    · rw [heq]
      exact ih
    · exact Relation.ReflTransGen.tail ih ⟨b, hb⟩

variable (step) in
/-- Takes the actions of `acts` in order, passing over the ones not enabled. -/
def runSchedule (s : σ) : List α → σ
  | [] => s
  | a :: acts => runSchedule ((step s a).getD s) acts

/-- Every schedule from a reachable state ends in a reachable state. -/
theorem reachable_runSchedule (hs : Reachable step init s) (acts : List α) :
    Reachable step init (runSchedule step s acts) := by
  induction acts generalizing s with
  | nil => exact hs
  | cons a acts ih =>
    apply ih
    rcases ha : step s a with _ | s'
    · exact hs
    · exact hs.next ha

end Interleaving
