import Mathlib.Data.List.Basic

/-!
# Folds that stop at the first error

A `List.foldlM` in `Except ε` threads a state through its steps and stops at the first error.
An invariant argument over such a fold needs two facts, proved here once:

1. a property of the state that every step keeps when it returns holds of what the fold returns
   (`foldlM_ok_of_step`);
2. an error of the fold is the error of one of its steps, run on a state that the steps before
   it returned, and so on a state with the property (`foldlM_error_of_step`).

Where the property speaks of the elements gone through, it is indexed by that prefix
(`foldlM_ok_of_step_prefix`).

A `List.forM` is such a fold with no state: it returns when every step does (`forM_ok`), and its
error is the error of a step (`forM_error`).  A `List.mapM` that returns pairs each element with
what its step returned (`mapM_ok`).
-/

namespace ExceptFold

variable {ε σ β : Type*}

theorem foldlM_ok_of_step {f : σ → β → Except ε σ} (P : σ → Prop) :
    ∀ (l : List β) {s s' : σ}, (∀ b ∈ l, ∀ t t', P t → f t b = .ok t' → P t') → P s →
      l.foldlM f s = .ok s' → P s'
  | [], _, _, _, hs, h => by
    cases h
    exact hs
  | b :: l, s, _, hstep, hs, h => by
    simp only [List.foldlM_cons, bind, Except.bind] at h
    split at h
    · cases h
    · rename_i t ht
      exact foldlM_ok_of_step P l (fun b' hb' => hstep b' (List.mem_cons_of_mem _ hb'))
        (hstep b List.mem_cons_self s t hs ht) h

/-- A property of the state and of the elements the fold has gone through, which every step
extends by its element, holds of what the fold returns after all of them. -/
theorem foldlM_ok_of_step_prefix {f : σ → β → Except ε σ} (P : List β → σ → Prop)
    (hstep : ∀ done t b t', P done t → f t b = .ok t' → P (done ++ [b]) t') :
    ∀ (l done : List β) {s s' : σ}, P done s → l.foldlM f s = .ok s' → P (done ++ l) s'
  | [], done, _, _, hs, h => by
    cases h
    simpa using hs
  | b :: l, done, s, _, hs, h => by
    simp only [List.foldlM_cons, bind, Except.bind] at h
    split at h
    · cases h
    · rename_i t ht
      simpa using foldlM_ok_of_step_prefix P hstep l (done ++ [b]) (hstep done s b t hs ht) h

/-- The error of a fold is the error of one of its steps, run on a state that keeps the
property. -/
theorem foldlM_error_of_step {f : σ → β → Except ε σ} (P : σ → Prop) :
    ∀ (l : List β) {s : σ} {e : ε}, (∀ b ∈ l, ∀ t t', P t → f t b = .ok t' → P t') → P s →
      l.foldlM f s = .error e → ∃ b ∈ l, ∃ t, P t ∧ f t b = .error e
  | [], _, _, _, _, h => by cases h
  | b :: l, s, e, hstep, hs, h => by
    simp only [List.foldlM_cons, bind, Except.bind] at h
    split at h
    · -- the first step failed
      rename_i e' he'
      cases h
      exact ⟨b, List.mem_cons_self, s, hs, he'⟩
    · rename_i t ht
      obtain ⟨b', hb', t', ht', herr⟩ := foldlM_error_of_step P l
        (fun b' hb' => hstep b' (List.mem_cons_of_mem _ hb'))
        (hstep b List.mem_cons_self s t hs ht) h
      exact ⟨b', List.mem_cons_of_mem _ hb', t', ht', herr⟩

theorem forM_ok {f : β → Except ε Unit} :
    ∀ {l : List β}, l.forM f = .ok () → ∀ b ∈ l, f b = .ok ()
  | [], _ => by simp
  | b :: l, h => by
    simp only [List.forM, bind, Except.bind] at h
    split at h
    · cases h
    · rename_i u hb
      intro b' hb'
      rcases List.mem_cons.mp hb' with rfl | hb'
      · exact hb
      · exact forM_ok h b' hb'

theorem forM_error {f : β → Except ε Unit} :
    ∀ {l : List β} {e : ε}, l.forM f = .error e → ∃ b ∈ l, f b = .error e
  | [], _, h => by cases h
  | b :: l, e, h => by
    simp only [List.forM, bind, Except.bind] at h
    split at h
    · rename_i e' hb
      cases h
      exact ⟨b, List.mem_cons_self, hb⟩
    · obtain ⟨b', hb', herr⟩ := forM_error h
      exact ⟨b', List.mem_cons_of_mem _ hb', herr⟩

theorem mapM_ok {f : β → Except ε σ} :
    ∀ {l : List β} {r : List σ}, l.mapM f = .ok r → List.Forall₂ (fun b s => f b = .ok s) l r
  | [], r, h => by
    cases h
    exact .nil
  | b :: l, r, h => by
    simp only [List.mapM_cons, bind, Except.bind] at h
    split at h
    · cases h
    · rename_i s hb
      split at h
      · cases h
      · rename_i rest hrest
        cases h
        exact .cons hb (mapM_ok hrest)

end ExceptFold
