import Mathlib.Logic.Basic

/-!
# Deterministic machines

A program that is run step by step: `next` is none when it has returned.
-/

namespace Libnei.Lib

variable {σ : Type} {next : σ → Option σ}

/-- The machine runs from the first state and stops in the second. -/
inductive Ends (next : σ → Option σ) : σ → σ → Prop
  | halt {state : σ} : next state = none → Ends next state state
  | step {state state' final : σ} : next state = some state' →
      Ends next state' final → Ends next state final

def Terminates (next : σ → Option σ) (state : σ) : Prop :=
  ∃ final, Ends next state final

theorem Ends.functional {state final other : σ}
    (ends : Ends next state final) (ends' : Ends next state other) :
    final = other := by
  induction ends with
  | halt halted =>
    cases ends' with
    | halt => rfl
    | step stepped => rw [halted] at stepped; contradiction
  | step stepped _ ih =>
    cases ends' with
    | halt halted => rw [halted] at stepped; contradiction
    | step stepped' tail =>
      rw [stepped] at stepped'
      cases stepped'
      exact ih tail

theorem terminates_of_step {state state' : σ}
    (stepped : next state = some state') :
    Terminates next state ↔ Terminates next state' := by
  constructor
  · rintro ⟨final, ends⟩
    cases ends with
    | halt halted => rw [halted] at stepped; contradiction
    | step stepped' tail =>
      rw [stepped] at stepped'
      cases stepped'
      exact ⟨final, tail⟩
  · rintro ⟨final, ends⟩
    exact ⟨final, .step stepped ends⟩

/-- A step that changes nothing is made again and again. -/
theorem not_terminates_of_fixed {state : σ}
    (fixed : next state = some state) : ¬Terminates next state := by
  rintro ⟨final, ends⟩
  induction ends with
  | halt halted => rw [halted] at fixed; contradiction
  | step stepped _ ih =>
    rw [fixed] at stepped
    cases stepped
    exact ih fixed

end Libnei.Lib
