import Mathlib.Data.List.Basic

/-!
# Incremental consumers

A consumer looks at the input that is pending, moves its state forward, says
which part of the input is still pending and hands out finished items.  It
stops when it needs more input than there is.

The question for every reader of a byte stream is whether the arrival
boundaries of the input can be observed.  `Absorbing` is the local condition
on one step under which they cannot: a step made on the available input is
either the step that would have been made with more input, or it used up all
of the input and merges with the following step.
-/

namespace Libnei.Lib

/-- One step of a stream reader: the next state, the input that is still
pending, and the items finished by the step. -/
structure Consumer (σ α β : Type) where
  step : σ → List α → Option (σ × List α × List β)

namespace Consumer

variable {σ α β : Type} (machine : Consumer σ α β)

/-- Stepping until more input is needed. -/
inductive Drains : σ → List α → List β → σ → List α → Prop where
  | stop {state : σ} {input : List α} : machine.step state input = none →
      Drains state input [] state input
  | next {state middle final : σ} {input rest left : List α}
      {first items : List β} :
      machine.step state input = some (middle, rest, first) →
      Drains middle rest items final left →
      Drains state input (first ++ items) final left

/-- A step is insensitive to input that arrives later: with `extra` behind
the input the same step is made, unless the step used up the input and
finished nothing; then it merges with the step that any `extra` allows. -/
def Absorbing : Prop :=
  ∀ {state middle : σ} {input rest : List α} {first : List β},
    machine.step state input = some (middle, rest, first) →
    ∀ extra : List α, machine.step state (input ++ extra) =
          some (middle, rest ++ extra, first) ∨
        (rest = [] ∧ first = [] ∧ machine.step middle [] = none ∧
          (extra ≠ [] → (machine.step middle extra).isSome ∧
            machine.step state (input ++ extra) = machine.step middle extra))

variable {machine}

variable {state final : σ} {input left : List α} {items : List β}

theorem Drains.functional {final' : σ} {left' : List α} {items' : List β}
    (first : machine.Drains state input items final left)
    (second : machine.Drains state input items' final' left') :
    items = items' ∧ final = final' ∧ left = left' := by
  induction first generalizing items' final' left' with
  | stop stuck =>
    cases second with
    | stop => exact ⟨rfl, rfl, rfl⟩
    | next moved => simp [stuck] at moved
  | next moved _ ih =>
    cases second with
    | stop stuck => simp [stuck] at moved
    | next moved' tail' =>
      rw [moved] at moved'
      simp only [Option.some.injEq, Prod.mk.injEq] at moved'
      obtain ⟨rfl, rfl, rfl⟩ := moved'
      obtain ⟨sameItems, sameFinal, sameLeft⟩ := ih tail'
      exact ⟨by rw [sameItems], sameFinal, sameLeft⟩

theorem Drains.of_step_none (stuck : machine.step state input = none)
    (drains : machine.Drains state input items final left) :
    items = [] ∧ final = state ∧ left = input :=
  drains.functional (.stop stuck)

theorem Drains.stuck (drains : machine.Drains state input items final left) :
    machine.step final left = none := by
  induction drains with
  | stop stuck => exact stuck
  | next _ _ ih => exact ih

/-- Draining some input and then the rest of it is draining all of it. -/
theorem Drains.append (absorbing : machine.Absorbing) {middle : σ}
    {extra rest : List α} {items' : List β}
    (first : machine.Drains state input items middle rest)
    (second : machine.Drains middle (rest ++ extra) items' final left) :
    machine.Drains state (input ++ extra) (items ++ items') final left := by
  induction first with
  | stop => exact second
  | @next state next middle input pending rest finished items moved tail
      ih =>
      have whole := ih second
      rcases absorbing moved extra with same | merged
      · rw [List.append_assoc]
        exact .next same whole
      · obtain ⟨rfl, rfl, quiet, merges⟩ := merged
        rw [List.nil_append] at whole ⊢
        by_cases ended : extra = []
        · subst ended
          simpa using Drains.next moved whole
        · obtain ⟨continues, sameStep⟩ := merges ended
          generalize items ++ items' = all at whole ⊢
          cases whole with
          | stop stuck => simp [stuck] at continues
          | next moved' tail' =>
            rw [← sameStep] at moved'
            exact .next moved' tail'

end Consumer

end Libnei.Lib
