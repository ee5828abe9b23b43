import Mathlib.Logic.Basic

/-!
# Transition systems

States, where a run may start and what one step may do; and the rule that an
invariant is proved for the start and for one step.
-/

namespace Libnei.Lib

structure System (σ : Type) where
  initial : σ → Prop
  step : σ → σ → Prop

namespace System

variable {σ : Type} (system : System σ)

/-- The states of the runs. -/
inductive Reachable : σ → Prop
  | start {state : σ} : system.initial state → Reachable state
  | next {state state' : σ} : Reachable state →
      system.step state state' → Reachable state'

variable {system}

theorem Reachable.invariant {holds : σ → Prop} {state : σ}
    (reachable : system.Reachable state)
    (initially : ∀ {state}, system.initial state → holds state)
    (kept : ∀ {state state'}, holds state → system.step state state' →
      holds state') :
    holds state := by
  induction reachable with
  | start initial => exact initially initial
  | next _ step ih => exact kept ih step

end System

end Libnei.Lib
