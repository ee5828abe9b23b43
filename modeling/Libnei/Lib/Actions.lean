import Mathlib.Data.List.Forall2
import Mathlib.Tactic.ByContra

/-!
# Runs of actions

A machine that takes one action at a time, `none` where the action is not
possible.  The rules say what holds at the end of a run: an invariant of every
action, an invariant of all but some bad actions, and what a bad action
leaves behind.
-/

namespace Libnei.Lib

variable {σ α : Type} {step : σ → α → Option σ}

/-- The state behind a list of actions. -/
def perform (step : σ → α → Option σ) : σ → List α → Option σ
  | state, [] => some state
  | state, action :: actions =>
      match step state action with
      | some next => perform step next actions
      | none => none

/-- No action of the run is a bad one. -/
def Avoids (step : σ → α → Option σ) (bad : σ → α → Prop) : σ → List α → Prop
  | _, [] => True
  | state, action :: actions =>
      ¬bad state action ∧
        ∀ next ∈ step state action, Avoids step bad next actions

instance decidableAvoids {bad : σ → α → Prop}
    [∀ state action, Decidable (bad state action)] :
    ∀ state actions, Decidable (Avoids step bad state actions)
  | _, [] => .isTrue trivial
  | state, action :: actions =>
      let _ : DecidablePred (Avoids step bad · actions) :=
        fun next => decidableAvoids next actions
      inferInstanceAs (Decidable (¬bad state action ∧
        ∀ next ∈ step state action, Avoids step bad next actions))

variable {state final : σ} {actions : List α} {bad : σ → α → Prop}
  {holds : σ → Prop}

theorem perform_cons {action : α}
    (performed : perform step state (action :: actions) = some final) :
    ∃ next, step state action = some next ∧
      perform step next actions = some final := by
  rw [perform] at performed
  cases taken : step state action with
  | none => rw [taken] at performed; cases performed
  | some next =>
    rw [taken] at performed
    exact ⟨next, rfl, performed⟩

theorem perform_of_step {state next : σ} {action : α}
    (taken : step state action = some next) (actions : List α) :
    perform step state (action :: actions) = perform step next actions := by
  rw [perform, taken]

theorem perform_append {state middle : σ}
    (performed : perform step state actions = some middle) (others : List α) :
    perform step state (actions ++ others) = perform step middle others := by
  induction actions generalizing state with
  | nil =>
    cases performed
    rfl
  | cons action actions ih =>
    obtain ⟨next, taken, performed⟩ := perform_cons performed
    rw [List.cons_append, perform_of_step taken]
    exact ih performed

theorem Avoids.mono {bad bad' : σ → α → Prop}
    (fewer : ∀ {state action}, bad' state action → bad state action)
    (avoids : Avoids step bad state actions) :
    Avoids step bad' state actions := by
  induction actions generalizing state with
  | nil => trivial
  | cons action actions ih =>
    exact ⟨mt fewer avoids.1,
      fun next taken => ih (avoids.2 next taken)⟩

theorem Avoids.either {bad bad' : σ → α → Prop}
    (avoids : Avoids step bad state actions)
    (avoids' : Avoids step bad' state actions) :
    Avoids step (fun state action => bad state action ∨ bad' state action)
      state actions := by
  induction actions generalizing state with
  | nil => trivial
  | cons action actions ih =>
    exact ⟨not_or.mpr ⟨avoids.1, avoids'.1⟩, fun next taken =>
      ih (avoids.2 next taken) (avoids'.2 next taken)⟩

theorem Avoids.of_append {actions others : List α}
    (avoids : Avoids step bad state (actions ++ others)) :
    Avoids step bad state actions ∧ ∀ middle,
      perform step state actions = some middle →
        Avoids step bad middle others := by
  induction actions generalizing state with
  | nil =>
    refine ⟨trivial, fun middle performed => ?_⟩
    cases performed
    exact avoids
  | cons action actions ih =>
    refine ⟨⟨avoids.1, fun next taken =>
      (ih (avoids.2 next taken)).1⟩, fun middle performed => ?_⟩
    obtain ⟨next, taken, performed⟩ := perform_cons performed
    exact (ih (avoids.2 next taken)).2 middle performed

theorem avoids_of_forall {bad : α → Prop}
    (none : ∀ action ∈ actions, ¬bad action) (state : σ) :
    Avoids step (fun _ => bad) state actions := by
  induction actions generalizing state with
  | nil => trivial
  | cons action actions ih =>
    refine ⟨none action List.mem_cons_self, fun next _ => ?_⟩
    exact ih (fun other member =>
      none other (List.mem_cons_of_mem _ member)) next

theorem perform_avoiding
    (kept : ∀ {state action next}, holds state → ¬bad state action →
      step state action = some next → holds next)
    {state final : σ} {actions : List α}
    (performed : perform step state actions = some final)
    (avoids : Avoids step bad state actions) (initially : holds state) :
    holds final := by
  induction actions generalizing state with
  | nil =>
    cases performed
    exact initially
  | cons action actions ih =>
    obtain ⟨next, taken, performed⟩ := perform_cons performed
    exact ih performed (avoids.2 next taken)
      (kept initially avoids.1 taken)

theorem perform_invariant (kept : ∀ {state action next}, holds state →
      step state action = some next → holds next)
    {state final : σ} {actions : List α}
    (performed : perform step state actions = some final)
    (initially : holds state) : holds final := by
  have avoids : Avoids step (fun _ _ => False) state actions :=
    avoids_of_forall (fun _ _ => id) state
  exact perform_avoiding (fun before _ taken => kept before taken) performed
    avoids initially

/-- An invariant that speaks of the actions so far. -/
theorem perform_history {holds : List α → σ → Prop}
    (kept : ∀ {past state action next}, holds past state →
      step state action = some next → holds (past ++ [action]) next)
    {state final : σ} {actions : List α}
    (performed : perform step state actions = some final)
    (initially : holds [] state) : holds actions final := by
  have later : ∀ {actions past state}, holds past state →
      perform step state actions = some final →
        holds (past ++ actions) final := by
    intro actions
    induction actions with
    | nil =>
      intro past state before performed
      cases performed
      rw [List.append_nil]
      exact before
    | cons action actions ih =>
      intro past state before performed
      obtain ⟨next, taken, performed⟩ := perform_cons performed
      rw [List.append_cons]
      exact ih (kept before taken) performed
  exact later initially performed

/-- What a bad action brings about and no action ends. -/
theorem perform_not_avoiding
    (entered : ∀ {state action next}, bad state action →
      step state action = some next → holds next)
    (kept : ∀ {state action next}, holds state →
      step state action = some next → holds next)
    {state final : σ} {actions : List α}
    (performed : perform step state actions = some final)
    (bads : ¬Avoids step bad state actions) : holds final := by
  induction actions generalizing state with
  | nil => exact absurd trivial bads
  | cons action actions ih =>
    obtain ⟨next, taken, performed⟩ := perform_cons performed
    by_cases here : bad state action
    · exact perform_invariant kept performed (entered here taken)
    · refine ih performed fun avoids => bads ⟨here, ?_⟩
      intro other taken'
      obtain rfl := Option.some.inj (taken.symm.trans taken')
      exact avoids

end Libnei.Lib
