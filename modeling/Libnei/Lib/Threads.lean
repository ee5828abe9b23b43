import Libnei.Lib.Actions
import Mathlib.Algebra.BigOperators.Group.Finset.Piecewise
import Mathlib.Data.Fintype.Basic

/-!
# Threads over a shared memory

A machine of threads that take their steps one at a time, in any order.  A
step of a thread sees and changes the memory and the state of this thread
only.
-/

namespace Libnei.Lib

structure Threads (Thread Memory Local : Type) where
  memory : Memory
  threads : Thread → Local

namespace Threads

variable {Thread Memory Local Command : Type} [DecidableEq Thread]

/-- The machine behind a step of one thread. -/
def become (state : Threads Thread Memory Local) (me : Thread)
    (memory : Memory) (thread : Local) : Threads Thread Memory Local :=
  ⟨memory, Function.update state.threads me thread⟩

def step (exec : Thread → Memory → Local → Command → Option (Memory × Local))
    (state : Threads Thread Memory Local) (action : Thread × Command) :
    Option (Threads Thread Memory Local) :=
  (exec action.1 state.memory (state.threads action.1) action.2).map
    fun outcome => state.become action.1 outcome.1 outcome.2

@[simp]
theorem become_memory (state : Threads Thread Memory Local) (me : Thread)
    (memory : Memory) (thread : Local) :
    (state.become me memory thread).memory = memory := rfl

@[simp]
theorem become_self (state : Threads Thread Memory Local) (me : Thread)
    (memory : Memory) (thread : Local) :
    (state.become me memory thread).threads me = thread :=
  Function.update_self ..

variable {me : Thread} {state : Threads Thread Memory Local} {memory : Memory}
  {thread : Local}

theorem become_of_ne (state : Threads Thread Memory Local) {other : Thread}
    (different : other ≠ me) (memory : Memory) (thread : Local) :
    (state.become me memory thread).threads other = state.threads other :=
  Function.update_of_ne different ..

variable {exec : Thread → Memory → Local → Command → Option (Memory × Local)}

theorem step_eq_some {next : Threads Thread Memory Local}
    {action : Thread × Command} (stepped : step exec state action = some next) :
    ∃ memory thread,
      exec action.1 state.memory (state.threads action.1) action.2 =
        some (memory, thread) ∧
      next = state.become action.1 memory thread := by
  obtain ⟨⟨memory, thread⟩, executed, rfl⟩ :=
    Option.map_eq_some_iff.mp stepped
  exact ⟨memory, thread, executed, rfl⟩

theorem step_of_exec {command : Command}
    (executed : exec me state.memory (state.threads me) command =
      some (memory, thread)) :
    step exec state (me, command) = some (state.become me memory thread) := by
  unfold step
  rw [executed]
  rfl

/-- What holds of each thread by itself. -/
theorem forall_become (holds : Thread → Local → Prop)
    (before : ∀ other, holds other (state.threads other))
    (mine : holds me thread) (other : Thread) :
    holds other ((state.become me memory thread).threads other) := by
  by_cases same : other = me
  · subst same
    rw [become_self]
    exact mine
  · rw [become_of_ne state same]
    exact before other

end Threads

end Libnei.Lib
