import Mathlib.Data.List.Basic

/-!
# Streams taken in blocks

A fold over the blocks of fixed size of a message that arrives in pieces.
`Folds` says which state the whole blocks of a message lead to and which part
of the message is left for the next block.
-/

namespace Libnei.Lib.BlockStream

variable {σ α : Type} (size : Nat) (step : σ → List α → σ)

/-- The first blocks of a message. -/
def blocks : Nat → List α → List (List α)
  | 0, _ => []
  | count + 1, message =>
      message.take size :: blocks count (message.drop size)

inductive Folds : σ → List α → σ → List α → Prop
  | short {state : σ} {rest : List α} (less : rest.length < size) :
      Folds state rest state rest
  | block {state final : σ} {block message rest : List α}
      (whole : block.length = size)
      (folds : Folds (step state block) message final rest) :
      Folds state (block ++ message) final rest

/-- A loop that takes blocks as long as there are any. -/
def absorb : Nat → σ → List α → σ × List α
  | 0, state, message => (state, message)
  | fuel + 1, state, message =>
      if size ≤ message.length then
        absorb fuel (step state (message.take size)) (message.drop size)
      else (state, message)

variable {size step}

theorem folds_absorb (positive : 0 < size) (fuel : Nat) (state : σ)
    (message : List α) (enough : message.length ≤ fuel) :
    Folds size step state message (absorb size step fuel state message).1
      (absorb size step fuel state message).2 := by
  induction fuel generalizing state message with
  | zero => exact .short (by omega)
  | succ fuel ih =>
    rw [absorb]
    split
    · case isTrue whole =>
      have rest := ih (step state (message.take size))
        (message.drop size) (by rw [List.length_drop]; omega)
      have block := Folds.block
        (List.length_take_of_le whole) rest
      rwa [List.take_append_drop] at block
    · case isFalse less => exact .short (Nat.lt_of_not_le less)

namespace Folds

variable {state middle final : σ} {message rest more left : List α}

/-- What is left of the first piece is read in front of the second one. -/
theorem append (first : Folds size step state message middle rest)
    (second : Folds size step middle (rest ++ more) final left) :
    Folds size step state (message ++ more) final left := by
  induction first with
  | short less => exact second
  | block whole _ ih =>
    rw [List.append_assoc]
    exact .block whole (ih second)

variable (folds : Folds size step state message final rest)

include folds

theorem rest_short : rest.length < size := by
  induction folds with
  | short less => exact less
  | block _ _ ih => exact ih

theorem rest_length : rest.length = message.length % size := by
  induction folds with
  | short less => exact (Nat.mod_eq_of_lt less).symm
  | block whole _ ih =>
    rw [List.length_append, whole, Nat.add_mod_left, ih]

theorem foldl_blocks :
    (blocks size (message.length / size) message).foldl step state = final := by
  have positive : 0 < size := Nat.zero_lt_of_lt folds.rest_short
  induction folds with
  | short less => rw [Nat.div_eq_of_lt less, blocks, List.foldl_nil]
  | block whole _ ih =>
    rw [List.length_append, whole, Nat.add_div_left _ positive, blocks,
      List.take_left' whole, List.drop_left' whole]
    exact ih

end Folds

end Libnei.Lib.BlockStream
