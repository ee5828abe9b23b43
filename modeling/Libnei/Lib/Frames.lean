import Mathlib.Data.List.Basic

/-!
# Streams of frames

A frame is a header of fixed size and a payload; the header says how long the
payload is, or it is not valid.  `readFrames` takes the complete frames off
the front of a stream.  Reading a stream in two parts gives the same frames.
-/

namespace Libnei.Lib

structure Framing (α : Type) where
  headerSize : Nat
  headerSize_pos : 0 < headerSize
  /-- The size of the payload behind a header; nothing if the header is not
  valid. -/
  payloadSize : List α → Option Nat

namespace Framing

variable {α : Type} (framing : Framing α)

/-- The payload of the first frame, and what is behind the frame. -/
def readFrame (input : List α) : Option (List α × List α) :=
  if input.length < framing.headerSize then none
  else
    match framing.payloadSize (input.take framing.headerSize) with
    | none => none
    | some size =>
        let rest := input.drop framing.headerSize
        if rest.length < size then none
        else some (rest.take size, rest.drop size)

/-- The stream starts with a header that is not valid. -/
def corrupt (input : List α) : Bool :=
  framing.headerSize ≤ input.length ∧
    framing.payloadSize (input.take framing.headerSize) = none

variable {header : List α} {size : Nat}

theorem readFrame_header (whole : header.length = framing.headerSize)
    (announced : framing.payloadSize header = some size) (rest : List α) :
    framing.readFrame (header ++ rest) =
      if rest.length < size then none
      else some (rest.take size, rest.drop size) := by
  rw [readFrame, if_neg (by simp [whole]), List.take_left' whole, announced,
    List.drop_left' whole]

theorem corrupt_header (whole : header.length = framing.headerSize)
    (announced : framing.payloadSize header = some size) (rest : List α) :
    framing.corrupt (header ++ rest) = false := by
  simp [corrupt, List.take_left' whole, announced]

variable {framing}

variable {input payload rest : List α}

theorem readFrame_of_corrupt (corrupt : framing.corrupt input = true) :
    framing.readFrame input = none := by
  simp only [Framing.corrupt, decide_eq_true_eq] at corrupt
  rw [readFrame, if_neg (Nat.not_lt.mpr corrupt.1), corrupt.2]

section

variable (read : framing.readFrame input = some (payload, rest))

include read

theorem readFrame_length :
    rest.length < input.length := by
  unfold readFrame at read
  split at read
  case isTrue => cases read
  case isFalse enough =>
    split at read
    case h_1 => cases read
    case h_2 size _ =>
      obtain ⟨-, same⟩ := Option.ite_none_left_eq_some.mp read
      obtain ⟨-, rfl⟩ := Prod.mk.inj (Option.some.inj same)
      have positive := framing.headerSize_pos
      simp only [List.length_drop]
      omega

/-- More input does not change the first frame. -/
theorem readFrame_append (more : List α) :
    framing.readFrame (input ++ more) = some (payload, rest ++ more) := by
  unfold readFrame at read
  split at read
  case isTrue => cases read
  case isFalse enough =>
    split at read
    case h_1 => cases read
    case h_2 size announced =>
      obtain ⟨complete, same⟩ := Option.ite_none_left_eq_some.mp read
      obtain ⟨rfl, rfl⟩ := Prod.mk.inj (Option.some.inj same)
      have front : framing.headerSize ≤ input.length := by omega
      have inside : size ≤ (input.drop framing.headerSize).length := by
        omega
      rw [readFrame, if_neg (by simp; omega),
        List.take_append_of_le_length front, announced]
      simp only
      have complete' : ¬(input.drop framing.headerSize ++ more).length <
          size := by
        rw [List.length_append]
        omega
      rw [List.drop_append_of_le_length front, if_neg complete',
        List.take_append_of_le_length inside,
        List.drop_append_of_le_length inside]

end

variable (framing)

/-- The complete frames at the front of the stream, and the rest. -/
def readFrames (input : List α) : List (List α) × List α :=
  match read : framing.readFrame input with
  | none => ([], input)
  | some (payload, rest) =>
      have := readFrame_length read
      (payload :: (readFrames rest).1, (readFrames rest).2)
termination_by input.length

variable {framing}

theorem readFrames_of_none (read : framing.readFrame input = none) :
    framing.readFrames input = ([], input) := by
  rw [readFrames]
  split
  · rfl
  · rename_i there
    exact nomatch read.symm.trans there

theorem readFrames_of_some
    (read : framing.readFrame input = some (payload, rest)) :
    framing.readFrames input = (payload :: (framing.readFrames rest).1,
        (framing.readFrames rest).2) := by
  rw [readFrames]
  split
  · rename_i there
    exact nomatch read.symm.trans there
  · rename_i there
    obtain ⟨rfl, rfl⟩ := Prod.mk.inj (Option.some.inj (there.symm.trans read))
    rfl

theorem readFrames_append (input more : List α) :
    framing.readFrames (input ++ more) = ((framing.readFrames input).1 ++
        (framing.readFrames ((framing.readFrames input).2 ++ more)).1,
        (framing.readFrames ((framing.readFrames input).2 ++ more)).2) := by
  induction size : input.length using Nat.strongRecOn generalizing input with
  | _ size ih =>
    cases read : framing.readFrame input with
    | none =>
      rw [readFrames_of_none read]
      rfl
    | some frame =>
      have smaller := ih _ (size ▸ readFrame_length read) _ rfl
      rw [readFrames_of_some read,
        readFrames_of_some (readFrame_append read more), smaller]
      rfl

theorem corrupt_append (corrupt : framing.corrupt input = true)
    (more : List α) :
    framing.corrupt (input ++ more) = true := by
  simp only [Framing.corrupt, decide_eq_true_eq] at corrupt ⊢
  rw [List.take_append_of_le_length corrupt.1, List.length_append]
  exact ⟨Nat.le_add_right_of_le corrupt.1, corrupt.2⟩

/-- The front of a stream of complete frames is not corrupt. -/
theorem not_corrupt_of_complete {more : List α}
    (complete : (framing.readFrames (input ++ more)).2 = []) :
    framing.corrupt (framing.readFrames input).2 = false := by
  rw [← Bool.not_eq_true]
  intro corrupt
  have stuck := readFrame_of_corrupt (corrupt_append corrupt more)
  rw [readFrames_append, readFrames_of_none stuck] at complete
  have empty := (List.append_eq_nil_iff.mp complete).1
  have positive := framing.headerSize_pos
  simp only [empty, Framing.corrupt, List.length_nil,
    decide_eq_true_eq] at corrupt
  omega

/-- Written frames are read back, up to what is behind them. -/
theorem readFrames_frames {header : List α → List α} {payloads : List (List α)}
    (whole : ∀ payload ∈ payloads, (header payload).length = framing.headerSize)
    (announced : ∀ payload ∈ payloads,
      framing.payloadSize (header payload) = some payload.length)
    (rest : List α) :
    framing.readFrames
        ((payloads.map fun payload => header payload ++ payload).flatten ++
          rest) =
      (payloads ++ (framing.readFrames rest).1,
        (framing.readFrames rest).2) := by
  induction payloads with
  | nil => rfl
  | cons payload payloads ih =>
    have read : ∀ behind, framing.readFrame
        ((header payload ++ payload) ++ behind) = some (payload, behind) := by
      intro behind
      rw [List.append_assoc, readFrame_header framing
        (whole payload List.mem_cons_self)
        (announced payload List.mem_cons_self) _, if_neg (by simp),
        List.take_left, List.drop_left]
    rw [List.map_cons, List.flatten_cons, List.append_assoc,
      readFrames_of_some (read _), ih
        (fun other member => whole other (List.mem_cons_of_mem _ member))
        (fun other member =>
          announced other (List.mem_cons_of_mem _ member))]
    rfl

end Framing

end Libnei.Lib
