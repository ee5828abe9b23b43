import Libnei.Lib.Actions
import Mathlib.Data.Fintype.Basic
import Mathlib.Logic.Function.Basic

/-!
# Appending to a file

Writes of `AsyncFilePosix` to a file in append mode that nobody else writes.
A write is cut into chunks: each is dispatched on the I/O runner, carried out
on the background runner and completed on the I/O runner.  The tasks of the
two runners may come in any order, which includes the order of the queues.
-/

namespace Libnei.Io

open Lib

namespace AppendFile

def maxChunkBytes : Nat := 64 * 1024

/-- Where the next task of a write is: on the I/O runner behind `WriteAsync`,
on the background runner with a chunk of a size, back on the I/O runner with
the result of the chunk (`none` for an error code), or on the I/O runner to
dispatch the next chunk.  A context is stranded if its task was refused: the
task has taken it along, and the error path gets a null pointer.  In the end
the callback has reported. -/
inductive Phase
  | fresh
  | posted
  | queued (lastChunkSize : Nat)
  | completing (transferred : Option Nat)
  | dispatching
  | stranded
  | succeeded
  | failed
  deriving DecidableEq

/-- `IOContext`; `baseOffset` is known once `append_offset_initialized`. -/
structure IOContext where
  totalBytes : Nat := 0
  transferredBytes : Nat := 0
  baseOffset : Option Nat := none
  phase : Phase := .fresh
  deriving DecidableEq

/-- `owner` says which byte of which write stands at a position of the file,
`none` for what was there before. -/
structure State (Write : Type) where
  size : Nat
  owner : Nat → Option (Write × Nat) := fun _ => none
  writes : Write → IOContext := fun _ => {}
  closeRequested : Bool := false
  connected : Bool := true

/-- What `fstat` and `pwrite` come to. -/
inductive ChunkResult
  | statError
  | writeError
  | wrote (count : Nat)
  deriving DecidableEq

inductive Action (Write : Type)
  | writeAsync (write : Write) (totalBytes : Nat)
  | start (write : Write) (refused : Bool)
  | runChunk (write : Write) (result : ChunkResult)
  | complete (write : Write)
  | dispatch (write : Write) (refused : Bool)
  | requestClose
  | close
  deriving DecidableEq

variable {Write : Type}

/-- `DispatchChunkToBackground`; `refused` if the task is not posted. -/
def dispatchChunk (context : IOContext) (closeRequested refused : Bool) :
    IOContext :=
  let remaining := context.totalBytes - context.transferredBytes
  if closeRequested then { context with phase := .failed }
  else if refused then { context with phase := .stranded }
  else { context with phase := .queued (min remaining maxChunkBytes) }

/-- `StartWriteOnIoThread`. -/
def startWrite (context : IOContext) (connected closeRequested refused : Bool) :
    IOContext :=
  if context.totalBytes = 0 then { context with phase := .succeeded }
  else if ¬connected then { context with phase := .failed }
  else dispatchChunk context closeRequested refused

/-- `OnChunkCompletedOnIoThread`. -/
def completeChunk (context : IOContext) (transferred : Option Nat)
    (connected : Bool) : IOContext :=
  match transferred with
  | none => { context with phase := .failed }
  | some count =>
      if ¬connected then { context with phase := .failed }
      else
        { context with
          transferredBytes := context.transferredBytes + count
          phase := if context.transferredBytes + count ≥ context.totalBytes
            then .succeeded else .dispatching }

/-- The context is in `active_ios_`. -/
def Phase.isActive : Phase → Bool
  | queued _ | completing _ | dispatching | stranded => true
  | _ => false

variable [DecidableEq Write]

def State.setWrite (state : State Write) (write : Write)
    (context : IOContext) : State Write :=
  { state with writes := Function.update state.writes write context }

@[simp]
theorem State.setWrite_self (state : State Write) (write : Write)
    (context : IOContext) :
    (state.setWrite write context).writes write = context :=
  Function.update_self ..

variable {other : Write} {index : Nat}

theorem State.setWrite_of_ne (state : State Write) {write : Write}
    (different : other ≠ write) (context : IOContext) :
    (state.setWrite write context).writes other = state.writes other :=
  Function.update_of_ne different ..

/-- `pwrite` of some bytes of a write at an offset. -/
def State.pwrite (state : State Write) (write : Write)
    (offset first count : Nat) : State Write :=
  { state with
    size := max state.size (offset + count)
    owner := fun position =>
      if offset ≤ position ∧ position < offset + count then
        some (write, first + (position - offset))
      else state.owner position }

def State.runChunk (state : State Write) (write : Write)
    (lastChunkSize : Nat) (result : ChunkResult) : Option (State Write) :=
  let context := state.writes write
  let base := context.baseOffset.getD state.size
  if state.closeRequested then
    some (state.setWrite write { context with phase := .completing none })
  else
    match result with
    | .statError =>
        if context.baseOffset.isSome then none
        else some (state.setWrite write
          { context with phase := .completing none })
    | .writeError =>
        some (state.setWrite write
          { context with baseOffset := some base, phase := .completing none })
    | .wrote count =>
        if 0 < count ∧ count ≤ lastChunkSize then
          some ((state.pwrite write (base + context.transferredBytes)
            context.transferredBytes count).setWrite write
              { context with
                baseOffset := some base
                phase := .completing (some count) })
        else none

def step (state : State Write) : Action Write → Option (State Write)
  | .writeAsync write totalBytes =>
      if (state.writes write).phase = .fresh ∧ ¬state.closeRequested then
        some (state.setWrite write { totalBytes, phase := .posted })
      else none
  | .start write refused =>
      if (state.writes write).phase = .posted then
        some (state.setWrite write (startWrite (state.writes write)
          state.connected state.closeRequested refused))
      else none
  | .runChunk write result =>
      match (state.writes write).phase with
      | .queued lastChunkSize => state.runChunk write lastChunkSize result
      | _ => none
  | .complete write =>
      match (state.writes write).phase with
      | .completing transferred =>
          some (state.setWrite write (completeChunk (state.writes write)
            transferred state.connected))
      | _ => none
  | .dispatch write refused =>
      if (state.writes write).phase = .dispatching then
        some (state.setWrite write (dispatchChunk (state.writes write)
          state.closeRequested refused))
      else none
  | .requestClose => some { state with closeRequested := true }
  | .close =>
      if state.closeRequested then
        some { state with
          connected := false
          writes := fun write =>
            if (state.writes write).phase.isActive then
              { state.writes write with phase := .failed }
            else state.writes write }
      else none

/-! ## What is kept -/

namespace IOContext

def written (context : IOContext) : Nat :=
  match context.phase with
  | .completing (some count) => context.transferredBytes + count
  | _ => context.transferredBytes

/-- There is another chunk to come. -/
def unfinished (context : IOContext) : Bool :=
  match context.phase with
  | .queued _ | .dispatching | .completing (some _) =>
      context.written < context.totalBytes
  | _ => false

end IOContext

/-- The chunk reads the size of the file, and another write that has read it
before has bytes to come. -/
def overlapping (state : State Write) : Action Write → Prop
  | .runChunk write _ =>
      (state.writes write).baseOffset = none ∧
        ∃ other, (state.writes other).baseOffset.isSome = true ∧
          (state.writes other).unfinished = true
  | _ => False

instance [Fintype Write] (state : State Write) (action : Action Write) :
    Decidable (overlapping state action) := by
  cases action <;> unfold overlapping <;> infer_instance

/-- The variables of a context by itself. -/
structure IOContext.Ok (context : IOContext) : Prop where
  bounded : context.written ≤ context.totalBytes
  posted : context.phase = .posted →
    context.transferredBytes = 0 ∧ context.baseOffset = none
  dispatching : context.phase = .dispatching →
    context.transferredBytes < context.totalBytes
  queued : ∀ size, context.phase = .queued size →
    size ≤ context.totalBytes - context.transferredBytes ∧
      context.transferredBytes < context.totalBytes
  done : context.phase = .succeeded → context.written = context.totalBytes
  unplaced : context.baseOffset = none → context.written = 0

/-- The bytes of a write are in the file, one behind the other; while there is
another chunk to come, they are the last ones. -/
structure State.Placed (state : State Write) (write : Write) (base : Nat) :
    Prop where
  inside : base + (state.writes write).written ≤ state.size
  bytes : ∀ index < (state.writes write).written,
    state.owner (base + index) = some (write, index)
  last : (state.writes write).unfinished = true →
    base + (state.writes write).written = state.size

structure State.Inv (state : State Write) : Prop where
  ok : ∀ write, (state.writes write).Ok
  placed : ∀ write base, (state.writes write).baseOffset = some base →
    state.Placed write base
  single : ∀ first second, (state.writes first).baseOffset.isSome = true →
    (state.writes first).unfinished = true →
    (state.writes second).baseOffset.isSome = true →
    (state.writes second).unfinished = true → first = second

/-! ## Steps that write nothing -/

/-- The context has gone on without writing: no byte of it is new, and if the
size has been read, there is nothing to come. -/
structure IOContext.Follows (size : Nat) (old new : IOContext) : Prop where
  ok : new.Ok
  base : ∀ base, new.baseOffset = some base →
    old.baseOffset = some base ∧ new.written ≤ old.written ∧
        (new.unfinished = true →
          old.unfinished = true ∧ new.written = old.written) ∨
      base = size ∧ new.written = 0 ∧ new.unfinished = false

omit [DecidableEq Write] in
theorem State.Inv.follow {state next : State Write} (inv : state.Inv)
    (size : next.size = state.size) (owner : next.owner = state.owner)
    (follows : ∀ write,
      (state.writes write).Follows state.size (next.writes write)) :
    next.Inv where
  ok write := (follows write).ok
  placed write base known := by
    rcases (follows write).base base known with
      ⟨before, fewer, kept⟩ | ⟨rfl, nothing, finished⟩
    · have placed := inv.placed write base before
      refine ⟨?_, fun index below => ?_, fun more => ?_⟩
      · rw [size]
        exact Nat.le_trans (Nat.add_le_add_left fewer base) placed.inside
      · rw [owner]
        exact placed.bytes index (Nat.lt_of_lt_of_le below fewer)
      · rw [size, (kept more).2]
        exact placed.last (kept more).1
    · refine ⟨?_, fun index below => ?_, fun more => ?_⟩
      · rw [nothing, size]
        exact Nat.le_refl _
      · rw [nothing] at below
        cases below
      · rw [finished] at more
        cases more
  single first second firstBase firstMore secondBase secondMore := by
    have before : ∀ write, (next.writes write).baseOffset.isSome = true →
        (next.writes write).unfinished = true →
          (state.writes write).baseOffset.isSome = true ∧
            (state.writes write).unfinished = true := by
      intro write known more
      obtain ⟨base, known⟩ := Option.isSome_iff_exists.mp known
      rcases (follows write).base base known with
        ⟨before, -, kept⟩ | ⟨-, -, finished⟩
      · exact ⟨by rw [before]; rfl, (kept more).1⟩
      · rw [finished] at more
        cases more
    obtain ⟨firstBase, firstMore⟩ := before first firstBase firstMore
    obtain ⟨secondBase, secondMore⟩ := before second secondBase secondMore
    exact inv.single first second firstBase firstMore secondBase secondMore

theorem IOContext.Follows.refl {context : IOContext} (ok : context.Ok)
    (size : Nat) : context.Follows size context :=
  ⟨ok, fun _ known => .inl ⟨known, Nat.le_refl _, fun more => ⟨more, rfl⟩⟩⟩

theorem State.Inv.setWrite {state : State Write} (inv : state.Inv)
    {write : Write} {context : IOContext}
    (follows : (state.writes write).Follows state.size context) :
    (state.setWrite write context).Inv := by
  refine inv.follow rfl rfl fun other => ?_
  by_cases same : other = write
  · subst same
    rw [State.setWrite_self]
    exact follows
  · rw [State.setWrite_of_ne state same]
    exact .refl (inv.ok other) state.size

section Contexts

variable {context : IOContext} {size : Nat}

theorem IOContext.transferred_le_written (context : IOContext) :
    context.transferredBytes ≤ context.written := by
  unfold written
  split
  · exact Nat.le_add_right ..
  · exact Nat.le_refl _

variable (ok : context.Ok)

include ok

/-- The write fails, or nothing of it is to come any more. -/
theorem IOContext.Ok.stop {phase : Phase}
    (stopped : phase = .failed ∨ phase = .completing none ∨ phase = .stranded) :
    context.Follows size { context with phase } := by
  have fewer := context.transferred_le_written
  have bounded := Nat.le_trans fewer ok.bounded
  have unplaced : context.baseOffset = none → context.transferredBytes = 0 := by
    intro missing
    exact Nat.le_zero.mp (ok.unplaced missing ▸ fewer)
  rcases stopped with rfl | rfl | rfl
  all_goals
    exact ⟨⟨bounded, nofun, nofun, nofun, nofun, unplaced⟩,
      fun _ known => .inl ⟨known, fewer, nofun⟩⟩

theorem IOContext.Ok.dispatchChunk
    (waiting : context.phase = .posted ∨ context.phase = .dispatching)
    (more : context.transferredBytes < context.totalBytes)
    (closeRequested refused : Bool) :
    context.Follows size
      (AppendFile.dispatchChunk context closeRequested refused) := by
  have same : context.written = context.transferredBytes := by
    unfold written
    rcases waiting with posted | dispatching
    · rw [posted]
    · rw [dispatching]
  rw [AppendFile.dispatchChunk]
  split
  · exact ok.stop (.inl rfl)
  split
  · exact ok.stop (.inr (.inr rfl))
  refine ⟨⟨Nat.le_of_lt more, nofun, nofun, fun _ queued => ?_, nofun,
    fun missing => ?_⟩, fun base known => ?_⟩
  · cases queued
    exact ⟨Nat.min_le_left .., more⟩
  · exact same.symm.trans (ok.unplaced missing)
  · rcases waiting with posted | dispatching
    · rw [(ok.posted posted).2] at known
      cases known
    · refine .inl ⟨known, Nat.le_of_eq same.symm, fun _ => ⟨?_, same.symm⟩⟩
      rw [unfinished, dispatching, same]
      exact decide_eq_true more

theorem IOContext.Ok.startWrite (posted : context.phase = .posted)
    (connected closeRequested refused : Bool) :
    context.Follows size (AppendFile.startWrite context connected
      closeRequested refused) := by
  obtain ⟨nothing, missing⟩ := ok.posted posted
  rw [AppendFile.startWrite]
  split
  · case isTrue empty =>
    refine ⟨⟨?_, nofun, nofun, nofun, fun _ => ?_, fun _ => nothing⟩,
      fun base known => ?_⟩
    · exact Nat.le_of_eq (nothing.trans empty.symm)
    · exact nothing.trans empty.symm
    · rw [missing] at known
      cases known
  · case isFalse full =>
    split
    · exact ok.stop (.inl rfl)
    · refine ok.dispatchChunk (.inl posted) ?_ closeRequested refused
      rw [nothing]
      exact Nat.pos_of_ne_zero full

theorem IOContext.Ok.completeChunk {transferred : Option Nat}
    (completing : context.phase = .completing transferred) (connected : Bool) :
    context.Follows size
      (AppendFile.completeChunk context transferred connected) := by
  cases transferred with
  | none => exact ok.stop (.inl rfl)
  | some count =>
    have written : context.written = context.transferredBytes + count := by
      rw [IOContext.written, completing]
    have bounded := ok.bounded
    have unplaced := ok.unplaced
    rw [written] at bounded unplaced
    rw [AppendFile.completeChunk]
    split
    · exact ok.stop (.inl rfl)
    by_cases all : context.transferredBytes + count ≥ context.totalBytes
    · rw [if_pos all]
      exact ⟨⟨bounded, nofun, nofun, nofun,
        fun _ => Nat.le_antisymm bounded all, unplaced⟩,
        fun _ known => .inl ⟨known, Nat.le_of_eq written.symm, nofun⟩⟩
    · rw [if_neg all]
      refine ⟨⟨bounded, nofun, fun _ => Nat.lt_of_not_le all, nofun,
        nofun, unplaced⟩, fun _ known =>
          .inl ⟨known, Nat.le_of_eq written.symm, fun _ =>
            ⟨?_, written.symm⟩⟩⟩
      rw [unfinished, completing, written]
      exact decide_eq_true (Nat.lt_of_not_le all)

theorem IOContext.Ok.writeError : context.Follows size
      { context with
        baseOffset := some (context.baseOffset.getD size)
        phase := .completing none } := by
  have fewer := context.transferred_le_written
  refine ⟨⟨Nat.le_trans fewer ok.bounded, nofun, nofun, nofun, nofun, nofun⟩,
    fun base sampled => ?_⟩
  have sampled := Option.some.inj sampled
  cases known : context.baseOffset with
  | none =>
    rw [known] at sampled
    refine .inr ⟨sampled.symm, ?_, rfl⟩
    exact Nat.le_zero.mp (ok.unplaced known ▸ fewer)
  | some old =>
    rw [known] at sampled
    exact .inl ⟨congrArg some sampled, fewer, nofun⟩

end Contexts

/-! ## A chunk -/

section Chunk

variable {state next : State Write} {write : Write}
  {lastChunkSize count : Nat}

omit [DecidableEq Write] in
/-- A chunk that writes does so at the end of the file, and there is nothing
to come from other writes. -/
theorem State.Inv.at_end (inv : state.Inv)
    (queued : (state.writes write).phase = .queued lastChunkSize)
    (alone : ¬overlapping state (.runChunk write (.wrote count))) :
    (state.writes write).baseOffset.getD state.size +
        (state.writes write).transferredBytes = state.size ∧
      ∀ other, (state.writes other).baseOffset.isSome = true →
        (state.writes other).unfinished = true → other = write := by
  have written : (state.writes write).written =
      (state.writes write).transferredBytes := by
    rw [IOContext.written, queued]
  cases known : (state.writes write).baseOffset with
  | none =>
    refine ⟨?_, fun other based more => ?_⟩
    · rw [← written, (inv.ok write).unplaced known]
      rfl
    · exact absurd ⟨known, other, based, more⟩ alone
  | some base =>
    have more : (state.writes write).unfinished = true := by
      rw [IOContext.unfinished, queued, written]
      exact decide_eq_true ((inv.ok write).queued _ queued).2
    refine ⟨?_, fun other based otherMore => ?_⟩
    · rw [← written]
      exact (inv.placed write base known).last more
    · exact inv.single other write based otherMore (by rw [known]; rfl) more

omit [DecidableEq Write] in
/-- The bytes that are written belong to the write, wherever it starts. -/
theorem State.Inv.owner_eq (inv : state.Inv)
    (below : index < (state.writes write).written) (other : Nat) :
    state.owner ((state.writes write).baseOffset.getD other + index) =
      some (write, index) := by
  cases known : (state.writes write).baseOffset with
  | none =>
    rw [(inv.ok write).unplaced known] at below
    cases below
  | some base => exact (inv.placed write base known).bytes index below

omit [DecidableEq Write] in
theorem State.Inv.earlier (inv : state.Inv)
    (queued : (state.writes write).phase = .queued lastChunkSize)
    (below : index < (state.writes write).transferredBytes) :
    state.owner ((state.writes write).baseOffset.getD state.size + index) =
      some (write, index) := by
  have written : (state.writes write).written =
      (state.writes write).transferredBytes := by
    rw [IOContext.written, queued]
  exact inv.owner_eq (written ▸ below) state.size

/-- The next bytes of a write have come to the end of the file. -/
structure State.Grows (state next : State Write) (write : Write)
    (base count : Nat) : Prop where
  size : next.size = state.size + count
  before : ∀ position < state.size, next.owner position = state.owner position
  behind : ∀ index < count, next.owner (state.size + index) =
    some (write, (state.writes write).transferredBytes + index)
  self : next.writes write =
    { state.writes write with
      baseOffset := some base, phase := .completing (some count) }
  rest : ∀ other, other ≠ write → next.writes other = state.writes other

theorem State.grows_pwrite (state : State Write) (write : Write)
    (base count : Nat) :
    state.Grows ((state.pwrite write state.size
        (state.writes write).transferredBytes count).setWrite write
      { state.writes write with
        baseOffset := some base, phase := .completing (some count) })
      write base count where
  size := Nat.max_eq_right (Nat.le_add_right ..)
  before position below :=
    if_neg fun within => Nat.not_le_of_lt below within.1
  behind index below := by
    refine (if_pos ⟨Nat.le_add_right .., Nat.add_lt_add_left below _⟩).trans
      ?_
    rw [Nat.add_sub_cancel_left]
  self := State.setWrite_self ..
  rest _ different := State.setWrite_of_ne _ different _

section Grows

variable {base : Nat} (grows : state.Grows next write base count)
  (inv : state.Inv)

include grows

omit [DecidableEq Write] in
theorem State.Grows.written : (next.writes write).written =
    (state.writes write).transferredBytes + count := by
  rw [grows.self]
  rfl

omit [DecidableEq Write] in
theorem State.Placed.grow {start : Nat} (different : other ≠ write)
    (placed : state.Placed other start)
    (finished : (state.writes other).unfinished = false) :
    next.Placed other start := by
  have same := grows.rest other different
  refine ⟨?_, fun index below => ?_, fun more => ?_⟩
  · rw [same, grows.size]
    exact Nat.le_trans placed.inside (Nat.le_add_right ..)
  · rw [same] at below
    rw [grows.before _ (Nat.lt_of_lt_of_le
      (Nat.add_lt_add_left below start) placed.inside)]
    exact placed.bytes index below
  · rw [same, finished] at more
    cases more

include inv

omit [DecidableEq Write] in
theorem State.Inv.placed_new
    (queued : (state.writes write).phase = .queued lastChunkSize)
    (sampled : base = (state.writes write).baseOffset.getD state.size)
    (atEnd : base + (state.writes write).transferredBytes = state.size) :
    next.Placed write base := by
  have inside : base + (next.writes write).written = next.size := by
    rw [grows.written, grows.size, ← Nat.add_assoc, atEnd]
  refine ⟨Nat.le_of_eq inside, fun index below => ?_, fun _ => inside⟩
  rw [grows.written] at below
  by_cases old : index < (state.writes write).transferredBytes
  · rw [grows.before _ (by omega), sampled]
    exact inv.earlier queued old
  · obtain ⟨offset, rfl⟩ := Nat.exists_eq_add_of_le (Nat.le_of_not_lt old)
    rw [← Nat.add_assoc, atEnd]
    exact grows.behind offset (by omega)

omit [DecidableEq Write] in
theorem State.Inv.grow
    (queued : (state.writes write).phase = .queued lastChunkSize)
    (sampled : base = (state.writes write).baseOffset.getD state.size)
    (atEnd : base + (state.writes write).transferredBytes = state.size)
    (others : ∀ other, (state.writes other).baseOffset.isSome = true →
      (state.writes other).unfinished = true → other = write)
    (fits : count ≤ lastChunkSize) :
    next.Inv where
  ok other := by
    by_cases same : other = write
    · obtain ⟨bound, started⟩ := (inv.ok write).queued _ queued
      have within : (state.writes write).transferredBytes + count ≤
          (state.writes write).totalBytes := by
        omega
      rw [same, grows.self]
      exact ⟨within, nofun, nofun, nofun, nofun, nofun⟩
    · rw [grows.rest other same]
      exact inv.ok other
  placed other start known := by
    by_cases same : other = write
    · subst same
      rw [grows.self] at known
      cases known
      exact inv.placed_new grows queued sampled atEnd
    · rw [grows.rest other same] at known
      refine State.Placed.grow grows same (inv.placed other start known) ?_
      refine Bool.eq_false_iff.mpr fun more => same (others other ?_ more)
      exact Option.isSome_iff_exists.mpr ⟨start, known⟩
  single first second firstBase firstMore secondBase secondMore := by
    have only : ∀ other, (next.writes other).baseOffset.isSome = true →
        (next.writes other).unfinished = true → other = write := by
      intro other based more
      by_contra different
      rw [grows.rest other different] at based more
      exact different (others other based more)
    exact (only first firstBase firstMore).trans
      (only second secondBase secondMore).symm

end Grows

theorem State.Inv.runChunk (inv : state.Inv) {result : ChunkResult}
    (queued : (state.writes write).phase = .queued lastChunkSize)
    (alone : ¬overlapping state (.runChunk write result))
    (ran : state.runChunk write lastChunkSize result = some next) :
    next.Inv := by
  have ok := inv.ok write
  unfold State.runChunk at ran
  dsimp only at ran
  split at ran
  · cases ran
    exact inv.setWrite (ok.stop (.inr (.inl rfl)))
  cases result with
  | statError =>
    dsimp only at ran
    split at ran
    · cases ran
    · cases ran
      exact inv.setWrite (ok.stop (.inr (.inl rfl)))
  | writeError =>
    cases ran
    exact inv.setWrite ok.writeError
  | wrote count =>
    dsimp only at ran
    split at ran
    · case isTrue fits =>
      cases ran
      obtain ⟨atEnd, others⟩ := inv.at_end queued alone
      rw [atEnd]
      exact inv.grow (state.grows_pwrite write _ count) queued rfl atEnd
        others fits.2
    · cases ran

end Chunk

/-! ## Runs -/

omit [DecidableEq Write] in
theorem State.Inv.close {state : State Write} (inv : state.Inv) :
    State.Inv { state with
      connected := false
      writes := fun write =>
        if (state.writes write).phase.isActive then
          { state.writes write with phase := .failed }
        else state.writes write } := by
  refine inv.follow rfl rfl fun write => ?_
  dsimp only
  split
  · exact (inv.ok write).stop (.inl rfl)
  · exact .refl (inv.ok write) state.size

theorem IOContext.follows_new (old : IOContext) (size totalBytes : Nat) :
    old.Follows size { totalBytes, phase := .posted } :=
  ⟨⟨Nat.zero_le _, fun _ => ⟨rfl, rfl⟩, nofun, nofun, nofun, fun _ => rfl⟩,
    nofun⟩

theorem State.Inv.step {state next : State Write} {action : Action Write}
    (inv : state.Inv) (alone : ¬overlapping state action)
    (ran : AppendFile.step state action = some next) : next.Inv := by
  cases action with
  | writeAsync write totalBytes =>
    obtain ⟨-, ⟨⟩⟩ := Option.ite_none_right_eq_some.mp ran
    exact inv.setWrite (IOContext.follows_new ..)
  | start write refused =>
    obtain ⟨posted, ⟨⟩⟩ := Option.ite_none_right_eq_some.mp ran
    exact inv.setWrite ((inv.ok write).startWrite posted ..)
  | runChunk write result =>
    rw [AppendFile.step] at ran
    split at ran
    · case h_1 lastChunkSize queued =>
      exact inv.runChunk queued alone ran
    · cases ran
  | complete write =>
    rw [AppendFile.step] at ran
    split at ran
    · case h_1 transferred completing =>
      cases ran
      exact inv.setWrite ((inv.ok write).completeChunk completing _)
    · cases ran
  | dispatch write refused =>
    obtain ⟨dispatching, ⟨⟩⟩ := Option.ite_none_right_eq_some.mp ran
    exact inv.setWrite ((inv.ok write).dispatchChunk (.inr dispatching)
      ((inv.ok write).dispatching dispatching) ..)
  | requestClose =>
    cases ran
    exact inv.follow rfl rfl fun write => .refl (inv.ok write) state.size
  | close =>
    obtain ⟨-, ⟨⟩⟩ := Option.ite_none_right_eq_some.mp ran
    exact inv.close

omit [DecidableEq Write] in
theorem inv_initial (size : Nat) : @State.Inv Write { size } where
  ok _ := ⟨Nat.le_refl 0, nofun, nofun, nofun, nofun, fun _ => rfl⟩
  placed _ _ := nofun
  single _ _ := nofun

omit [DecidableEq Write] in
theorem State.Inv.whole {state : State Write} (inv : state.Inv) {write : Write}
    (succeeded : (state.writes write).phase = .succeeded)
    (below : index < (state.writes write).totalBytes) :
    state.owner ((state.writes write).baseOffset.getD 0 + index) =
      some (write, index) := by
  rw [← (inv.ok write).done succeeded] at below
  exact inv.owner_eq below 0

/-- If no write reads the size of the file while an earlier one is under way,
each write that has succeeded stands in one piece in the file, and no two
share a byte of it. -/
theorem appends_stay_apart {size : Nat} {actions : List (Action Write)}
    {state : State Write}
    (ran : perform step { size } actions = some state)
    (apart : Avoids step overlapping { size } actions) :
    ∃ start : Write → Nat,
      (∀ write, (state.writes write).phase = .succeeded →
        ∀ index < (state.writes write).totalBytes,
          state.owner (start write + index) = some (write, index)) ∧
      ∀ first second, first ≠ second →
        (state.writes first).phase = .succeeded →
        (state.writes second).phase = .succeeded →
        ∀ left < (state.writes first).totalBytes,
          ∀ right < (state.writes second).totalBytes,
            start first + left ≠ start second + right := by
  have inv : state.Inv := perform_avoiding State.Inv.step ran apart
    (inv_initial size)
  refine ⟨fun write => (state.writes write).baseOffset.getD 0,
    fun write succeeded index below => inv.whole succeeded below, ?_⟩
  intro first second different firstDone secondDone left leftBelow right
    rightBelow same
  have firstByte := inv.whole firstDone leftBelow
  have secondByte := inv.whole secondDone rightBelow
  rw [same, secondByte] at firstByte
  exact different (congrArg Prod.fst (Option.some.inj firstByte)).symm

/-- Two writes under way at the same time; the first chunk of the second one
is carried out when the first one, written in two parts, is complete. -/
def queuedWrites : List (Action Bool) :=
  [.writeAsync false 3, .writeAsync true 2, .start false false,
    .runChunk false (.wrote 2), .complete false, .dispatch false false,
    .start true false, .runChunk false (.wrote 1), .runChunk true (.wrote 2),
    .complete false, .complete true]

theorem appends_stay_apart_queued :
    ∃ state : State Bool,
      (state.writes false).phase = .succeeded ∧
      (state.writes true).phase = .succeeded ∧
      ∃ start : Bool → Nat,
        ∀ index < 3, state.owner (start false + index) =
          some (false, index) := by
  have ran : perform step { size := 7 } queuedWrites =
    some ((perform step { size := 7 } queuedWrites).getD { size := 7 }) := rfl
  obtain ⟨start, whole, -⟩ := appends_stay_apart ran (by decide +kernel)
  refine ⟨_, ?_, ?_, start, whole false ?_⟩
  · decide +kernel
  · decide +kernel
  · decide +kernel

/-- The first chunk of a longer write and a short write are carried out one
behind the other.  Both succeed, and the second chunk of the longer write
takes the place of the short one. -/
theorem append_overwritten :
    ∃ (actions : List (Action Bool)) (state : State Bool),
      perform step { size := 0 } actions = some state ∧
      (state.writes false).phase = .succeeded ∧
      (state.writes true).phase = .succeeded ∧
      0 < (state.writes true).totalBytes ∧
      ∀ position, state.owner position ≠ some (true, 0) := by
  refine ⟨[.writeAsync false 65537, .writeAsync true 1, .start false false,
    .start true false, .runChunk false (.wrote 65536),
    .runChunk true (.wrote 1), .complete false, .complete true,
    .dispatch false false, .runChunk false (.wrote 1), .complete false],
    _, rfl, ?_, ?_, ?_, fun position => ?_⟩
  · decide +kernel
  · decide +kernel
  · decide +kernel
  · show (if 65536 ≤ position ∧ position < 65537 then
        some (false, 65536 + (position - 65536))
      else if 65536 ≤ position ∧ position < 65537 then
        some (true, 0 + (position - 65536))
      else if 0 ≤ position ∧ position < 65536 then
        some (false, 0 + (position - 0))
      else none) ≠ some (true, 0)
    split
    · simp
    · split
      · simp
      · simp

end AppendFile

end Libnei.Io
