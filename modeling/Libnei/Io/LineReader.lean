import Libnei.Bytes

/-!
# Lines of a stream

`AsyncLineReader` (`async_line_reader.cpp`).  What is read is appended to a
buffer; the lines are cut off behind a prefix of it that has been delivered
already.  The calls of the line callback are recorded in `lines`.
-/

namespace Libnei.Io

def newline : UInt8 := 0x0A

def carriageReturn : UInt8 := 0x0D

def kTextBufferCompactionThreshold : Nat := 2048

/-- `text_buffer.find('\n', pos)`. -/
def findNewline (textBuffer : Bytes) (pos : Nat) : Option Nat :=
  ((textBuffer.drop pos).findIdx? (· == newline)).map (pos + ·)

variable {textBuffer : Bytes} {pos : Nat}

theorem findNewline_some {nl : Nat}
    (found : findNewline textBuffer pos = some nl) :
    ∃ piece behind, textBuffer.drop pos = piece ++ newline :: behind ∧
      newline ∉ piece ∧ nl = pos + piece.length := by
  obtain ⟨index, indexed, rfl⟩ := Option.map_eq_some_iff.mp found
  obtain ⟨inside, here, before⟩ :=
    List.findIdx?_eq_some_iff_getElem.mp indexed
  refine ⟨(textBuffer.drop pos).take index,
    (textBuffer.drop pos).drop (index + 1), ?_, ?_, ?_⟩
  · rw [← eq_of_beq here, List.getElem_cons_drop, List.take_append_drop]
  · intro member
    obtain ⟨place, near, same⟩ := List.getElem_of_mem member
    rw [List.length_take] at near
    rw [List.getElem_take] at same
    exact before place (by omega) (beq_of_eq same)
  · rw [List.length_take, Nat.min_eq_left inside.le]

theorem findNewline_none (none : findNewline textBuffer pos = none) :
    newline ∉ textBuffer.drop pos := by
  rw [findNewline, Option.map_eq_none_iff, List.findIdx?_eq_none_iff] at none
  exact fun member => nomatch none newline member

theorem findNewline_inside {nl : Nat}
    (found : findNewline textBuffer pos = some nl) :
    pos ≤ nl ∧ nl < textBuffer.length := by
  obtain ⟨piece, behind, cut, -, rfl⟩ := findNewline_some found
  have length := congrArg List.length cut
  rw [List.length_drop, List.length_append, List.length_cons] at length
  omega

/-- The loop of `OnChunkReceived`: the lines, and the offset behind them. -/
def completedLines (textBuffer : Bytes) (consumeOffset : Nat) :
    List Bytes × Nat :=
  match found : findNewline textBuffer consumeOffset with
  | none => ([], consumeOffset)
  | some nl =>
      have := findNewline_inside found
      let lineEnd :=
        if consumeOffset < nl ∧
            textBuffer[nl - 1]? = some carriageReturn then nl - 1
        else nl
      let line :=
        (textBuffer.drop consumeOffset).take (lineEnd - consumeOffset)
      let (lines, offset) := completedLines textBuffer (nl + 1)
      (line :: lines, offset)
termination_by textBuffer.length - consumeOffset

structure LineReader where
  textBuffer : Bytes := []
  consumeOffset : Nat := 0
  started : Bool := false
  lines : List Bytes := []

namespace LineReader

def startReadingLines (reader : LineReader) : LineReader :=
  if reader.started then reader else { reader with started := true }

/-- The end of the stream, or an error. -/
def finish (reader : LineReader) : LineReader :=
  if reader.consumeOffset < reader.textBuffer.length then
    { reader with
      lines := reader.lines ++ [reader.textBuffer.drop reader.consumeOffset]
      textBuffer := []
      consumeOffset := 0
      started := false }
  else { reader with started := false }

/-- The two steps behind the loop that keep the buffer small. -/
def compact (reader : LineReader) : LineReader :=
  let reader :=
    if kTextBufferCompactionThreshold ≤ reader.consumeOffset then
      { reader with
        textBuffer := reader.textBuffer.drop reader.consumeOffset
        consumeOffset := 0 }
    else reader
  if reader.consumeOffset = reader.textBuffer.length then
    { reader with textBuffer := [], consumeOffset := 0 }
  else reader

/-- The callback of a read: the bytes are appended, then
`OnChunkReceived`. -/
def onRead (reader : LineReader) (ok : Bool) (bytes : Bytes) : LineReader :=
  let reader :=
    if ok && bytes ≠ [] then
      { reader with textBuffer := reader.textBuffer ++ bytes }
    else reader
  if !reader.started then reader
  else if !ok || bytes = [] then reader.finish
  else
    let (lines, offset) :=
      completedLines reader.textBuffer reader.consumeOffset
    let reader := compact { reader with consumeOffset := offset }
    { reader with lines := reader.lines ++ lines }

def readAll (chunks : List Bytes) (ok : Bool) : LineReader :=
  (chunks.foldl (onRead · true) (startReadingLines {})).onRead ok []

end LineReader

/-! ## Lines -/

def stripCarriageReturn (line : Bytes) : Bytes :=
  if line.getLast? = some carriageReturn then line.dropLast else line

/-- The lines of a stream: the pieces that a newline ends, and what is behind
the last one unless it is empty. -/
def linesOf (stream : Bytes) : List Bytes :=
  let pieces := stream.splitOn newline
  pieces.dropLast.map stripCarriageReturn ++
    (pieces.getLast?.filter (· ≠ [])).toList

/-- The stream consists of the pieces, each with its newline, and the
remainder. -/
structure Split (stream : Bytes) (pieces : List Bytes) (rest : Bytes) :
    Prop where
  whole : stream = (pieces.map (· ++ [newline])).flatten ++ rest
  pieces : ∀ piece ∈ pieces, newline ∉ piece
  rest : newline ∉ rest

namespace Split

variable {stream rest : Bytes} {pieces : List Bytes}

theorem splitOn_eq (split : Split stream pieces rest) :
    stream.splitOn newline = pieces ++ [rest] := by
  obtain ⟨rfl, inPieces, inRest⟩ := split
  induction pieces with
  | nil => exact List.splitOn_eq_singleton inRest
  | cons piece pieces ih =>
    rw [List.forall_mem_cons] at inPieces
    rw [List.map_cons, List.flatten_cons, List.append_assoc,
      List.append_assoc, List.singleton_append,
      List.splitOn_append_cons_self_of_not_mem inPieces.1,
      ih inPieces.2]
    rfl

theorem linesOf_eq (split : Split stream pieces rest) :
    linesOf stream = pieces.map stripCarriageReturn ++
      if rest = [] then [] else [rest] := by
  simp only [linesOf, split.splitOn_eq, List.dropLast_concat,
    List.getLast?_concat]
  split
  case isTrue empty => simp [empty]
  case isFalse some => simp [some]

theorem append {more left : Bytes} {others : List Bytes}
    (first : Split stream pieces rest)
    (second : Split (rest ++ more) others left) :
    Split (stream ++ more) (pieces ++ others) left where
  whole := by
    rw [first.whole, List.append_assoc, second.whole, List.map_append,
      List.flatten_append, List.append_assoc]
  pieces := by
    intro piece member
    exact (List.mem_append.mp member).elim (first.pieces piece)
      (second.pieces piece)
  rest := second.rest

end Split

/-! ## The loop -/

theorem line_eq {piece behind : Bytes}
    (cut : textBuffer.drop pos = piece ++ newline :: behind) :
    (textBuffer.drop pos).take
        ((if pos < pos + piece.length ∧
            textBuffer[pos + piece.length - 1]? = some carriageReturn then
          pos + piece.length - 1
        else pos + piece.length) - pos) = stripCarriageReturn piece := by
  rcases piece.eq_nil_or_concat' with rfl | ⟨front, last, rfl⟩
  · simp [stripCarriageReturn]
  · have ending : textBuffer[pos + (front ++ [last]).length - 1]? =
        some last := by
      rw [List.length_append, List.length_singleton,
        show pos + (front.length + 1) - 1 = pos + front.length by omega,
        ← List.getElem?_drop, cut]
      simp
    rw [ending, cut, stripCarriageReturn, List.getLast?_concat]
    by_cases isReturn : last = carriageReturn
    · rw [if_pos ⟨by simp, by rw [isReturn]⟩, if_pos (by rw [isReturn])]
      simp
    · have other : ¬some last = some carriageReturn :=
        fun same => isReturn (Option.some.inj same)
      rw [if_neg fun both => other both.2, if_neg other,
        Nat.add_sub_cancel_left, List.take_left]

theorem completedLines_split (textBuffer : Bytes) {consumeOffset : Nat}
    (inside : consumeOffset ≤ textBuffer.length) :
    (completedLines textBuffer consumeOffset).2 ≤ textBuffer.length ∧
    ∃ pieces, Split (textBuffer.drop consumeOffset) pieces
        (textBuffer.drop (completedLines textBuffer consumeOffset).2) ∧
      (completedLines textBuffer consumeOffset).1 =
        pieces.map stripCarriageReturn := by
  fun_induction completedLines textBuffer consumeOffset with
  | case1 offset none =>
    exact ⟨inside, [], ⟨rfl, nofun, findNewline_none none⟩, rfl⟩
  | case2 offset nl found near lineEnd line lines behind same ih =>
    rw [same] at ih
    obtain ⟨within, pieces, split, stripped⟩ := ih near.2
    refine ⟨within, ?_⟩
    obtain ⟨piece, after, cut, none, rfl⟩ := findNewline_some found
    have next : textBuffer.drop (offset + piece.length + 1) = after := by
      rw [Nat.add_assoc, ← List.drop_drop, cut]
      simp
    rw [next] at split
    refine ⟨piece :: pieces, ⟨?_, ?_, split.rest⟩, ?_⟩
    · rw [cut, split.whole]
      simp
    · exact List.forall_mem_cons.mpr ⟨none, split.pieces⟩
    · exact congrArg₂ List.cons (line_eq cut) stripped

/-! ## The reader -/

/-- A reader that has delivered the lines of the stream. -/
structure Follows (reader : LineReader) (stream : Bytes) : Prop where
  started : reader.started = true
  inside : reader.consumeOffset ≤ reader.textBuffer.length
  split : ∃ pieces, Split stream pieces
      (reader.textBuffer.drop reader.consumeOffset) ∧
    reader.lines = pieces.map stripCarriageReturn

namespace Follows

variable {reader : LineReader} {stream : Bytes}

theorem initially : Follows (LineReader.startReadingLines {}) [] where
  started := rfl
  inside := Nat.le_refl 0
  split := ⟨[], ⟨rfl, nofun, nofun⟩, rfl⟩

theorem compact_spec (reader : LineReader)
    (inside : reader.consumeOffset ≤ reader.textBuffer.length) :
    reader.compact.started = reader.started ∧
    reader.compact.lines = reader.lines ∧
    reader.compact.consumeOffset ≤ reader.compact.textBuffer.length ∧
    reader.compact.textBuffer.drop reader.compact.consumeOffset =
      reader.textBuffer.drop reader.consumeOffset := by
  unfold LineReader.compact
  by_cases long : kTextBufferCompactionThreshold ≤ reader.consumeOffset
  · simp only [long, if_true]
    split
    case isTrue empty => simp [List.length_eq_zero_iff.mp empty.symm]
    case isFalse => simp
  · simp only [long, if_false]
    split
    case isTrue empty => simp [empty]
    case isFalse => simp [inside]

variable (follows : Follows reader stream)

include follows

theorem onRead {bytes : Bytes} (some : bytes ≠ []) :
    Follows (reader.onRead true bytes) (stream ++ bytes) := by
  obtain ⟨textBuffer, consumeOffset, started, lines⟩ := reader
  obtain ⟨rfl, inside, pieces, split, delivered⟩ := follows
  dsimp only at inside split delivered
  obtain ⟨within, others, behind, completed⟩ :=
    @completedLines_split (textBuffer ++ bytes) consumeOffset
      (by rw [List.length_append]; omega)
  rw [List.drop_append_of_le_length inside] at behind
  obtain ⟨isStarted, kept, bounded, left⟩ := compact_spec
    { textBuffer := textBuffer ++ bytes
      consumeOffset := (completedLines (textBuffer ++ bytes) consumeOffset).2
      started := true, lines } within
  rw [← left] at behind
  simp only [LineReader.onRead, some, ne_eq, not_false_eq_true, decide_true,
    Bool.and_self, if_true, Bool.not_true, Bool.false_eq_true, if_false,
    decide_false, Bool.or_self]
  refine ⟨isStarted, bounded, pieces ++ others, split.append behind, ?_⟩
  rw [List.map_append, ← completed, ← delivered]
  exact congrArg (· ++ _) kept

theorem foldl {chunks : List Bytes} (some : ∀ chunk ∈ chunks, chunk ≠ []) :
    Follows (chunks.foldl (LineReader.onRead · true) reader)
      (stream ++ chunks.flatten) := by
  induction chunks generalizing reader stream with
  | nil => simpa using follows
  | cons chunk chunks ih =>
    rw [List.forall_mem_cons] at some
    rw [List.foldl_cons, List.flatten_cons, ← List.append_assoc]
    exact ih (follows.onRead some.1) some.2

theorem finish (ok : Bool) : (reader.onRead ok []).lines = linesOf stream := by
  obtain ⟨started, inside, pieces, split, delivered⟩ := follows
  have ends : reader.onRead ok [] = reader.finish := by
    simp [LineReader.onRead, started]
  rw [ends, split.linesOf_eq, ← delivered, LineReader.finish]
  split
  case isTrue more => rw [if_neg (by simpa using more)]
  case isFalse none =>
    rw [if_pos (by simpa using none), List.append_nil]

end Follows

/-- The delivered lines are those of the stream, however it was cut. -/
theorem lines_readAll {chunks : List Bytes}
    (some : ∀ chunk ∈ chunks, chunk ≠ []) (ok : Bool) :
    (LineReader.readAll chunks ok).lines = linesOf chunks.flatten :=
  (Follows.initially.foldl some).finish ok

/-- A line is ended by CR and LF in two reads; the rest is not ended. -/
theorem lines_readAll_cut :
    (LineReader.readAll [[0x61, 0x0D], [0x0A, 0x62]] false).lines =
      [[0x61], [0x62]] :=
  lines_readAll (by decide) false

end Libnei.Io
