import Libnei.Ipc.ErrorReport

/-!
# The pipelines of a channel

Without errors, the write pipeline of a channel is in one place at a time: a
thread is about to post `IssueNextWrite`, a task is posted or running, or a
write is outstanding.  What the stream has taken is the sent frames up to
there.  The read pipeline of a started channel is in one place as well.
-/

namespace Libnei.Ipc

open Lib

/-! ## Places -/

inductive WritePlace
  | issue
  | slice (bytes : Bytes)
  | done (success : Bool) (count : Nat)

inductive ReadPlace
  | begins
  | outstanding
  | data (success : Bool) (bytes : Bytes)
  | taken

namespace Task

def writePlace : Task → Option WritePlace
  | .issueNextWrite => some .issue
  | .onWriteComplete success count => some (.done success count)
  | .beginRead | .onDataReceived .. => none

def readPlace : Task → Option ReadPlace
  | .beginRead => some .begins
  | .onDataReceived success bytes => some (.data success bytes)
  | .issueNextWrite | .onWriteComplete .. => none

end Task

namespace Control

def writePlace : Control → Option WritePlace
  | .issueNextWrite => some .issue
  | .write slice => some (.slice slice)
  | .writeComplete success count => some (.done success count)
  | .idle | .beginRead _ | .issueRead _ | .ingest .. | .deliver .. | .post ..
  | .proceed | .lastCheck | .takeError | .postError => none

def readPlace : Control → Option ReadPlace
  | .beginRead _ | .issueRead _ => some .begins
  | .ingest success bytes => some (.data success bytes)
  | .deliver .. | .post .. | .proceed => some .taken
  | .idle | .lastCheck | .takeError | .postError | .issueNextWrite
  | .write _ | .writeComplete .. => none

end Control

namespace Channel

variable (channel : Channel)

/-- Where the write pipeline is. -/
def writePlaces : List WritePlace :=
  List.replicate channel.toIssue .issue ++
    channel.tasks.filterMap Task.writePlace ++
    channel.writes.map .slice ++ channel.io.writePlace.toList

/-- Where the read pipeline is. -/
def readPlaces : List ReadPlace :=
  List.replicate channel.toBegin .begins ++
    channel.tasks.filterMap Task.readPlace ++
    List.replicate channel.reads .outstanding ++ channel.io.readPlace.toList

end Channel

theorem parts_of_singleton {α : Type} {front middle back : List α} {item : α}
    (whole : front ++ middle ++ back = [item]) (there : middle ≠ []) :
    front = [] ∧ middle = [item] ∧ back = [] := by
  have lengths := congrArg List.length whole
  simp only [List.length_append, List.length_singleton] at lengths
  have some := List.length_pos_iff.mpr there
  have noFront : front = [] := List.length_eq_zero_iff.mp (by omega)
  have noBack : back = [] := List.length_eq_zero_iff.mp (by omega)
  subst noFront noBack
  exact ⟨rfl, by simpa using whole, rfl⟩

theorem perm_of_entered {α β : Type} {place : α → Option β} {task : α}
    {tasks queue : List α} (next : queue = task :: tasks)
    (front back : List β) :
    (front ++ tasks.filterMap place ++ back ++ (place task).toList).Perm
      (front ++ queue.filterMap place ++ back ++ []) := by
  have first : queue.filterMap place =
      (place task).toList ++ tasks.filterMap place := by
    rw [next, List.filterMap_cons]
    cases place task <;> rfl
  rw [first]
  simp only [List.append_assoc, List.append_nil]
  refine List.Perm.append_left front ?_
  rw [← List.append_assoc]
  exact List.perm_append_comm

/-! ## Writing -/

variable {task : Task} {tasks : List Task} {count : Nat} {slice : Bytes}
  {success : Bool} {place : ReadPlace}

theorem writePlaces_enter {channel : Channel} (here : channel.io = .idle)
    (first : channel.tasks = task :: tasks) :
    (Channel.writePlaces { channel with tasks, io := Channel.enter task }).Perm
      channel.writePlaces := by
  have same : (Channel.enter task).writePlace = task.writePlace := by
    cases task <;> rfl
  simp only [Channel.writePlaces, here, same]
  exact perm_of_entered first _ _

theorem writePlaces_post (channel : Channel) (other : task.writePlace = none) :
    (Channel.writePlaces { channel with tasks := channel.tasks ++ [task] }) =
      channel.writePlaces := by
  simp [Channel.writePlaces, List.filterMap_append, other]

/-- How far the frame at the front of the queue was written. -/
def Channel.At (channel : Channel) (front : Bytes) (position : Nat) :
    WritePlace → Prop
  | .issue => position < front.length ∧
      (channel.currentWriteBuf = none ∧ position = 0 ∨
        channel.currentWriteBuf = some front ∧
          channel.currentWriteOffset = position)
  | .slice bytes => position < front.length ∧
      channel.currentWriteBuf = some front ∧
      channel.currentWriteOffset = position ∧ bytes = front.drop position
  | .done success count => success = true ∧ 1 ≤ count ∧
      channel.currentWriteBuf = some front ∧
      position = channel.currentWriteOffset + count ∧
      position ≤ front.length

/-- The write pipeline without errors. -/
inductive Sending (channel : Channel) : Prop
  | idle (places : channel.writePlaces = [])
      (flag : channel.writeInFlight = false)
      (queue : channel.pendingWrites = [])
      (current : channel.currentWriteBuf = none)
      (written : channel.written = (channel.sent.map frame).flatten)
  | busy (finished : List Bytes) (front : Bytes) (rest : List Bytes)
      (position : Nat) (place : WritePlace)
      (places : channel.writePlaces = [place])
      (flag : channel.writeInFlight = true)
      (queue : channel.pendingWrites = front :: rest)
      (frames : channel.sent.map frame = finished ++ front :: rest)
      (written : channel.written = finished.flatten ++ front.take position)
      (there : channel.At front position place)

/-- A channel in its error state that has written every frame. -/
structure Drained (channel : Channel) : Prop where
  signaled : channel.errorSignaled = true
  places : channel.writePlaces = []
  written : channel.written = (channel.sent.map frame).flatten

namespace Sending

variable {channel next : Channel}

theorem initially : Sending {} :=
  .idle rfl rfl rfl rfl rfl

theorem frame_length_pos {payloads : List Bytes} {bytes : Bytes}
    (member : bytes ∈ payloads.map frame) : 0 < bytes.length := by
  obtain ⟨payload, -, rfl⟩ := List.mem_map.mp member
  rw [frame, List.length_append, header_length]
  exact Nat.add_pos_left framing.headerSize_pos _

section

variable (sending : Sending channel)

include sending

theorem at_place {place : WritePlace} (member : place ∈ channel.writePlaces) :
    ∃ finished front rest position,
      channel.writePlaces = [place] ∧ channel.writeInFlight = true ∧
      channel.pendingWrites = front :: rest ∧
      channel.sent.map frame = finished ++ front :: rest ∧
      channel.written = finished.flatten ++ front.take position ∧
      channel.At front position place := by
  cases sending with
  | idle places =>
    rw [places] at member
    cases member
  | busy finished front rest position other places flag queue frames written
      there =>
      rw [places] at member
      obtain rfl := List.mem_singleton.mp member
      exact ⟨finished, front, rest, position, places, flag, queue, frames,
        written, there⟩

theorem congr (same : (next.sent, next.pendingWrites, next.currentWriteBuf,
      next.currentWriteOffset, next.writeInFlight, next.written) =
      (channel.sent, channel.pendingWrites, channel.currentWriteBuf,
        channel.currentWriteOffset, channel.writeInFlight, channel.written))
    (places : next.writePlaces.Perm channel.writePlaces) : Sending next := by
  simp only [Prod.mk.injEq] at same
  obtain ⟨sent, queue, current, offset, flag, written⟩ := same
  cases sending with
  | idle none flag' queue' current' written' =>
    rw [none] at places
    refine .idle places.eq_nil (flag.trans flag') (queue.trans queue')
      (current.trans current') ?_
    rw [written, sent]
    exact written'
  | busy finished front rest position place one flag' queue' frames written'
      there =>
      rw [one] at places
      refine .busy finished front rest position place
        (List.perm_singleton.mp places) (flag.trans flag')
        (queue.trans queue') ?_ (written.trans written') ?_
      · rw [sent]
        exact frames
      · unfold Channel.At
        rw [current, offset]
        exact there

theorem send (payload : Bytes) : Sending (channel.send payload) := by
  unfold Channel.send
  split
  case isTrue => exact sending
  case isFalse =>
    cases sending with
    | idle places flag queue current written =>
      dsimp only
      rw [if_neg (by simp [flag])]
      refine .busy (channel.sent.map frame) (frame payload) [] 0 .issue
        ?_ rfl (by simp [queue]) (by simp) (by simp [written])
        ⟨?_, .inl ⟨current, rfl⟩⟩
      · simp only [Channel.writePlaces, List.append_eq_nil_iff,
          List.replicate_eq_nil_iff] at places ⊢
        obtain ⟨⟨⟨none, tasks⟩, writes⟩, io⟩ := places
        simp [none, tasks, writes, io]
      · exact frame_length_pos
          (show frame payload ∈ [payload].map frame by simp)
    | busy finished front rest position place places flag queue frames
        written there =>
        dsimp only
        rw [if_pos flag]
        refine .busy finished front (rest ++ [frame payload]) position
          place places flag (by simp [queue]) (by simp [frames]) written
          there

theorem postIssue (some : channel.toIssue ≠ 0) : Sending { channel with
      toIssue := channel.toIssue - 1
      tasks := channel.tasks ++ [.issueNextWrite] } := by
  refine sending.congr rfl ?_
  obtain ⟨count, there⟩ := Nat.exists_eq_succ_of_ne_zero some
  simp only [Channel.writePlaces, there, List.filterMap_append,
    List.replicate_succ, List.append_assoc, List.filterMap_cons,
    Task.writePlace, List.filterMap_nil, List.cons_append, List.nil_append,
    Nat.succ_eq_add_one, Nat.add_sub_cancel]
  rw [← List.append_assoc, ← List.append_assoc]
  exact List.perm_middle

theorem writeDone {writes : List Bytes}
    (outstanding : channel.writes = slice :: writes) (some : 1 ≤ count)
    (atMost : count ≤ slice.length) :
    Sending { channel with
      writes
      written := channel.written ++ slice.take count
      tasks := channel.tasks ++ [.onWriteComplete true count] } := by
  have member : .slice slice ∈ channel.writePlaces := by
    simp [Channel.writePlaces, outstanding]
  obtain ⟨finished, front, rest, position, places, flag, queue, frames,
    written, before, current, offset, rfl⟩ := sending.at_place member
  obtain ⟨none, one, idle⟩ := parts_of_singleton places
    (by simp [outstanding])
  simp only [List.append_eq_nil_iff] at none
  rw [outstanding, List.map_cons] at one
  refine .busy finished front rest (position + count) (.done true count) ?_
    flag queue frames ?_ ⟨rfl, some, current, by rw [offset], ?_⟩
  · simp only [Channel.writePlaces, none.1, List.filterMap_append, none.2,
      (List.cons.inj one).2, idle]
    rfl
  · rw [written, List.take_add, List.append_assoc]
  · rw [List.length_drop] at atMost
    omega

end

theorem io_place {place : WritePlace} (places : channel.writePlaces = [place])
    (here : channel.io.writePlace = some place) (control : Control) :
    Channel.writePlaces { channel with io := control } =
      control.writePlace.toList := by
  have whole : channel.writePlaces ++ [] = [place] := by
    rw [List.append_nil]
    exact places
  obtain ⟨none, -, -⟩ := parts_of_singleton whole (by simp [here])
  simp only [Channel.writePlaces] at none ⊢
  rw [none, List.nil_append]

variable (sending : Sending channel)

include sending

theorem issueNextWrite (here : channel.io = .issueNextWrite)
    (going : channel.errorSignaled = false) :
    Sending channel.issueNextWrite := by
  have member : .issue ∈ channel.writePlaces := by
    simp [Channel.writePlaces, here, Control.writePlace]
  obtain ⟨finished, front, rest, position, places, flag, queue, frames,
    written, before, there⟩ := sending.at_place member
  have alone := io_place places (by rw [here]; rfl)
  unfold Channel.issueNextWrite
  rw [if_neg (by simp [going])]
  split
  case h_1 buffer current =>
    rcases there with ⟨none, -⟩ | ⟨same, offset⟩
    · exact nomatch current.symm.trans none
    · obtain rfl := Option.some.inj (current.symm.trans same)
      exact .busy finished _ rest position (.slice _) (alone _) flag queue
        frames written ⟨before, current, offset, by rw [offset]⟩
  case h_2 none =>
    rcases there with ⟨-, rfl⟩ | ⟨same, -⟩
    · split
      case h_1 empty => exact nomatch queue.symm.trans empty
      case h_2 first others queue' =>
        obtain ⟨rfl, rfl⟩ := List.cons.inj (queue.symm.trans queue')
        exact .busy finished front rest 0 (.slice front) (alone _) flag
          queue frames written ⟨before, rfl, rfl, rfl⟩
    · exact nomatch none.symm.trans same

theorem write (here : channel.io = .write slice) :
    Sending (channel.write slice) := by
  refine sending.congr rfl ?_
  simp only [Channel.writePlaces, Channel.write, here, Control.writePlace,
    List.map_append, List.map_cons, List.map_nil, Option.toList_some,
    Option.toList_none, List.append_nil, List.append_assoc]
  exact List.Perm.refl _

/-- The last frame of a channel that closes ends the pipeline. -/
theorem onWriteComplete (here : channel.io = .writeComplete success count)
    (going : channel.errorSignaled = false) :
    (Sending (channel.onWriteComplete success count) ∧
      (channel.onWriteComplete success count).errorSignaled = false) ∨
    (channel.closing = true ∧
      Drained (channel.onWriteComplete success count)) := by
  have member : .done success count ∈ channel.writePlaces := by
    simp [Channel.writePlaces, here, Control.writePlace]
  obtain ⟨finished, front, rest, position, places, flag, queue, frames,
    written, rfl, some, current, rfl, inside⟩ := sending.at_place member
  have alone := io_place places (by rw [here]; rfl)
  unfold Channel.onWriteComplete
  rw [if_neg (by simp [going]), if_neg (by simp; omega)]
  dsimp only
  split
  case isTrue whole =>
    rw [current] at whole
    simp only [Option.getD_some, ge_iff_le] at whole
    have complete : front.take (channel.currentWriteOffset + count) =
        front := List.take_of_length_le whole
    rw [complete] at written
    have tail : channel.popWrite.pendingWrites = rest := by
      simp [Channel.popWrite, queue]
    cases rest with
    | nil =>
      have all : channel.written = (channel.sent.map frame).flatten := by
        rw [written, frames]
        simp
      split
      case isTrue closes =>
        have closing : channel.closing = true :=
          (Bool.and_eq_true_iff.mp closes).2
        have places : Channel.writePlaces
            { channel.popWrite.signalErrorLocked with
              io := .takeError } = [] := by
          rw [Channel.signalErrorLocked, if_neg (by
            simp [Channel.popWrite, going])]
          exact alone .takeError
        refine .inr ⟨closing, ?_, places, ?_⟩
        · simp only [Channel.signalErrorLocked]
          split
          case isTrue signaled => exact signaled
          case isFalse => rfl
        · simp only [Channel.signalErrorLocked]
          split
          case isTrue => exact all
          case isFalse => exact all
      case isFalse =>
        rw [if_neg (by simp [tail])]
        exact .inl ⟨.idle (alone _) rfl tail rfl all, going⟩
    | cons second others =>
      rw [if_neg (by simp [tail]), if_pos (by simp [tail])]
      have frames' : channel.sent.map frame =
          (finished ++ [front]) ++ second :: others := by
        simp [frames]
      have written' : channel.written =
          (finished ++ [front]).flatten ++ second.take 0 := by
        simp [written]
      refine .inl ⟨.busy (finished ++ [front]) second others 0 .issue
        (alone _) flag tail frames' written'
        ⟨?_, .inl ⟨rfl, rfl⟩⟩, going⟩
      exact frame_length_pos
        (show second ∈ channel.sent.map frame by simp [frames])
  case isFalse partly =>
    rw [current] at partly
    simp only [Option.getD_some, ge_iff_le, Nat.not_le] at partly
    exact .inl ⟨.busy finished front rest _ .issue (alone _) flag queue
      frames written ⟨partly, .inr ⟨current, rfl⟩⟩, going⟩

end Sending

/-! ## Reading -/

/-- What the place of the read pipeline says. -/
def Channel.Expects (channel : Channel) : ReadPlace → Prop
  | .begins | .taken => channel.readInFlight = false
  | .outstanding => channel.readInFlight = true
  | .data success bytes => success = true ∧ bytes ≠ []

/-- The read pipeline without errors. -/
inductive Receiving (channel : Channel) : Prop
  | stopped (places : channel.readPlaces = [])
      (flag : channel.readInFlight = false)
      (notYet : channel.started = false)
  | started (place : ReadPlace) (places : channel.readPlaces = [place])
      (started : channel.started = true) (expects : channel.Expects place)

namespace Receiving

variable {channel next : Channel}

theorem initially : Receiving {} :=
  .stopped rfl rfl rfl

section

variable (receiving : Receiving channel)

include receiving

theorem at_place (member : place ∈ channel.readPlaces) :
    channel.readPlaces = [place] ∧ channel.started = true ∧
      channel.Expects place := by
  cases receiving with
  | stopped places =>
    rw [places] at member
    cases member
  | started other places started expects =>
    rw [places] at member
    obtain rfl := List.mem_singleton.mp member
    exact ⟨places, started, expects⟩

theorem congr (started : next.started = channel.started)
    (flag : next.readInFlight = channel.readInFlight)
    (places : next.readPlaces.Perm channel.readPlaces) : Receiving next := by
  cases receiving with
  | stopped none flag' notYet =>
    rw [none] at places
    exact .stopped places.eq_nil (flag.trans flag') (started.trans notYet)
  | started place one started' expects =>
    rw [one] at places
    refine .started place (List.perm_singleton.mp places)
      (started.trans started') ?_
    unfold Channel.Expects
    rw [flag]
    exact expects

theorem places_of_perm (places : next.readPlaces.Perm channel.readPlaces) :
    next.readPlaces = channel.readPlaces := by
  cases receiving with
  | stopped none =>
    rw [none] at places ⊢
    exact places.eq_nil
  | started place one =>
    rw [one] at places ⊢
    exact List.perm_singleton.mp places

theorem startReading : Receiving channel.startReading := by
  unfold Channel.startReading
  split
  case isTrue => exact receiving
  case isFalse fresh =>
    simp only [Bool.or_eq_true, not_or, Bool.not_eq_true] at fresh
    cases receiving with
    | stopped places flag =>
      refine .started .begins ?_ rfl flag
      simp only [Channel.readPlaces, List.append_eq_nil_iff,
        List.replicate_eq_nil_iff] at places ⊢
      obtain ⟨⟨⟨none, tasks⟩, reads⟩, io⟩ := places
      simp [none, tasks, reads, io]
    | started _ _ started => exact nomatch fresh.1.symm.trans started

end

theorem postBegin_places (some : channel.toBegin ≠ 0) :
    (Channel.readPlaces { channel with
      toBegin := channel.toBegin - 1
      tasks := channel.tasks ++ [.beginRead] }).Perm
        channel.readPlaces := by
  obtain ⟨count, there⟩ := Nat.exists_eq_succ_of_ne_zero some
  simp only [Channel.readPlaces, there, List.filterMap_append,
    List.replicate_succ, List.append_assoc, List.filterMap_cons,
    Task.readPlace, List.filterMap_nil, List.cons_append, List.nil_append,
    Nat.succ_eq_add_one, Nat.add_sub_cancel]
  rw [← List.append_assoc, ← List.append_assoc]
  exact List.perm_middle

theorem readDone (receiving : Receiving channel) (some : channel.reads ≠ 0)
    {bytes : Bytes} (data : bytes ≠ []) :
    Receiving { channel with
      reads := channel.reads - 1
      tasks := channel.tasks ++ [.onDataReceived true bytes] } ∧
    Channel.readPlaces { channel with
      reads := channel.reads - 1
      tasks := channel.tasks ++ [.onDataReceived true bytes] } =
        [.data true bytes] := by
  have member : .outstanding ∈ channel.readPlaces := by
    simp [Channel.readPlaces, some]
  obtain ⟨places, started, -⟩ := receiving.at_place member
  obtain ⟨none, one, idle⟩ := parts_of_singleton places (by simp [some])
  simp only [List.append_eq_nil_iff] at none
  have single : channel.reads = 1 := by
    simpa using congrArg List.length one
  have after : Channel.readPlaces { channel with
      reads := channel.reads - 1
      tasks := channel.tasks ++ [.onDataReceived true bytes] } =
        [.data true bytes] := by
    simp only [Channel.readPlaces, none.1, List.filterMap_append, none.2,
      single, idle]
    rfl
  exact ⟨.started (.data true bytes) after started ⟨rfl, data⟩, after⟩

theorem io_place (receiving : Receiving channel)
    (here : channel.io.readPlace = some place) :
    channel.readPlaces = [place] ∧ channel.started = true ∧
      channel.Expects place ∧ channel.toBegin = 0 ∧
      channel.tasks.filterMap Task.readPlace = [] ∧ channel.reads = 0 := by
  have member : place ∈ channel.readPlaces := by simp [Channel.readPlaces, here]
  obtain ⟨places, started, expects⟩ := receiving.at_place member
  have whole : channel.readPlaces ++ [] = [place] := by
    rw [List.append_nil]
    exact places
  obtain ⟨empty, -, -⟩ := parts_of_singleton whole (by simp [here])
  simp only [List.append_eq_nil_iff, List.replicate_eq_nil_iff] at empty
  exact ⟨places, started, expects, empty.1.1, empty.1.2, empty.2⟩

end Receiving

/-! ## The I/O thread -/

theorem Sending.aside {channel next : Channel} (sending : Sending channel)
    (same : (next.sent, next.pendingWrites, next.currentWriteBuf,
      next.currentWriteOffset, next.writeInFlight, next.written) =
      (channel.sent, channel.pendingWrites, channel.currentWriteBuf,
        channel.currentWriteOffset, channel.writeInFlight, channel.written))
    (others : (next.toIssue, next.tasks, next.writes) =
      (channel.toIssue, channel.tasks, channel.writes))
    (io : next.io.writePlace = channel.io.writePlace) : Sending next := by
  simp only [Prod.mk.injEq] at others
  refine sending.congr same ?_
  rw [Channel.writePlaces, Channel.writePlaces, others.1, others.2.1,
    others.2.2, io]

theorem Receiving.aside {channel next : Channel} (receiving : Receiving channel)
    (same : (next.started, next.readInFlight, next.toBegin, next.tasks,
      next.reads) = (channel.started, channel.readInFlight, channel.toBegin,
        channel.tasks, channel.reads))
    (io : next.io.readPlace = channel.io.readPlace) : Receiving next := by
  simp only [Prod.mk.injEq] at same
  obtain ⟨started, flag, toBegin, tasks, reads⟩ := same
  refine receiving.congr started flag ?_
  rw [Channel.readPlaces, Channel.readPlaces, toBegin, tasks, reads, io]

/-- The bytes that the stream has handed over and that were not taken in. -/
def ReadPlace.bytes : ReadPlace → Bytes
  | .data _ bytes => bytes
  | .begins | .outstanding | .taken => []

def Channel.incoming (channel : Channel) : Bytes :=
  (channel.readPlaces.map ReadPlace.bytes).flatten

/-- A channel without errors. -/
structure Healthy (channel : Channel) : Prop where
  going : channel.errorSignaled = false
  staying : channel.closing = false
  sending : Sending channel
  receiving : Receiving channel
  reports : ∃ delivered errors, Reports channel delivered errors

/-- What a step of the I/O thread keeps. -/
structure Healthy.Keeps (channel next : Channel) : Prop where
  healthy : Healthy next
  sent : next.sent = channel.sent
  written : next.written = channel.written
  received : next.ingested ++ next.incoming =
    channel.ingested ++ channel.incoming

namespace Healthy

variable {channel next : Channel}

theorem initially : Healthy {} :=
  ⟨rfl, rfl, .initially, .initially, [], 0, .initially⟩

theorem incoming_of_places (one : next.readPlaces = channel.readPlaces) :
    next.incoming = channel.incoming := by
  rw [Channel.incoming, Channel.incoming, one]

theorem incoming_nil (one : channel.readPlaces = [place])
    (none : place.bytes = []) : channel.incoming = [] := by
  simp [Channel.incoming, one, none]

theorem moves (healthy : Healthy channel) {control : Control}
    (write : control.writePlace = channel.io.writePlace)
    (read : control.readPlace = channel.io.readPlace)
    (reports : ∃ delivered errors,
      Reports { channel with io := control } delivered errors) :
    Keeps channel { channel with io := control } where
  healthy := ⟨healthy.going, healthy.staying,
    healthy.sending.aside rfl rfl write, healthy.receiving.aside rfl read,
    reports⟩
  sent := rfl
  written := rfl
  received := by
    refine congrArg (channel.ingested ++ ·) (incoming_of_places ?_)
    rw [Channel.readPlaces, Channel.readPlaces, read]

variable {again failed : Bool} {messages : List Bytes}

section

variable (healthy : Healthy channel)

include healthy

theorem unfailed : channel.io.failed = false := by
  obtain ⟨delivered, errors, reports⟩ := healthy.reports
  refine eq_false_of_ne_true fun failed => ?_
  exact nomatch healthy.going.symm.trans (reports.failed failed)

theorem beginRead (here : channel.io = .beginRead again) :
    Keeps channel (channel.beginRead again) := by
  obtain ⟨delivered, errors, reports⟩ := healthy.reports
  have next := reports.beginRead here
  unfold Channel.beginRead at next ⊢
  rw [if_neg (by simp [healthy.going, healthy.staying])] at next ⊢
  exact healthy.moves (by rw [here]; rfl) (by rw [here]; rfl) ⟨_, _, next⟩

theorem issueRead (here : channel.io = .issueRead again) :
    Keeps channel (channel.issueRead again) := by
  obtain ⟨delivered, errors, reports⟩ := healthy.reports
  have next := reports.issueRead here
  obtain ⟨places, started, flag, toBegin, tasks, reads⟩ :=
    healthy.receiving.io_place (congrArg Control.readPlace here)
  have flag : channel.readInFlight = false := flag
  have quiet : (Channel.afterBegin again).writePlace = none ∧
      (Channel.afterBegin again).readPlace = none := by
    cases again <;> exact ⟨rfl, rfl⟩
  unfold Channel.issueRead at next ⊢
  rw [if_neg (by simp [flag])] at next ⊢
  have outstanding : Channel.readPlaces { channel with
      readInFlight := true, reads := channel.reads + 1
      io := Channel.afterBegin again } = [.outstanding] := by
    simp [Channel.readPlaces, toBegin, tasks, reads, quiet.2]
  refine ⟨⟨healthy.going, healthy.staying, ?_, ?_, _, _, next⟩, rfl, rfl, ?_⟩
  · exact healthy.sending.aside rfl rfl (by rw [here]; exact quiet.1)
  · exact .started .outstanding outstanding started rfl
  · rw [incoming_nil outstanding rfl, incoming_nil places rfl]

theorem ingest {bytes : Bytes} (here : channel.io = .ingest success bytes)
    (intact : framing.corrupt
      (framing.readFrames (channel.ingested ++ bytes)).2 = false) :
    Keeps channel (channel.ingest success bytes) := by
  obtain ⟨delivered, errors, reports⟩ := healthy.reports
  have next := reports.ingest here fun _ corrupt =>
    nomatch intact.symm.trans corrupt
  obtain ⟨places, started, ⟨rfl, data⟩, toBegin, tasks, reads⟩ :=
    healthy.receiving.io_place (congrArg Control.readPlace here)
  have spec := tryParseFrames_spec (reports.unread.append bytes)
  rw [Framing.readFrames_append] at intact
  unfold Channel.ingest at next ⊢
  dsimp only at next ⊢
  rw [if_neg (by simp [healthy.going]), if_neg (by simp [data])] at next ⊢
  generalize Receiver.tryParseFrames _ = parsed at spec next ⊢
  obtain ⟨messages, receiver, failed⟩ := parsed
  obtain ⟨-, -, failed'⟩ := spec
  obtain rfl : failed = false := failed'.trans intact
  simp only [Bool.false_eq_true, if_false] at next ⊢
  have taken : Channel.readPlaces { channel with
      readInFlight := false, receiver := receiver.compactReceiveBuffer
      io := .deliver messages false
      ingested := channel.ingested ++ bytes } = [.taken] := by
    simp [Channel.readPlaces, toBegin, tasks, reads, Control.readPlace]
  refine ⟨⟨healthy.going, healthy.staying, ?_, ?_, _, _, next⟩, rfl, rfl, ?_⟩
  · exact healthy.sending.aside rfl rfl (by rw [here]; rfl)
  · exact .started .taken taken started rfl
  · rw [incoming_nil taken rfl, List.append_nil]
    simp [Channel.incoming, places, ReadPlace.bytes]

theorem deliver (here : channel.io = .deliver messages failed) :
    Keeps channel (channel.deliver messages failed) := by
  obtain ⟨delivered, errors, reports⟩ := healthy.reports
  have next := reports.deliver here
  obtain rfl : failed = false :=
    (congrArg Control.failed here).symm.trans healthy.unfailed
  refine healthy.moves ?_ ?_ ⟨_, _, next⟩
  · rw [here]
    split_ifs <;> rfl
  · simp only [here, healthy.going, Bool.false_eq_true, if_false]
    split_ifs <;> rfl

theorem post (here : channel.io = .post messages failed) :
    Keeps channel (channel.post messages failed) := by
  obtain ⟨delivered, errors, reports⟩ := healthy.reports
  have next := reports.post here
  obtain rfl : failed = false :=
    (congrArg Control.failed here).symm.trans healthy.unfailed
  refine ⟨⟨healthy.going, healthy.staying, ?_, ?_, _, _, next⟩, rfl, rfl, ?_⟩
  · exact healthy.sending.aside rfl rfl (by rw [here]; rfl)
  · exact healthy.receiving.aside rfl (by rw [here]; rfl)
  · refine congrArg (channel.ingested ++ ·) (incoming_of_places ?_)
    simp [Channel.readPlaces, Channel.post, here, Channel.afterMessages,
      Control.readPlace]

theorem proceed (here : channel.io = .proceed) :
    Keeps channel channel.proceed := by
  obtain ⟨delivered, errors, reports⟩ := healthy.reports
  have next := reports.proceed here
  obtain ⟨places, started, flag, toBegin, tasks, reads⟩ :=
    healthy.receiving.io_place (congrArg Control.readPlace here)
  unfold Channel.proceed at next ⊢
  rw [if_pos (by simp [healthy.going, healthy.staying])] at next ⊢
  have begins : Channel.readPlaces { channel with io := .beginRead true } =
      [.begins] := by
    simp [Channel.readPlaces, toBegin, tasks, reads, Control.readPlace]
  refine ⟨⟨healthy.going, healthy.staying, ?_, ?_, _, _, next⟩, rfl, rfl, ?_⟩
  · exact healthy.sending.aside rfl rfl (by rw [here]; rfl)
  · exact .started .begins begins started flag
  · rw [incoming_nil begins rfl, incoming_nil places rfl]

theorem lastCheck (here : channel.io = .lastCheck) :
    Keeps channel channel.lastCheck := by
  obtain ⟨delivered, errors, reports⟩ := healthy.reports
  have next := reports.lastCheck here
  unfold Channel.lastCheck at next ⊢
  rw [if_neg (by simp [healthy.going])] at next ⊢
  exact healthy.moves (by rw [here]; rfl) (by rw [here]; rfl) ⟨_, _, next⟩

end

/-- What a step of the write pipeline leaves as it was. -/
structure Aside (channel next : Channel) : Prop where
  going : next.errorSignaled = channel.errorSignaled
  same : (next.closing, next.sent, next.written, next.ingested) =
    (channel.closing, channel.sent, channel.written, channel.ingested)
  others : (next.started, next.readInFlight, next.toBegin, next.tasks,
    next.reads) = (channel.started, channel.readInFlight, channel.toBegin,
      channel.tasks, channel.reads)
  io : next.io.readPlace = channel.io.readPlace

variable (healthy : Healthy channel)

include healthy

theorem writes (sending : Sending next)
    (reports : ∃ delivered errors, Reports next delivered errors)
    (aside : Aside channel next) : Keeps channel next := by
  have receiving := healthy.receiving.aside aside.others aside.io
  have same := aside.same
  have others := aside.others
  simp only [Prod.mk.injEq] at same others
  obtain ⟨closing, sent, written, ingested⟩ := same
  obtain ⟨-, -, toBegin, tasks, reads⟩ := others
  refine ⟨⟨aside.going.trans healthy.going, closing.trans healthy.staying,
    sending, receiving, reports⟩, sent, written, ?_⟩
  rw [ingested]
  refine congrArg (channel.ingested ++ ·) (incoming_of_places ?_)
  rw [Channel.readPlaces, Channel.readPlaces, toBegin, tasks, reads, aside.io]

theorem issueNextWrite (here : channel.io = .issueNextWrite) :
    Keeps channel channel.issueNextWrite := by
  obtain ⟨delivered, errors, reports⟩ := healthy.reports
  refine healthy.writes
    (healthy.sending.issueNextWrite here healthy.going)
    ⟨_, _, reports.issueNextWrite here⟩ ?_
  unfold Channel.issueNextWrite
  rw [if_neg (by simp [healthy.going])]
  split
  case h_1 => exact ⟨rfl, rfl, rfl, by rw [here]; rfl⟩
  case h_2 =>
    split
    case h_1 =>
      dsimp only
      rw [if_neg (by simp [healthy.staying])]
      exact ⟨rfl, rfl, rfl, by rw [here]; rfl⟩
    case h_2 => exact ⟨rfl, rfl, rfl, by rw [here]; rfl⟩

theorem write (here : channel.io = .write slice) :
    Keeps channel (channel.write slice) := by
  obtain ⟨delivered, errors, reports⟩ := healthy.reports
  exact healthy.writes (healthy.sending.write here)
    ⟨_, _, reports.write here⟩ ⟨rfl, rfl, rfl, by rw [here]; rfl⟩

theorem onWriteComplete (here : channel.io = .writeComplete success count) :
    Keeps channel (channel.onWriteComplete success count) := by
  obtain ⟨delivered, errors, reports⟩ := healthy.reports
  have member : .done success count ∈ channel.writePlaces := by
    simp [Channel.writePlaces, here, Control.writePlace]
  obtain ⟨-, -, -, -, -, -, -, -, -, ok, some, -⟩ :=
    healthy.sending.at_place member
  obtain ⟨sending, -⟩ :=
    (healthy.sending.onWriteComplete here healthy.going).resolve_right
      fun closes => nomatch closes.1.symm.trans healthy.staying
  refine healthy.writes sending ⟨_, _, reports.onWriteComplete here⟩ ?_
  unfold Channel.onWriteComplete
  rw [if_neg (by simp [healthy.going]), if_neg (by simp [ok]; omega)]
  dsimp only
  split
  case isTrue =>
    rw [if_neg (by simp [Channel.popWrite, healthy.staying])]
    split
    · exact ⟨rfl, rfl, rfl, by rw [here]; rfl⟩
    · exact ⟨rfl, rfl, rfl, by rw [here]; rfl⟩
  case isFalse => exact ⟨rfl, rfl, rfl, by rw [here]; rfl⟩

theorem enter (here : channel.io = .idle)
    (next : channel.tasks = task :: tasks) :
    Keeps channel { channel with tasks, io := Channel.enter task } := by
  obtain ⟨delivered, errors, reports⟩ := healthy.reports
  have write := writePlaces_enter here next
  have read : (Channel.readPlaces
      { channel with tasks, io := Channel.enter task }).Perm
        channel.readPlaces := by
    have same : (Channel.enter task).readPlace = task.readPlace := by
      cases task <;> rfl
    simp only [Channel.readPlaces, here, same]
    exact perm_of_entered next _ _
  refine ⟨⟨healthy.going, healthy.staying, healthy.sending.congr rfl write,
    healthy.receiving.congr rfl rfl read, _, _, reports.enter here next⟩,
    rfl, rfl, ?_⟩
  exact congrArg (channel.ingested ++ ·)
    (incoming_of_places (healthy.receiving.places_of_perm read))

theorem run (intact : ∀ success bytes, channel.io = .ingest success bytes →
      framing.corrupt (framing.readFrames (channel.ingested ++ bytes)).2 =
        false) (ran : channel.run = some next) : Keeps channel next := by
  obtain ⟨delivered, errors, reports⟩ := healthy.reports
  cases Channel.runs_of_run ran with
  | enter here first => exact healthy.enter here first
  | beginRead here => exact healthy.beginRead here
  | issueRead here => exact healthy.issueRead here
  | ingest here => exact healthy.ingest here (intact _ _ here)
  | deliver here => exact healthy.deliver here
  | post here => exact healthy.post here
  | proceed here => exact healthy.proceed here
  | lastCheck here => exact healthy.lastCheck here
  | takeError here =>
    have errored := reports.failed (by rw [here]; rfl)
    exact nomatch healthy.going.symm.trans errored
  | postError here =>
    have errored := reports.signaled (by simp [Channel.reporting, here])
    exact nomatch healthy.going.symm.trans errored
  | issueNextWrite here => exact healthy.issueNextWrite here
  | write here => exact healthy.write here
  | onWriteComplete here => exact healthy.onWriteComplete here

/-! ## Other threads and the streams -/

theorem startReading : Keeps channel channel.startReading := by
  obtain ⟨delivered, errors, reports⟩ := healthy.reports
  have next := reports.startReading
  have receiving := healthy.receiving.startReading
  unfold Channel.startReading at receiving next ⊢
  split
  case isTrue =>
    exact ⟨healthy, rfl, rfl, rfl⟩
  case isFalse fresh =>
    rw [if_neg fresh] at receiving next
    refine ⟨⟨healthy.going, healthy.staying,
      healthy.sending.aside rfl rfl rfl, receiving, _, _, next⟩, rfl, rfl,
      ?_⟩
    refine congrArg (channel.ingested ++ ·) ?_
    simp [Channel.incoming, Channel.readPlaces, List.replicate_succ,
      ReadPlace.bytes]

theorem postBegin (taken : step channel .postBegin = some next) :
    Keeps channel next := by
  obtain ⟨delivered, errors, reports⟩ := healthy.reports
  have reports := reports.step id taken
  obtain ⟨some, ⟨⟩⟩ := Option.ite_none_left_eq_some.mp taken
  have places := Receiving.postBegin_places some
  refine ⟨⟨healthy.going, healthy.staying, ?_,
    healthy.receiving.congr rfl rfl places, reports⟩, rfl, rfl, ?_⟩
  · exact healthy.sending.congr rfl (.of_eq (writePlaces_post channel rfl))
  · exact congrArg (channel.ingested ++ ·)
      (incoming_of_places (healthy.receiving.places_of_perm places))

theorem postIssue (taken : step channel .postIssue = some next) :
    Keeps channel next := by
  obtain ⟨delivered, errors, reports⟩ := healthy.reports
  have reports := reports.step id taken
  obtain ⟨some, ⟨⟩⟩ := Option.ite_none_left_eq_some.mp taken
  have quiet : [Task.issueNextWrite].filterMap Task.readPlace = [] := rfl
  have places : Channel.readPlaces { channel with
      toIssue := channel.toIssue - 1
      tasks := channel.tasks ++ [.issueNextWrite] } = channel.readPlaces := by
    simp [Channel.readPlaces, List.filterMap_append, quiet]
  refine ⟨⟨healthy.going, healthy.staying, healthy.sending.postIssue some,
    healthy.receiving.congr rfl rfl (by rw [places]), reports⟩, rfl, rfl, ?_⟩
  exact congrArg (channel.ingested ++ ·) (incoming_of_places places)

theorem send (payload : Bytes) : Healthy (channel.send payload) ∧
      (channel.send payload).sent = channel.sent ++ [payload] ∧
      (channel.send payload).written = channel.written ∧
      (channel.send payload).ingested = channel.ingested ∧
      (channel.send payload).incoming = channel.incoming := by
  obtain ⟨delivered, errors, reports⟩ := healthy.reports
  have reports : ∃ delivered errors,
      Reports (channel.send payload) delivered errors :=
    reports.step (show ¬Mixes channel (.send payload) from id) rfl
  have sending := healthy.sending.send payload
  unfold Channel.send at sending reports ⊢
  rw [if_neg (by simp [healthy.going, healthy.staying])] at sending reports ⊢
  dsimp only at sending reports ⊢
  split
  case isTrue flag =>
    rw [if_pos flag] at sending reports
    exact ⟨⟨healthy.going, healthy.staying, sending,
      healthy.receiving.aside rfl rfl, reports⟩, rfl, rfl, rfl, rfl⟩
  case isFalse flag =>
    rw [if_neg flag] at sending reports
    exact ⟨⟨healthy.going, healthy.staying, sending,
      healthy.receiving.aside rfl rfl, reports⟩, rfl, rfl, rfl, rfl⟩

theorem writeDone (positive : count ≠ 0)
    (taken : step channel (.writeDone true count) = some next) :
    Healthy next ∧ next.sent = channel.sent ∧ next.written = channel.written ++
        (channel.writes.headD []).take count ∧
      next.ingested = channel.ingested ∧
      next.incoming = channel.incoming := by
  obtain ⟨delivered, errors, reports⟩ := healthy.reports
  have reports := reports.step id taken
  rw [step] at taken
  split at taken
  case h_1 => cases taken
  case h_2 slice writes outstanding =>
    obtain ⟨atMost, ⟨⟩⟩ := Option.ite_none_left_eq_some.mp taken
    have quiet : [Task.onWriteComplete true count].filterMap
        Task.readPlace = [] := rfl
    have places : Channel.readPlaces { channel with
        writes
        written := channel.written ++
          if true = true then slice.take count else []
        tasks := channel.tasks ++ [.onWriteComplete true count] } =
        channel.readPlaces := by
      simp [Channel.readPlaces, List.filterMap_append, quiet]
    refine ⟨⟨healthy.going, healthy.staying, ?_,
      healthy.receiving.congr rfl rfl (by rw [places]), reports⟩, rfl, ?_,
      rfl, incoming_of_places places⟩
    · exact healthy.sending.writeDone outstanding
        (Nat.one_le_iff_ne_zero.mpr positive) (Nat.not_lt.mp atMost)
    · rw [outstanding]
      rfl

theorem readDone {bytes : Bytes} (data : bytes ≠ [])
    (taken : step channel (.readDone true bytes) = some next) :
    Healthy next ∧ next.sent = channel.sent ∧
      next.written = channel.written ∧ next.ingested = channel.ingested ∧
      channel.incoming = [] ∧ next.incoming = bytes := by
  obtain ⟨delivered, errors, reports⟩ := healthy.reports
  have reports := reports.step id taken
  obtain ⟨there, ⟨⟩⟩ := Option.ite_none_left_eq_some.mp taken
  have some : channel.reads ≠ 0 := fun none => there (.inl none)
  have member : .outstanding ∈ channel.readPlaces := by
    simp [Channel.readPlaces, some]
  obtain ⟨places, -, -⟩ := healthy.receiving.at_place member
  obtain ⟨receiving, after⟩ := healthy.receiving.readDone some data
  refine ⟨⟨healthy.going, healthy.staying, ?_, receiving, reports⟩, rfl, rfl,
    rfl, incoming_nil places rfl, ?_⟩
  · exact healthy.sending.congr rfl (.of_eq (writePlaces_post channel rfl))
  · simp [Channel.incoming, after, ReadPlace.bytes]

end Healthy

end Libnei.Ipc
