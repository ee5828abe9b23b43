import Libnei.Ipc.Pipeline

/-!
# Closing a channel

`Close` lets the write pipeline run on: the error callback is to be posted
when the queue is empty.  A read that completes while the queue drains gets in
between, for the third phase of `OnDataReceived` takes any read after `Close`
for the end of the stream.  Without such reads, every frame is written when
the error callback is posted.
-/

namespace Libnei.Ipc

open Lib

/-- A read or a write of the streams fails. -/
def Fails (_ : Channel) : Action → Prop
  | .readDone success _ => success = false
  | .writeDone success count => success = false ∨ count = 0
  | _ => False

instance (channel : Channel) (action : Action) :
    Decidable (Fails channel action) := by
  cases action <;> unfold Fails <;> infer_instance

/-- The I/O thread ends the channel because of a read: there is no data or a
corrupt frame in it, or it comes after `Close`. -/
def Control.ends (channel : Channel) : Control → Prop
  | .ingest success bytes =>
      success = false ∨ bytes = [] ∨ ({ channel.receiver with
          receiveBuffer := channel.receiver.receiveBuffer ++ bytes
          }.tryParseFrames).2.2 = true
  | .proceed => channel.closing = true
  | _ => False

/-- The channel is ended by a read while there are frames to write. -/
def CutsOff (channel : Channel) : Action → Prop
  | .io => channel.pendingWrites ≠ [] ∧ channel.io.ends channel
  | _ => False

instance decidableEnds (channel : Channel) (control : Control) :
    Decidable (control.ends channel) := by
  cases control <;> unfold Control.ends <;> infer_instance

instance decidableCutsOff (channel : Channel) (action : Action) :
    Decidable (CutsOff channel action) := by
  cases action <;> unfold CutsOff <;> infer_instance

/-! ## The read pipeline and the writes -/

/-- What the write pipeline depends on. -/
def Channel.writeView (channel : Channel) :=
  ((channel.sent, channel.pendingWrites, channel.currentWriteBuf,
    channel.currentWriteOffset, channel.writeInFlight, channel.written),
    (channel.toIssue, channel.tasks, channel.writes))

variable {channel next : Channel}

theorem writeView_signalErrorLocked (channel : Channel) :
    channel.signalErrorLocked.writeView = channel.writeView := by
  unfold Channel.signalErrorLocked
  split <;> rfl

theorem signalErrorLocked_signals (channel : Channel) :
    channel.signalErrorLocked.errorSignaled = true := by
  unfold Channel.signalErrorLocked
  split
  case isTrue signaled => exact signaled
  case isFalse => rfl

/-- A step of the I/O thread outside of the write pipeline. -/
structure Channel.ReadsOn (channel next : Channel) : Prop where
  view : next.writeView = channel.writeView
  place : next.io.writePlace = none

theorem writePlace_afterBegin (again : Bool) :
    (Channel.afterBegin again).writePlace = none := by
  cases again <;> rfl

theorem writePlace_afterMessages (failed : Bool) :
    (Channel.afterMessages failed).writePlace = none := by
  cases failed <;> rfl

theorem readsOn_ingest (success : Bool) (bytes : Bytes) :
    channel.ReadsOn (channel.ingest success bytes) := by
  unfold Channel.ingest
  dsimp only
  split
  case isTrue => exact ⟨rfl, rfl⟩
  case isFalse =>
    split
    case isTrue => exact ⟨writeView_signalErrorLocked _, rfl⟩
    case isFalse =>
      refine ⟨?_, rfl⟩
      split
      case isTrue => exact writeView_signalErrorLocked _
      case isFalse => rfl

theorem readsOn_deliver (messages : List Bytes) (failed : Bool) :
    channel.ReadsOn (channel.deliver messages failed) := by
  refine ⟨rfl, ?_⟩
  unfold Channel.deliver
  dsimp only
  split_ifs
  · exact writePlace_afterMessages failed
  · rfl
  · rfl
  · exact writePlace_afterMessages failed

theorem readsOn_proceed : channel.ReadsOn channel.proceed := by
  unfold Channel.proceed
  split_ifs
  · exact ⟨rfl, rfl⟩
  · exact ⟨writeView_signalErrorLocked channel, rfl⟩
  · exact ⟨rfl, rfl⟩

theorem readsOn_takeError : channel.ReadsOn channel.takeError := by
  unfold Channel.takeError
  split <;> exact ⟨rfl, rfl⟩

theorem readsOn_lastCheck : channel.ReadsOn channel.lastCheck := by
  unfold Channel.lastCheck
  split
  case isTrue => exact readsOn_takeError
  case isFalse => exact ⟨rfl, rfl⟩

theorem readsOn_run (ran : channel.run = some next)
    (busy : channel.io ≠ .idle) (place : channel.io.writePlace = none) :
    channel.ReadsOn next := by
  cases Channel.runs_of_run ran with
  | enter here => exact absurd here busy
  | @beginRead again here =>
    refine ⟨rfl, ?_⟩
    unfold Channel.beginRead
    dsimp only
    split
    case isTrue => exact writePlace_afterBegin again
    case isFalse => rfl
  | @issueRead again here =>
    unfold Channel.issueRead
    split
    case isTrue => exact ⟨rfl, writePlace_afterBegin again⟩
    case isFalse => exact ⟨rfl, writePlace_afterBegin again⟩
  | ingest here => exact readsOn_ingest _ _
  | deliver here => exact readsOn_deliver _ _
  | @post messages failed here =>
    exact ⟨rfl, writePlace_afterMessages failed⟩
  | proceed here => exact readsOn_proceed
  | lastCheck here => exact readsOn_lastCheck
  | takeError here => exact readsOn_takeError
  | postError here => exact ⟨rfl, rfl⟩
  | issueNextWrite here => rw [here] at place; cases place
  | write here => rw [here] at place; cases place
  | onWriteComplete here => rw [here] at place; cases place

theorem signaled_run (ran : channel.run = some next)
    (signaled : channel.errorSignaled = true) :
    next.errorSignaled = true := by
  cases Channel.runs_of_run ran with
  | issueRead here =>
    unfold Channel.issueRead
    split <;> exact signaled
  | ingest here =>
    rw [Channel.ingest]
    dsimp only
    rw [if_pos signaled]
    exact signaled
  | proceed here =>
    unfold Channel.proceed
    split_ifs
    · exact signaled
    · exact signalErrorLocked_signals channel
    · exact signaled
  | lastCheck here =>
    rw [Channel.lastCheck, if_pos signaled, Channel.takeError]
    split <;> exact signaled
  | takeError here =>
    unfold Channel.takeError
    split <;> exact signaled
  | issueNextWrite here =>
    rw [Channel.issueNextWrite, if_pos signaled]
    exact signaled
  | onWriteComplete here =>
    rw [Channel.onWriteComplete, if_pos signaled]
    exact signaled
  | _ => exact signaled

/-! ## Drained channels stay drained -/

namespace Drained

theorem place (drained : Drained channel) : channel.io.writePlace = none := by
  have places := drained.places
  rw [Channel.writePlaces, List.append_eq_nil_iff] at places
  exact Option.toList_eq_nil_iff.mp places.2

theorem congr (drained : Drained channel) (signaled : next.errorSignaled = true)
    (places : next.writePlaces.Perm channel.writePlaces)
    (same : (next.sent, next.written) = (channel.sent, channel.written)) :
    Drained next := by
  obtain ⟨sent, written⟩ := Prod.mk.inj same
  rw [drained.places] at places
  refine ⟨signaled, places.eq_nil, ?_⟩
  rw [sent, written]
  exact drained.written

end Drained

theorem Channel.ReadsOn.places (reads : channel.ReadsOn next)
    (place : channel.io.writePlace = none) :
    next.writePlaces = channel.writePlaces := by
  have view := reads.view
  simp only [Channel.writeView, Prod.mk.injEq] at view
  rw [Channel.writePlaces, Channel.writePlaces, view.2.1, view.2.2.1,
    view.2.2.2, reads.place, place]

theorem Channel.ReadsOn.same (reads : channel.ReadsOn next) :
    (next.sent, next.written) = (channel.sent, channel.written) := by
  have view := reads.view
  simp only [Channel.writeView, Prod.mk.injEq] at view
  rw [view.1.1, view.1.2.2.2.2.2]

theorem entered_of_run (ran : channel.run = some next)
    (idle : channel.io = .idle) :
    ∃ task tasks, channel.tasks = task :: tasks ∧
      next = { channel with tasks, io := Channel.enter task } := by
  unfold Channel.run at ran
  rw [idle] at ran
  dsimp only at ran
  split at ran
  case h_1 => cases ran
  case h_2 task tasks first => cases ran; exact ⟨task, tasks, first, rfl⟩

namespace Drained

theorem run (drained : Drained channel) (ran : channel.run = some next) :
    Drained next := by
  have signaled := signaled_run ran drained.signaled
  by_cases idle : channel.io = .idle
  · obtain ⟨task, tasks, first, rfl⟩ := entered_of_run ran idle
    exact drained.congr signaled (writePlaces_enter idle first) rfl
  · have reads := readsOn_run ran idle drained.place
    exact drained.congr signaled (.of_eq (reads.places drained.place))
      reads.same

theorem step {action : Action} (drained : Drained channel)
    (taken : step channel action = some next) : Drained next := by
  have places := drained.places
  simp only [Channel.writePlaces, List.append_eq_nil_iff,
    List.replicate_eq_nil_iff, List.map_eq_nil_iff] at places
  cases action with
  | startReading =>
    cases taken
    rw [Channel.startReading, drained.signaled, Bool.or_true, if_pos rfl]
    exact drained
  | postBegin =>
    obtain ⟨-, ⟨⟩⟩ := Option.ite_none_left_eq_some.mp taken
    exact drained.congr drained.signaled
      (.of_eq (writePlaces_post channel rfl)) rfl
  | send payload =>
    cases taken
    rw [Channel.send, drained.signaled, Bool.true_or, if_pos rfl]
    exact drained
  | postIssue =>
    obtain ⟨some, -⟩ := Option.ite_none_left_eq_some.mp taken
    exact absurd places.1.1.1 some
  | close =>
    cases taken
    rw [Channel.close, if_pos drained.signaled]
    exact drained
  | postReport =>
    obtain ⟨-, ⟨⟩⟩ := Option.ite_none_left_eq_some.mp taken
    exact drained.congr drained.signaled (.refl _) rfl
  | readDone success bytes =>
    obtain ⟨-, ⟨⟩⟩ := Option.ite_none_left_eq_some.mp taken
    exact drained.congr drained.signaled
      (.of_eq (writePlaces_post channel rfl)) rfl
  | writeDone success count =>
    rw [Ipc.step, places.1.2] at taken
    cases taken
  | io => exact drained.run taken

end Drained

/-! ## Open channels drain -/

/-- A channel that is not in its error state, closing or not. -/
structure Open (channel : Channel) : Prop where
  going : channel.errorSignaled = false
  sending : Sending channel
  posted : .error ∉ channel.posted
  reports : channel.toReport = 0
  calm : channel.io.failed = false
  unposted : channel.io ≠ .postError

theorem Sending.drained_of_empty (sending : Sending channel)
    (empty : channel.pendingWrites = []) :
    channel.writePlaces = [] ∧
      channel.written = (channel.sent.map frame).flatten := by
  cases sending with
  | idle places _ _ _ written => exact ⟨places, written⟩
  | busy _ front rest _ _ _ _ queue =>
    exact absurd (empty.symm.trans queue) nofun

namespace Open

/-- A step that reports nothing. -/
structure Quiet (channel next : Channel) : Prop where
  signals : (next.errorSignaled, next.posted, next.toReport) =
    (channel.errorSignaled, channel.posted, channel.toReport)
  calm : next.io.failed = false
  unposted : next.io ≠ .postError

theorem of_quiet (opened : Open channel) (sending : Sending next)
    (quiet : Quiet channel next) : Open next := by
  have signals := quiet.signals
  simp only [Prod.mk.injEq] at signals
  obtain ⟨signaled, posted, reports⟩ := signals
  refine ⟨signaled.trans opened.going, sending, ?_,
    reports.trans opened.reports, quiet.calm, quiet.unposted⟩
  rw [posted]
  exact opened.posted

/-- The I/O thread is outside of the write pipeline and stays there. -/
theorem readsOn (opened : Open channel) (reads : channel.ReadsOn next)
    (place : channel.io.writePlace = none) (quiet : Quiet channel next) :
    Open next := by
  obtain ⟨same, others⟩ := Prod.mk.inj reads.view
  exact opened.of_quiet (opened.sending.aside same others
    (reads.place.trans place.symm)) quiet

theorem drained (opened : Open channel) (reads : channel.ReadsOn next)
    (place : channel.io.writePlace = none)
    (empty : channel.pendingWrites = [])
    (signaled : next.errorSignaled = true) : Drained next := by
  obtain ⟨places, written⟩ := opened.sending.drained_of_empty empty
  obtain ⟨sent, same⟩ := Prod.mk.inj reads.same
  refine ⟨signaled, (reads.places place).trans places, ?_⟩
  rw [sent, same]
  exact written

variable {success failed : Bool} {count : Nat} {messages : List Bytes}

section

variable (opened : Open channel)

include opened

theorem ingest {bytes : Bytes} (here : channel.io = .ingest success bytes)
    (uncut : ¬CutsOff channel .io) :
    Open (channel.ingest success bytes) ∨
      Drained (channel.ingest success bytes) := by
  have reads : channel.ReadsOn (channel.ingest success bytes) :=
    readsOn_ingest success bytes
  have place : channel.io.writePlace = none := by
    rw [here]
    rfl
  have empty : channel.io.ends channel → channel.pendingWrites = [] :=
    fun ends => not_not.mp fun some => uncut ⟨some, ends⟩
  rw [here] at empty
  dsimp only [Control.ends] at empty
  unfold Channel.ingest at reads ⊢
  dsimp only at reads ⊢
  have going : ¬channel.errorSignaled = true := by
    rw [opened.going]
    nofun
  rw [if_neg going] at reads ⊢
  split
  case isTrue nothing =>
    rw [if_pos nothing] at reads
    refine .inr (opened.drained reads place (empty ?_)
      (signalErrorLocked_signals _))
    rcases Bool.or_eq_true_iff.mp nothing with failed | none
    · exact .inl (by simpa using failed)
    · exact .inr (.inl (by simpa using none))
  case isFalse data =>
    rw [if_neg data] at reads
    generalize Receiver.tryParseFrames _ = parsed at empty reads ⊢
    obtain ⟨messages, receiver, corrupt⟩ := parsed
    cases corrupt with
    | true =>
      exact .inr (opened.drained reads place
        (empty (.inr (.inr rfl))) (signalErrorLocked_signals _))
    | false => exact .inl (opened.readsOn reads place ⟨rfl, rfl, nofun⟩)

theorem proceed (here : channel.io = .proceed) (uncut : ¬CutsOff channel .io) :
    Open channel.proceed ∨ Drained channel.proceed := by
  have reads : channel.ReadsOn channel.proceed := readsOn_proceed
  have place : channel.io.writePlace = none := by
    rw [here]
    rfl
  unfold Channel.proceed at reads ⊢
  split
  case isTrue goes =>
    rw [if_pos goes] at reads
    exact .inl (opened.readsOn reads place ⟨rfl, rfl, nofun⟩)
  case isFalse stops =>
    rw [if_neg stops] at reads
    -- The channel goes, so it stops because it closes.
    have closing : channel.closing = true := by
      simpa [opened.going] using stops
    have ends : (channel.closing && !channel.errorSignaled) = true := by
      rw [closing, opened.going]
      rfl
    rw [if_pos ends] at reads ⊢
    refine .inr (opened.drained reads place ?_
      (signalErrorLocked_signals channel))
    refine not_not.mp fun some => uncut ⟨some, ?_⟩
    rw [here]
    exact closing

/-- A frame is to be written when `IssueNextWrite` runs. -/
theorem issueNextWrite (here : channel.io = .issueNextWrite) :
    Open channel.issueNextWrite := by
  refine opened.of_quiet
    (opened.sending.issueNextWrite here opened.going) ?_
  have member : .issue ∈ channel.writePlaces := by
    simp [Channel.writePlaces, here, Control.writePlace]
  obtain ⟨-, front, rest, -, -, -, queue, -⟩ :=
    opened.sending.at_place member
  unfold Channel.issueNextWrite
  rw [if_neg (by simp [opened.going])]
  split
  case h_1 =>
    refine ⟨rfl, rfl, ?_⟩
    simp
  case h_2 =>
    rw [queue]
    refine ⟨rfl, rfl, ?_⟩
    simp

theorem onWriteComplete (here : channel.io = .writeComplete success count) :
    Open (channel.onWriteComplete success count) ∨
      Drained (channel.onWriteComplete success count) := by
  rcases opened.sending.onWriteComplete here opened.going with
    ⟨sending, going⟩ | ⟨-, drained⟩
  · refine .inl (opened.of_quiet sending ?_)
    unfold Channel.onWriteComplete at going ⊢
    rw [if_neg (by simp [opened.going])] at going ⊢
    dsimp only at going ⊢
    -- The error state is entered only by what this case excludes.
    have signals : ∀ other : Channel,
        other.signalErrorLocked.errorSignaled ≠ false := by
      intro other
      rw [signalErrorLocked_signals]
      nofun
    split_ifs at going ⊢
    · exact absurd going (signals _)
    · exact absurd going (signals _)
    · exact absurd going (signals _)
    · exact ⟨rfl, rfl, nofun⟩
    · exact ⟨rfl, rfl, nofun⟩
    · exact ⟨rfl, rfl, nofun⟩
  · exact .inr drained

theorem deliver (here : channel.io = .deliver messages failed) :
    Open (channel.deliver messages failed) := by
  have calm := opened.calm
  rw [here] at calm
  obtain rfl : failed = false := calm
  refine opened.readsOn (readsOn_deliver messages false)
    (by rw [here]; rfl) ?_
  unfold Channel.deliver
  split_ifs <;> exact ⟨rfl, rfl, nofun⟩

theorem post (here : channel.io = .post messages failed) :
    Open (channel.post messages failed) := by
  have calm := opened.calm
  rw [here] at calm
  obtain rfl : failed = false := calm
  refine ⟨opened.going, ?_, ?_, opened.reports, rfl, nofun⟩
  · exact opened.sending.aside rfl rfl (by rw [here]; rfl)
  · intro member
    rcases List.mem_append.mp member with before | message
    · exact opened.posted before
    · obtain ⟨payload, -, same⟩ := List.mem_map.mp message
      cases same

theorem run (uncut : ¬CutsOff channel .io) (ran : channel.run = some next) :
    Open next ∨ Drained next := by
  have read : channel.io ≠ .idle → channel.io.writePlace = none →
      channel.ReadsOn next := readsOn_run ran
  cases Channel.runs_of_run ran with
  | @enter task tasks here first =>
    refine .inl ⟨opened.going, ?_, opened.posted, opened.reports, ?_, ?_⟩
    · exact opened.sending.congr rfl (writePlaces_enter here first)
    · cases task <;> rfl
    · cases task <;> nofun
  | @beginRead again here =>
    refine .inl (opened.readsOn (read (by rw [here]; nofun)
      (by rw [here]; rfl)) (by rw [here]; rfl) ?_)
    unfold Channel.beginRead Channel.afterBegin
    split_ifs <;> exact ⟨rfl, rfl, nofun⟩
  | @issueRead again here =>
    refine .inl (opened.readsOn (read (by rw [here]; nofun)
      (by rw [here]; rfl)) (by rw [here]; rfl) ?_)
    unfold Channel.issueRead Channel.afterBegin
    split_ifs <;> exact ⟨rfl, rfl, nofun⟩
  | ingest here => exact opened.ingest here uncut
  | deliver here => exact .inl (opened.deliver here)
  | post here => exact .inl (opened.post here)
  | proceed here => exact opened.proceed here uncut
  | lastCheck here =>
    refine .inl (opened.readsOn (read (by rw [here]; nofun)
      (by rw [here]; rfl)) (by rw [here]; rfl) ?_)
    rw [Channel.lastCheck, if_neg (by simp [opened.going])]
    exact ⟨rfl, rfl, nofun⟩
  | takeError here =>
    have calm := opened.calm
    rw [here] at calm
    cases calm
  | postError here => exact absurd here opened.unposted
  | issueNextWrite here => exact .inl (opened.issueNextWrite here)
  | write here =>
    exact .inl ⟨opened.going, opened.sending.write here, opened.posted,
      opened.reports, rfl, nofun⟩
  | onWriteComplete here => exact opened.onWriteComplete here

/-! ### Other threads and the streams -/

theorem close : Open channel.close ∨ Drained channel.close := by
  rw [Channel.close, if_neg (by simp [opened.going])]
  split
  case isTrue nothing =>
    obtain ⟨-, empty⟩ := Bool.and_eq_true_iff.mp nothing
    obtain ⟨places, written⟩ :=
      opened.sending.drained_of_empty (List.isEmpty_iff.mp empty)
    exact .inr ⟨rfl, places, written⟩
  case isFalse =>
    exact .inl { opened with sending := opened.sending.aside rfl rfl rfl }

theorem send (payload : Bytes) : Open (channel.send payload) := by
  refine opened.of_quiet (opened.sending.send payload) ?_
  unfold Channel.send
  dsimp only
  split_ifs <;> exact ⟨rfl, opened.calm, opened.unposted⟩

theorem writeDone (fine : ¬Fails channel (.writeDone success count))
    (taken : Ipc.step channel (.writeDone success count) = some next) :
    Open next := by
  obtain ⟨succeeds, positive⟩ := not_or.mp fine
  obtain rfl : success = true := by simpa using succeeds
  rw [Ipc.step] at taken
  split at taken
  case h_1 => cases taken
  case h_2 slice writes outstanding =>
    obtain ⟨atMost, ⟨⟩⟩ := Option.ite_none_left_eq_some.mp taken
    refine opened.of_quiet (opened.sending.writeDone outstanding ?_ ?_)
      ⟨rfl, opened.calm, opened.unposted⟩
    · exact Nat.one_le_iff_ne_zero.mpr positive
    · exact Nat.not_lt.mp atMost

theorem step {action : Action} (fine : ¬Fails channel action)
    (uncut : ¬CutsOff channel action)
    (taken : step channel action = some next) :
    Open next ∨ Drained next := by
  have quiet : ∀ {other : Channel}, (other.errorSignaled, other.posted,
      other.toReport, other.io) = (channel.errorSignaled, channel.posted,
        channel.toReport, channel.io) → Quiet channel other := by
    intro other same
    simp only [Prod.mk.injEq] at same
    obtain ⟨signaled, posted, reports, io⟩ := same
    refine ⟨?_, io ▸ opened.calm, io ▸ opened.unposted⟩
    rw [signaled, posted, reports]
  cases action with
  | startReading =>
    cases taken
    unfold Channel.startReading
    split
    case isTrue => exact .inl opened
    case isFalse =>
      exact .inl (opened.of_quiet (opened.sending.aside rfl rfl rfl)
        (quiet rfl))
  | postBegin =>
    obtain ⟨-, ⟨⟩⟩ := Option.ite_none_left_eq_some.mp taken
    exact .inl (opened.of_quiet (opened.sending.congr rfl
      (.of_eq (writePlaces_post channel rfl))) (quiet rfl))
  | send payload => exact .inl (Option.some.inj taken ▸ opened.send payload)
  | postIssue =>
    obtain ⟨some, ⟨⟩⟩ := Option.ite_none_left_eq_some.mp taken
    exact .inl (opened.of_quiet (opened.sending.postIssue some) (quiet rfl))
  | close => exact Option.some.inj taken ▸ opened.close
  | postReport =>
    obtain ⟨some, -⟩ := Option.ite_none_left_eq_some.mp taken
    exact absurd opened.reports some
  | readDone success bytes =>
    obtain ⟨-, ⟨⟩⟩ := Option.ite_none_left_eq_some.mp taken
    exact .inl (opened.of_quiet (opened.sending.congr rfl
      (.of_eq (writePlaces_post channel rfl))) (quiet rfl))
  | writeDone success count => exact .inl (opened.writeDone fine taken)
  | io => exact opened.run uncut taken

end

theorem initially : Open {} :=
  ⟨rfl, .initially, List.not_mem_nil, rfl, rfl, nofun⟩

end Open

/-- In a run in which no read or write fails and no read ends the channel
while there are frames to write, every message that `Send` has accepted is
written when the error callback is posted. -/
theorem close_drains {actions : List Action}
    (performed : perform step {} actions = some channel)
    (fine : Avoids step Fails {} actions)
    (uncut : Avoids step CutsOff {} actions)
    (reported : .error ∈ channel.posted) :
    channel.written = (channel.sent.map frame).flatten := by
  have kept : ∀ {channel : Channel} {action : Action} {next : Channel},
      Open channel ∨ Drained channel →
      ¬(Fails channel action ∨ CutsOff channel action) →
      step channel action = some next → Open next ∨ Drained next := by
    rintro channel action next (opened | drained) good taken
    · obtain ⟨fine, uncut⟩ := not_or.mp good
      exact opened.step fine uncut taken
    · exact .inr (drained.step taken)
  rcases perform_avoiding kept performed (fine.either uncut)
    (.inl .initially) with opened | drained
  · exact absurd reported opened.posted
  · exact drained.written

/-- A message is written in two parts after `Close`, with a read
outstanding. -/
def drainingCalls : List Action :=
  [.startReading, .postBegin, .io, .io, .io, .send [104, 105], .close,
    .postIssue, .io, .io, .io, .writeDone true 4, .io, .io, .io, .io,
    .writeDone true 6, .io, .io, .io, .io]

theorem close_drains_twoParts :
    ∃ channel, perform step {} drainingCalls = some channel ∧
      Avoids step Fails {} drainingCalls ∧
      Avoids step CutsOff {} drainingCalls ∧
      .error ∈ channel.posted ∧ channel.sent = [[104, 105]] ∧
      channel.written = (channel.sent.map frame).flatten := by
  have seen : (perform step {} drainingCalls).map
      (fun channel => (channel.posted, channel.sent)) =
        some ([.error], [[104, 105]]) := by
    decide +kernel
  obtain ⟨channel, performed, same⟩ := Option.map_eq_some_iff.mp seen
  obtain ⟨posted, sent⟩ := Prod.mk.inj same
  have fine : Avoids step Fails {} drainingCalls := by decide +kernel
  have uncut : Avoids step CutsOff {} drainingCalls := by decide +kernel
  have reported : .error ∈ channel.posted := by
    rw [posted]
    exact List.mem_cons_self
  exact ⟨channel, performed, fine, uncut, reported, sent,
    close_drains performed fine uncut reported⟩

/-- A message of the other side arrives between `Close` and the write. -/
def interruptedCalls : List Action :=
  [.startReading, .postBegin, .io, .io, .io, .send [104, 105], .close,
    .readDone true (frame [1]), .io, .io, .io, .io, .io, .io, .io]

theorem close_cuts_off :
    ∃ channel, perform step {} interruptedCalls = some channel ∧
      Avoids step Fails {} interruptedCalls ∧
      .error ∈ channel.posted ∧
      channel.written ≠ (channel.sent.map frame).flatten := by
  have seen : (perform step {} interruptedCalls).map
      (fun channel => (channel.posted, channel.sent, channel.written)) =
        some ([.message [1], .error], [[104, 105]], []) := by
    decide +kernel
  obtain ⟨channel, performed, same⟩ := Option.map_eq_some_iff.mp seen
  simp only [Prod.mk.injEq] at same
  obtain ⟨posted, sent, written⟩ := same
  refine ⟨channel, performed, by decide +kernel, ?_, ?_⟩
  · rw [posted]
    decide
  · rw [written, sent]
    decide

end Libnei.Ipc
