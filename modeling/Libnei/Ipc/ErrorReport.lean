import Libnei.Ipc.Parsing

/-!
# The report of an error

The error callback of a started channel is in one place at a time: in the
channel, with a thread that is about to post it, or posted.  A channel in its
error state has given it away as soon as the I/O thread is between two tasks.
The messages of the complete frames are posted before.

A read that completes a message and brings a corrupt header behind it loses
both, and so does a `Close` between the parsing of a message and its posting
lose the message.
-/

namespace Libnei.Ipc

open Lib

/-! ## Who reads -/

namespace Task

def isReading : Task → Bool
  | .beginRead | .onDataReceived .. => true
  | .issueNextWrite | .onWriteComplete .. => false

end Task

namespace Control

def isReading : Control → Bool
  | .beginRead _ | .issueRead _ | .ingest .. | .deliver .. | .post ..
  | .proceed | .lastCheck => true
  | .idle | .takeError | .postError | .issueNextWrite | .write _
  | .writeComplete .. => false

/-- The messages that were parsed and not posted. -/
def held : Control → List Bytes
  | .deliver messages _ | .post messages _ => messages
  | .idle | .beginRead _ | .issueRead _ | .ingest .. | .proceed | .lastCheck
  | .takeError | .postError | .issueNextWrite | .write _
  | .writeComplete .. => []

/-- The bytes of a read that is to be taken in. -/
def arrived : Control → Option Bytes
  | .ingest true bytes => some bytes
  | _ => none

/-- The I/O thread has found an error. -/
def failed : Control → Bool
  | .deliver _ failed | .post _ failed => failed
  | .takeError => true
  | .idle | .beginRead _ | .issueRead _ | .ingest .. | .proceed | .lastCheck
  | .postError | .issueNextWrite | .write _ | .writeComplete .. => false

/-- The I/O thread is about to take the error callback. -/
def takes : Control → Bool
  | .deliver [] true | .takeError | .lastCheck => true
  | _ => false

end Control

/-! ## The invariant -/

/-- The places of the error callback outside of the channel. -/
def Channel.reporting (channel : Channel) : Nat :=
  channel.toReport + if channel.io = .postError then 1 else 0

/-- What the report of an error depends on. -/
def Channel.view (channel : Channel) :=
  (channel.receiver, channel.ingested, channel.io, channel.posted,
    channel.onError, channel.started, channel.toReport,
    channel.errorSignaled, channel.onMessage, channel.reads,
    channel.toBegin, channel.tasks)

structure Reports (channel : Channel) (delivered : List Bytes)
    (errors : Nat) : Prop where
  unread : Unread channel.receiver (framing.readFrames channel.ingested).2
  complete : (framing.readFrames channel.ingested).1 =
    delivered ++ channel.io.held
  posted : channel.posted =
    delivered.map .message ++ List.replicate errors .error
  callback : errors + channel.reporting +
    (if channel.onError then 1 else 0) = if channel.started then 1 else 0
  signaled : errors + channel.reporting ≠ 0 → channel.errorSignaled = true
  silent : channel.errorSignaled = true → channel.io.held = []
  onMessage : channel.started = true → channel.errorSignaled = false →
    channel.onMessage = true
  failed : channel.io.failed = true → channel.errorSignaled = true
  takes : channel.errorSignaled = true → channel.onError = true →
    channel.io.takes = true
  reads : channel.reads ≠ 0 → channel.started = true
  begins : channel.toBegin ≠ 0 → channel.started = true
  tasks : ∀ task ∈ channel.tasks, task.isReading = true → channel.started = true
  reading : channel.io.isReading = true → channel.started = true

namespace Reports

variable {channel : Channel} {delivered : List Bytes} {errors : Nat}

theorem initially : Reports {} [] 0 where
  unread := by
    rw [show framing.readFrames _ = _ from readFrames_nil]
    exact unread_initially
  complete := by
    rw [show framing.readFrames _ = _ from readFrames_nil]
    rfl
  posted := rfl
  callback := rfl
  signaled := nofun
  silent := nofun
  onMessage := nofun
  failed := nofun
  takes := nofun
  reads := nofun
  begins := nofun
  tasks := nofun
  reading := nofun

theorem congr {other : Channel} (reports : Reports channel delivered errors)
    (same : other.view = channel.view) : Reports other delivered errors := by
  simp only [Channel.view, Prod.mk.injEq] at same
  obtain ⟨receiver, ingested, io, posted, onError, started, toReport,
    errorSignaled, onMessage, reads, toBegin, tasks⟩ := same
  have reporting : other.reporting = channel.reporting := by
    rw [Channel.reporting, Channel.reporting, toReport, io]
  constructor
  · rw [receiver, ingested]
    exact reports.unread
  · rw [ingested, io]
    exact reports.complete
  · rw [posted]
    exact reports.posted
  · rw [reporting, onError, started]
    exact reports.callback
  · rw [reporting, errorSignaled]
    exact reports.signaled
  · rw [errorSignaled, io]
    exact reports.silent
  · rw [started, errorSignaled, onMessage]
    exact reports.onMessage
  · rw [io, errorSignaled]
    exact reports.failed
  · rw [errorSignaled, onError, io]
    exact reports.takes
  · rw [reads, started]
    exact reports.reads
  · rw [toBegin, started]
    exact reports.begins
  · rw [tasks, started]
    exact reports.tasks
  · rw [io, started]
    exact reports.reading

variable {control : Control} {again failed success : Bool}
  {messages : List Bytes} {task : Task}

variable (reports : Reports channel delivered errors)

include reports

theorem moves (leaves : channel.io ≠ .postError) (enters : control ≠ .postError)
    (held : control.held = channel.io.held)
    (failed : control.failed = true → channel.errorSignaled = true)
    (takes : channel.errorSignaled = true → channel.onError = true →
      control.takes = true)
    (reading : control.isReading = true → channel.started = true) :
    Reports { channel with io := control } delivered errors := by
  have same : Channel.reporting { channel with io := control } =
      channel.reporting := by
    simp [Channel.reporting, leaves, enters]
  exact { reports with
    complete := held ▸ reports.complete
    callback := same ▸ reports.callback
    signaled := same ▸ reports.signaled
    silent := held ▸ reports.silent
    failed, takes, reading }

theorem signals (leaves : channel.io ≠ .postError)
    (enters : control ≠ .postError) (none : channel.io.held = [])
    (held : control.held = []) (takes : control.takes = true)
    (reading : control.isReading = true → channel.started = true) :
    Reports { channel.signalErrorLocked with io := control } delivered
      errors := by
  unfold Channel.signalErrorLocked
  split
  case isTrue errored =>
    exact reports.moves leaves enters (held.trans none.symm)
      (fun _ => errored) (fun _ _ => takes) reading
  case isFalse =>
    have same : Channel.reporting { channel with
        errorSignaled := true, onMessage := false, io := control } =
        channel.reporting := by
      simp [Channel.reporting, leaves, enters]
    exact { reports with
      complete := (none.trans held.symm) ▸ reports.complete
      callback := same ▸ reports.callback
      signaled := fun _ => rfl
      silent := fun _ => held
      onMessage := nofun
      failed := fun _ => rfl
      takes := fun _ _ => takes
      reading }

/-! ## The I/O thread -/

theorem afterBegin (here : channel.io.isReading = true ∧ channel.io.held = [] ∧
      channel.io.takes = false) (again : Bool) :
    Reports { channel with io := Channel.afterBegin again } delivered
      errors := by
  obtain ⟨reading, none, others⟩ := here
  unfold Channel.afterBegin
  refine reports.moves ?_ ?_ ?_ ?_ ?_ fun _ => reports.reading reading
  · intro there
    rw [there] at reading
    cases reading
  · split_ifs <;> nofun
  · rw [none]
    split_ifs <;> rfl
  · split_ifs <;> nofun
  · intro errored callback
    exact nomatch others.symm.trans (reports.takes errored callback)

theorem beginRead (here : channel.io = .beginRead again) :
    Reports (channel.beginRead again) delivered errors := by
  unfold Channel.beginRead
  split
  case isTrue =>
    exact reports.afterBegin (by rw [here]; exact ⟨rfl, rfl, rfl⟩) again
  case isFalse going =>
    refine reports.moves ?_ nofun ?_ nofun ?_
      fun _ => reports.reading (by rw [here]; rfl)
    · simp [here]
    · rw [here]
      rfl
    · intro errored
      simp [errored] at going

theorem issueRead (here : channel.io = .issueRead again) :
    Reports (channel.issueRead again) delivered errors := by
  have moved := reports.afterBegin (by rw [here]; exact ⟨rfl, rfl, rfl⟩) again
  unfold Channel.issueRead
  split
  · exact moved
  · exact { moved with
      reads := fun _ => reports.reading (by rw [here]; rfl) }

theorem deliver (here : channel.io = .deliver messages failed) :
    Reports (channel.deliver messages failed) delivered errors := by
  have started := reports.reading (by rw [here]; rfl)
  have silent := reports.silent
  have erred := reports.failed
  have taken := reports.takes
  rw [here] at silent erred taken
  unfold Channel.deliver
  cases messages with
  | nil =>
    refine reports.moves (by simp [here]) ?_ ?_ ?_ ?_ fun _ => started
    · cases failed <;> nofun
    · rw [here]
      cases failed <;> rfl
    · cases failed
      · nofun
      · exact fun _ => erred rfl
    · cases failed
      · intro errored callback
        exact nomatch taken errored callback
      · exact fun _ _ => rfl
  | cons message messages =>
    have going : channel.errorSignaled = false := by
      rw [← Bool.not_eq_true]
      intro errored
      exact nomatch silent errored
    rw [List.isEmpty_cons, if_neg nofun, if_neg (by simp [going]),
      if_pos (reports.onMessage started going)]
    refine reports.moves (by simp [here]) nofun ?_ ?_ ?_ fun _ => started
    · rw [here]
      rfl
    · exact erred
    · intro errored
      exact nomatch going.symm.trans errored

theorem post (here : channel.io = .post messages failed) :
    Reports (channel.post messages failed) (delivered ++ messages)
      errors := by
  have started := reports.reading (by rw [here]; rfl)
  have silent := reports.silent
  have erred := reports.failed
  have taken := reports.takes
  have complete := reports.complete
  rw [here] at silent erred taken complete
  have held : (Channel.afterMessages failed).held = [] := by
    cases failed <;> rfl
  have same : (channel.post messages failed).reporting = channel.reporting := by
    cases failed <;> simp [Channel.reporting, Channel.post, here,
      Channel.afterMessages]
  refine { reports with
    complete := ?_, posted := ?_, callback := same ▸ reports.callback
    signaled := same ▸ reports.signaled, silent := fun _ => held
    failed := ?_, takes := ?_, reading := fun _ => started }
  · refine complete.trans ?_
    rw [Channel.post, held, List.append_nil]
    rfl
  · rw [Channel.post, reports.posted]
    cases messages with
    | nil => simp
    | cons message messages =>
      have none : errors = 0 := by
        by_contra some
        have errored := reports.signaled fun none => some (by omega)
        exact nomatch silent errored
      simp [none]
  · intro fails
    refine erred ?_
    cases failed
    · cases fails
    · rfl
  · intro errored callback
    exact nomatch taken errored callback

theorem proceed (here : channel.io = .proceed) :
    Reports channel.proceed delivered errors := by
  have started := reports.reading (by rw [here]; rfl)
  unfold Channel.proceed
  split
  case isTrue going =>
    refine reports.moves (by simp [here]) nofun ?_ nofun ?_
      fun _ => started
    · rw [here]
      rfl
    · intro errored
      simp [errored] at going
  case isFalse =>
    split
    case isTrue =>
      exact reports.signals (by simp [here]) nofun (by rw [here]; rfl)
        rfl rfl fun _ => started
    case isFalse =>
      refine reports.moves (by simp [here]) nofun ?_ nofun
        (fun _ _ => rfl) fun _ => started
      rw [here]
      rfl

theorem takeError (here : channel.io = .takeError ∨ channel.io = .lastCheck)
    (errored : channel.errorSignaled = true) :
    Reports channel.takeError delivered errors := by
  have none : channel.io.held = [] := reports.silent errored
  have leaves : channel.io ≠ .postError := by
    rcases here with here | here <;> simp [here]
  unfold Channel.takeError
  split
  case isTrue there =>
    have callback := reports.callback
    rw [if_pos there] at callback
    have same : Channel.reporting { channel with
        onError := false, io := .postError } = channel.reporting + 1 := by
      simp [Channel.reporting, leaves]
    refine { reports with
      complete := reports.complete.trans (by rw [none]; rfl)
      callback := ?_
      signaled := fun _ => errored, silent := fun _ => rfl
      failed := nofun, takes := nofun, reading := nofun }
    rw [same]
    simpa [Nat.add_assoc] using callback
  case isFalse gone =>
    refine reports.moves leaves nofun none.symm nofun ?_ nofun
    intro _ there
    exact absurd there gone

theorem lastCheck (here : channel.io = .lastCheck) :
    Reports channel.lastCheck delivered errors := by
  unfold Channel.lastCheck
  split
  case isTrue errored => exact reports.takeError (.inr here) errored
  case isFalse going =>
    refine reports.moves (by simp [here]) nofun ?_ nofun
      (fun errored => absurd errored going) nofun
    rw [here]
    rfl

theorem postError (here : channel.io = .postError) :
    Reports channel.postError delivered (errors + 1) := by
  have same : channel.reporting = channel.postError.reporting + 1 := by
    simp [Channel.reporting, Channel.postError, here]
  have errored : channel.errorSignaled = true :=
    reports.signaled (by rw [same]; omega)
  have callback := reports.callback
  rw [same] at callback
  refine { reports with
    complete := ?_, posted := ?_, callback := ?_
    signaled := fun _ => errored, silent := fun _ => rfl
    failed := nofun, takes := ?_, reading := nofun }
  · refine reports.complete.trans ?_
    rw [here]
    rfl
  · rw [Channel.postError, reports.posted, List.append_assoc,
      ← List.replicate_succ']
  · show errors + 1 + channel.postError.reporting +
      (if channel.onError then 1 else 0) = if channel.started then 1 else 0
    omega
  · intro errored there
    have taken := reports.takes errored there
    rw [here] at taken
    cases taken

theorem ingest {bytes : Bytes} (here : channel.io = .ingest success bytes)
    (apart : success = true →
      framing.corrupt (framing.readFrames (channel.ingested ++ bytes)).2 →
        (framing.readFrames (channel.ingested ++ bytes)).1 =
          (framing.readFrames channel.ingested).1) :
    Reports (channel.ingest success bytes) delivered errors := by
  have started := reports.reading (by rw [here]; rfl)
  have taken := reports.takes
  have complete := reports.complete
  rw [here] at taken complete
  have quiet : Reports { channel with readInFlight := false } delivered
      errors :=
    reports.congr rfl
  unfold Channel.ingest
  dsimp only
  split
  case isTrue errored =>
    refine quiet.moves (by simp [here]) nofun ?_ nofun ?_ nofun
    · dsimp only
      rw [here]
      rfl
    · intro _ there
      exact nomatch taken errored there
  case isFalse going =>
    split
    case isTrue =>
      exact quiet.signals (by simp [here]) nofun
        (by dsimp only; rw [here]; rfl) rfl rfl fun _ => started
    case isFalse ended =>
      have spec := tryParseFrames_spec (reports.unread.append bytes)
      have whole := framing.readFrames_append channel.ingested bytes
      generalize Receiver.tryParseFrames _ = parsed at spec ⊢
      obtain ⟨messages, receiver, failed⟩ := parsed
      obtain ⟨rfl, unread, corrupt⟩ := spec
      simp only at unread corrupt
      cases failed with
      | true =>
        have ok : success = true := by
          cases success
          · simp at ended
          · rfl
        have none := apart ok (by rw [whole]; exact corrupt.symm)
        rw [whole] at none
        simp only [List.append_right_eq_self] at none
        simp only [if_true]
        rw [none]
        have taken : Reports { channel with
            readInFlight := false, receiver
            ingested := channel.ingested ++ bytes } delivered
            errors := by
          refine { quiet with unread := ?_, complete := ?_ }
          · rw [whole]
            exact unread
          · rw [whole, none, List.append_nil]
            exact quiet.complete
        exact taken.signals (by simp [here]) nofun
          (by dsimp only; rw [here]; rfl) rfl rfl fun _ => started
      | false =>
        simp only [Bool.false_eq_true, if_false]
        have same : Channel.reporting { channel with
            readInFlight := false
            receiver := receiver.compactReceiveBuffer
            io := .deliver (framing.readFrames
              ((framing.readFrames channel.ingested).2 ++ bytes)).1
                false
            ingested := channel.ingested ++ bytes } =
            channel.reporting := by
          simp [Channel.reporting, here]
        refine { reports with
          unread := ?_, complete := ?_
          callback := same ▸ reports.callback
          signaled := same ▸ reports.signaled
          silent := fun errored => absurd errored going
          failed := nofun
          takes := fun errored => absurd errored going
          reading := fun _ => started }
        · rw [whole]
          exact unread.compact
        · rw [whole, show _ = delivered from complete.trans (List.append_nil _)]
          rfl

/-! ## Writing -/

theorem issueNextWrite (here : channel.io = .issueNextWrite) :
    Reports channel.issueNextWrite delivered errors := by
  have taken := reports.takes
  rw [here] at taken
  have none : channel.io.held = [] := by
    rw [here]
    rfl
  have leaves : channel.io ≠ .postError := by simp [here]
  unfold Channel.issueNextWrite
  split
  case isTrue =>
    refine reports.moves leaves nofun none.symm nofun ?_ nofun
    intro errored there
    exact nomatch taken errored there
  case isFalse going =>
    split
    case h_1 =>
      exact reports.moves leaves nofun none.symm nofun
        (fun errored => absurd errored going) nofun
    case h_2 =>
      split
      case h_1 =>
        have idle : Reports { channel with writeInFlight := false }
            delivered errors := reports.congr rfl
        dsimp only
        split
        case isTrue =>
          exact idle.signals leaves nofun none rfl rfl nofun
        case isFalse =>
          exact idle.moves leaves nofun none.symm nofun
            (fun errored => absurd errored going) nofun
      case h_2 front _ _ =>
        have moved : Reports { channel with io := .write front }
            delivered errors :=
          reports.moves leaves nofun none.symm nofun
            (fun errored => absurd errored going) nofun
        exact moved.congr rfl

theorem write {slice : Bytes} (here : channel.io = .write slice) :
    Reports (channel.write slice) delivered errors := by
  have taken := reports.takes
  rw [here] at taken
  have moved : Reports { channel with io := .idle } delivered errors := by
    refine reports.moves (by simp [here]) nofun (by rw [here]; rfl) nofun ?_
      nofun
    intro errored there
    exact nomatch taken errored there
  exact moved.congr rfl

theorem onWriteComplete {count : Nat}
    (here : channel.io = .writeComplete success count) :
    Reports (channel.onWriteComplete success count) delivered errors := by
  have taken := reports.takes
  rw [here] at taken
  have none : channel.io.held = [] := by
    rw [here]
    rfl
  have leaves : channel.io ≠ .postError := by simp [here]
  have popped : Reports channel.popWrite delivered errors := reports.congr rfl
  unfold Channel.onWriteComplete
  split
  case isTrue =>
    refine reports.moves leaves nofun none.symm nofun ?_ nofun
    intro errored there
    exact nomatch taken errored there
  case isFalse going =>
    have idle : ∀ control : Control, control.held = [] →
        control ≠ .postError → control.failed = false →
          control.isReading = false →
            Reports { channel with io := control } delivered errors := by
      intro control held enters succeeds quiet
      exact reports.moves leaves enters (held.trans none.symm)
        (fun fails => nomatch succeeds.symm.trans fails)
        (fun errored => absurd errored going)
        (fun reading => nomatch quiet.symm.trans reading)
    split
    case isTrue =>
      dsimp only
      split
      · exact popped.signals leaves nofun none rfl rfl nofun
      · exact reports.signals leaves nofun none rfl rfl nofun
    case isFalse =>
      dsimp only
      split
      case isTrue =>
        split
        case isTrue =>
          exact popped.signals leaves nofun none rfl rfl nofun
        case isFalse =>
          split
          · exact (idle .issueNextWrite rfl nofun rfl rfl).congr rfl
          · exact (idle .idle rfl nofun rfl rfl).congr rfl
      case isFalse =>
        exact (idle .issueNextWrite rfl nofun rfl rfl).congr rfl

theorem enter (here : channel.io = .idle) {tasks : List Task}
    (next : channel.tasks = task :: tasks) :
    Reports { channel with tasks, io := Channel.enter task } delivered
      errors := by
  have taken := reports.takes
  rw [here] at taken
  have held : (Channel.enter task).held = channel.io.held := by
    rw [here]
    cases task <;> rfl
  have moved : Reports { channel with io := Channel.enter task } delivered
      errors := by
    refine reports.moves (by simp [here]) ?_ held ?_ ?_ ?_
    · cases task <;> nofun
    · cases task <;> nofun
    · intro errored there
      exact nomatch taken errored there
    · intro reading
      refine reports.tasks task (by simp [next]) ?_
      cases task with
      | beginRead | onDataReceived => rfl
      | issueNextWrite | onWriteComplete => cases reading
  exact { moved with
    tasks := fun other member => reports.tasks other
      (by rw [next]; exact List.mem_cons_of_mem _ member) }

/-! ## Other threads -/

theorem startReading : Reports channel.startReading delivered errors := by
  unfold Channel.startReading
  split
  case isTrue => exact reports
  case isFalse fresh =>
    simp only [Bool.or_eq_true, not_or, Bool.not_eq_true] at fresh
    have callback := reports.callback
    rw [fresh.1] at callback
    have zero : errors + channel.reporting = 0 ∧ channel.onError = false := by
      cases there : channel.onError <;> simp [there] at callback ⊢
      exact ⟨callback.1, callback.2⟩
    refine { reports with
      callback := ?_, onMessage := fun _ _ => rfl, takes := ?_
      reads := fun _ => rfl, begins := fun _ => rfl
      tasks := fun _ _ _ => rfl, reading := fun _ => rfl }
    · exact congrArg (· + 1) zero.1
    · intro errored
      exact nomatch fresh.2.symm.trans errored

theorem close
    (apart : channel.writeInFlight = false → channel.pendingWrites = [] →
      channel.io.held = []) :
    Reports channel.close delivered errors := by
  unfold Channel.close
  split
  case isTrue => exact reports
  case isFalse =>
    split
    case isTrue rest =>
      simp only [Bool.and_eq_true, Bool.not_eq_true', List.isEmpty_iff] at rest
      have held := apart rest.1 rest.2
      refine { reports with
        callback := ?_, signaled := fun _ => rfl
        silent := fun _ => held, onMessage := nofun
        failed := fun _ => rfl, takes := nofun }
      refine Eq.trans ?_ reports.callback
      simp only [Channel.reporting, Bool.false_eq_true, if_false]
      omega
    case isFalse => exact reports.congr rfl

theorem posts (reading : task.isReading = true → channel.started = true) :
    ∀ other ∈ channel.tasks ++ [task], other.isReading = true →
      channel.started = true := by
  intro other member
  rcases List.mem_append.mp member with member | member
  · exact reports.tasks other member
  · rw [List.mem_singleton.mp member]
    exact reading

end Reports

/-! ## Whole runs -/

/-- A read that completes a message has a corrupt header behind it, or
`Close` finds nothing to write while a message is parsed and not posted. -/
def Mixes (channel : Channel) : Action → Prop
  | .io => ∃ bytes ∈ channel.io.arrived,
      framing.corrupt (framing.readFrames (channel.ingested ++ bytes)).2 ∧
      (framing.readFrames (channel.ingested ++ bytes)).1 ≠
        (framing.readFrames channel.ingested).1
  | .close => channel.writeInFlight = false ∧ channel.pendingWrites = [] ∧
      channel.io.held ≠ []
  | .startReading | .postBegin | .send _ | .postIssue | .postReport
  | .readDone .. | .writeDone .. => False

instance (channel : Channel) : ∀ action, Decidable (Mixes channel action)
  | .io => inferInstanceAs (Decidable (∃ _ ∈ _, _ ∧ _))
  | .close => inferInstanceAs (Decidable (_ ∧ _ ∧ _))
  | .startReading | .postBegin | .send _ | .postIssue | .postReport
  | .readDone .. | .writeDone .. => .isFalse id

variable {channel next : Channel}

section

variable {delivered : List Bytes} {errors : Nat}
  (reports : Reports channel delivered errors)

include reports

theorem Reports.run (apart : ¬Mixes channel .io)
    (ran : channel.run = some next) :
    ∃ delivered errors, Reports next delivered errors := by
  cases Channel.runs_of_run ran with
  | enter here first => exact ⟨_, _, reports.enter here first⟩
  | beginRead here => exact ⟨_, _, reports.beginRead here⟩
  | issueRead here => exact ⟨_, _, reports.issueRead here⟩
  | @ingest success bytes here =>
    refine ⟨_, _, reports.ingest here fun ok corrupt => ?_⟩
    subst ok
    by_contra more
    exact apart ⟨bytes, by rw [here]; rfl, corrupt, more⟩
  | deliver here => exact ⟨_, _, reports.deliver here⟩
  | post here => exact ⟨_, _, reports.post here⟩
  | proceed here => exact ⟨_, _, reports.proceed here⟩
  | lastCheck here => exact ⟨_, _, reports.lastCheck here⟩
  | takeError here =>
    exact ⟨_, _, reports.takeError (.inl here)
      (reports.failed (by rw [here]; rfl))⟩
  | postError here => exact ⟨_, _, reports.postError here⟩
  | issueNextWrite here => exact ⟨_, _, reports.issueNextWrite here⟩
  | write here => exact ⟨_, _, reports.write here⟩
  | onWriteComplete here => exact ⟨_, _, reports.onWriteComplete here⟩

theorem Reports.step {action : Action} (apart : ¬Mixes channel action)
    (taken : step channel action = some next) :
    ∃ delivered errors, Reports next delivered errors := by
  cases action with
  | startReading =>
    cases taken
    exact ⟨_, _, reports.startReading⟩
  | postBegin =>
    obtain ⟨there, ⟨⟩⟩ := Option.ite_none_left_eq_some.mp taken
    exact ⟨delivered, errors, { reports with
      begins := fun _ => reports.begins there
      tasks := reports.posts fun _ => reports.begins there }⟩
  | send payload =>
    cases taken
    refine ⟨delivered, errors, reports.congr ?_⟩
    unfold Channel.send
    split
    · rfl
    · dsimp only
      split <;> rfl
  | postIssue =>
    obtain ⟨-, ⟨⟩⟩ := Option.ite_none_left_eq_some.mp taken
    exact ⟨delivered, errors,
      { reports with tasks := reports.posts nofun }⟩
  | close =>
    cases taken
    refine ⟨_, _, reports.close fun idle empty => ?_⟩
    by_contra held
    exact apart ⟨idle, empty, held⟩
  | postReport =>
    obtain ⟨there, ⟨⟩⟩ := Option.ite_none_left_eq_some.mp taken
    refine ⟨delivered, errors + 1, { reports with
      posted := ?_, callback := ?_, signaled := ?_ }⟩
    · rw [reports.posted, List.append_assoc, ← List.replicate_succ']
    · have callback := reports.callback
      simp only [Channel.reporting] at callback ⊢
      omega
    · intro _
      refine reports.signaled ?_
      simp only [Channel.reporting]
      omega
  | readDone success bytes =>
    obtain ⟨there, ⟨⟩⟩ := Option.ite_none_left_eq_some.mp taken
    have started := reports.reads fun none => there (.inl none)
    exact ⟨delivered, errors, { reports with
      reads := fun _ => started
      tasks := reports.posts fun _ => started }⟩
  | writeDone success count =>
    rw [Ipc.step] at taken
    split at taken
    case h_1 => cases taken
    case h_2 =>
      obtain ⟨-, ⟨⟩⟩ := Option.ite_none_left_eq_some.mp taken
      exact ⟨delivered, errors,
        { reports with tasks := reports.posts nofun }⟩
  | io => exact reports.run apart taken

end

/-- The error callback is posted at most once.  It was posted if the started
channel is in its error state and no thread is in the middle of a call.  In
front of it are the messages of all frames that were received. -/
theorem error_reported_once {actions : List Action}
    (performed : perform step {} actions = some channel)
    (avoids : Avoids step Mixes {} actions) :
    channel.posted.count .error ≤ 1 ∧
    (channel.started = true → channel.errorSignaled = true →
      channel.io = .idle → channel.toReport = 0 →
        channel.posted.count .error = 1) ∧
    (.error ∈ channel.posted → ∀ (payloads : List Bytes) (rest : Bytes),
      (∀ payload ∈ payloads, payload.length ≤ kMaxMessageSize) →
      channel.ingested = (payloads.map frame).flatten ++ rest →
        ∃ others, channel.posted =
          (payloads ++ others).map .message ++ [.error]) := by
  obtain ⟨delivered, errors, reports⟩ :
      ∃ delivered errors, Reports channel delivered errors := by
    have kept : ∀ {channel : Channel} {action : Action} {next : Channel},
        (∃ delivered errors, Reports channel delivered errors) →
        ¬Mixes channel action → step channel action = some next →
          ∃ delivered errors, Reports next delivered errors := by
      rintro channel action next ⟨delivered, errors, reports⟩ apart taken
      exact reports.step apart taken
    exact perform_avoiding kept performed avoids ⟨[], 0, .initially⟩
  have count : channel.posted.count .error = errors := by
    rw [reports.posted, List.count_append, List.count_replicate_self,
      List.count_eq_zero_of_not_mem (by simp), Nat.zero_add]
  have callback := reports.callback
  have atMost : errors ≤ 1 := by
    have one : (if channel.started = true then 1 else 0) ≤ 1 := by
      split_ifs <;> omega
    omega
  rw [count]
  refine ⟨atMost, fun started errored idle none => ?_, ?_⟩
  · have gone : ¬channel.onError = true := by
      intro there
      have taken := reports.takes errored there
      rw [idle] at taken
      cases taken
    rw [if_neg gone, if_pos started] at callback
    simp only [Channel.reporting, none, idle, reduceCtorEq,
      if_false] at callback
    omega
  · intro member payloads rest fit received
    have some : errors ≠ 0 := by
      rintro rfl
      rw [reports.posted] at member
      simp at member
    have errored := reports.signaled (by omega)
    have complete := reports.complete
    rw [reports.silent errored, List.append_nil, received,
      readFrames_sent fit] at complete
    refine ⟨(framing.readFrames rest).1, ?_⟩
    rw [reports.posted, ← complete, show errors = 1 by omega]
    rfl

/-- A message arrives, and then the stream ends. -/
def endOfStream : List Action :=
  [.startReading, .postBegin, .io, .io, .io,
    .readDone true (frame [104, 105]), .io, .io, .io, .io, .io, .io, .io, .io,
    .readDone true [], .io, .io, .io, .io, .io]

theorem error_reported_once_endOfStream :
    ∃ channel, perform step {} endOfStream = some channel ∧
      channel.posted.count .error = 1 ∧
      ∃ others, channel.posted =
        ([[104, 105]] ++ others).map .message ++ [.error] := by
  have seen : (perform step {} endOfStream).map
      (fun channel => ((channel.posted, channel.ingested),
        (channel.started, channel.errorSignaled),
        (channel.io, channel.toReport))) =
      some (([.message [104, 105], .error], frame [104, 105]), (true, true),
        (.idle, 0)) := by decide +kernel
  obtain ⟨channel, ran, same⟩ := Option.map_eq_some_iff.mp seen
  simp only [Prod.mk.injEq] at same
  obtain ⟨⟨posted, ingested⟩, ⟨started, errored⟩, idle, none⟩ := same
  obtain ⟨-, once, before⟩ := error_reported_once ran (by decide +kernel)
  refine ⟨channel, ran, once started errored idle none, ?_⟩
  refine before (by simp [posted]) [[104, 105]] [] (by decide) ?_
  simpa using ingested

/-- A corrupt header in the read of a message, and a `Close` between the
parsing and the posting of a message. -/
theorem error_loses_messages :
    (perform step {}
      [.startReading, .postBegin, .io, .io, .io,
        .readDone true (frame [104, 105] ++ List.replicate 8 0), .io, .io,
        .io]).map (fun channel => ((channel.started, channel.errorSignaled),
          (channel.io, channel.toReport), channel.posted)) =
      some ((true, true), (.idle, 0), []) ∧
    (perform step {}
      [.startReading, .postBegin, .io, .io, .io,
        .readDone true (frame [104, 105]), .io, .io, .close, .postReport,
        .io]).map (fun channel => (channel.io, channel.posted)) =
      some (.idle, [.error]) := by
  decide +kernel

end Libnei.Ipc
