import Libnei.Bytes
import Libnei.Lib.Actions

/-!
# Uploads from a file

`UploadFromFile` (`http_file_transfer.cpp`) with the client that pulls the
body (`http_client.cpp`): the writes of an HTTP/1 connection, and an HTTP/2
stream, which asks for data and ends as it likes.  A read that is reported ok
has bytes of the file, and none only at its end.

A failed read ends the body as the end of the file does, and a stream may be
answered before its body has ended.  Neither is seen in what `on_done` is
told.
-/

namespace Libnei.Http

open Lib

inductive UploadWrite
  | chunk (data : Bytes)
  | terminator

/-- What `ReadAsync` reports. -/
inductive FileRead
  | error
  | bytes (size : Nat)

inductive UploadPhase
  | opening
  | writing
  | uploading
  | reading
  /-- In front of the callback of `CloseAsync`. -/
  | closing (ok : Bool)
  | finished
  deriving DecidableEq

/-- `handed` has the chunks that the provider has passed on and `ended` tells
of its signal of the end; `pulling` is a call of the provider under way, and
`failed` tells of a read that did not come to the end of the file. -/
structure FileUpload where
  phase : UploadPhase := .opening
  offset : Nat := 0
  pulling : Bool := false
  uploadQueue : List UploadWrite := []
  uploadInFlight : Bool := false
  uploadDone : Bool := false
  handed : List Bytes := []
  ended : Bool := false
  failed : Bool := false
  onDone : List Bool := []

inductive UploadAction
  | opened (ok : Bool)
  | wroteRequest (ok : Bool)
  /-- The stream calls the provider. -/
  | pull
  | read (result : FileRead)
  | wrote (ok : Bool)
  | respond (status : Nat)
  /-- The client gives the request up. -/
  | abort
  | closed

def kChunkSize : Nat := 64 * 1024

namespace FileUpload

variable (http2 chunked : Bool) (content : Bytes) (upload : FileUpload)

/-- The callback of `SendBody`. -/
def respond (ok : Bool) : FileUpload :=
  match upload.phase with
  | .closing _ | .finished => upload
  | _ => { upload with phase := .closing ok }

def pullNextChunk : FileUpload := { upload with pulling := true }

def pumpUploadWrites : FileUpload :=
  if upload.phase ≠ .uploading then upload
  else if upload.uploadInFlight then upload
  else
    match upload.uploadQueue with
    | [] =>
        if upload.uploadDone then
          { upload with uploadDone := false, phase := .reading }
        else upload
    | _ :: queue =>
        { upload with uploadQueue := queue, uploadInFlight := true }

def onUploadChunk : Option Bytes → FileUpload
  | none =>
      if upload.phase ≠ .uploading ∨ http2 then upload
      else
        { upload with
          uploadDone := true
          uploadQueue := upload.uploadQueue ++
            if chunked then [UploadWrite.terminator] else [] }.pumpUploadWrites
  | some data =>
      if upload.phase ≠ .uploading ∨ http2 then upload
      else
        { upload with
          uploadQueue :=
            upload.uploadQueue ++ [UploadWrite.chunk data] }.pumpUploadWrites

/-- The callback of the provider's `ReadAsync`. -/
def readDone (result : FileRead) : FileUpload :=
  let returned := { upload with pulling := false }
  match result with
  | .error | .bytes 0 =>
      { returned with ended := true }.onUploadChunk http2 chunked none
  | .bytes size =>
      let data := (content.drop upload.offset).take size
      { returned with
        offset := upload.offset + size
        handed := upload.handed ++ [data] }.onUploadChunk http2 chunked
          (some data)

/-- What a read may report at this place of the file. -/
def Reads : FileRead → Prop
  | .error => True
  | .bytes size => size ≤ kChunkSize ∧ upload.offset + size ≤ content.length ∧
      (size = 0 → content.length ≤ upload.offset)

instance : ∀ result, Decidable (upload.Reads content result)
  | .error => .isTrue trivial
  | .bytes _ => inferInstanceAs (Decidable (_ ∧ _ ∧ _))

def fails : FileRead → Bool
  | .error => upload.offset < content.length
  | .bytes _ => false

/-- The client may be answered. -/
def awaits : Bool :=
  upload.phase = .reading || (http2 && upload.phase = .uploading)

def step : UploadAction → Option FileUpload
  | .opened ok =>
      if upload.phase = .opening then
        some { upload with
          phase := if ok then .writing else .finished
          onDone := if ok then upload.onDone else upload.onDone ++ [false] }
      else none
  | .wroteRequest ok =>
      if upload.phase = .writing then
        some (if ok then
          { upload with phase := .uploading, pulling := !http2 }
        else upload.respond false)
      else none
  | .pull =>
      if http2 ∧ upload.phase = .uploading ∧ !upload.pulling ∧
          !upload.ended then some upload.pullNextChunk
      else none
  | .read result =>
      if upload.pulling ∧ upload.Reads content result then
        some ({ upload with
          failed := upload.fails content result || upload.failed }.readDone
            http2 chunked content result)
      else none
  | .wrote ok =>
      if upload.uploadInFlight then
        let landed := { upload with uploadInFlight := false }
        some (if !ok then landed.respond false
          else if landed.uploadDone then landed.pumpUploadWrites
          else landed.pullNextChunk)
      else none
  | .respond status =>
      if upload.awaits http2 then
        some (upload.respond (200 ≤ status ∧ status < 300))
      else none
  | .abort =>
      if upload.phase = .opening then none else some (upload.respond false)
  | .closed =>
      match upload.phase with
      | .closing ok =>
          some { upload with
            phase := .finished
            onDone := upload.onDone ++ [ok] }
      | _ => none

abbrev Sent : Prop := upload.ended = true ∧ upload.failed = false

/-- The answer is a success, and a read has failed or the body has not ended
yet. -/
def Truncates : UploadAction → Prop
  | .respond status => (200 ≤ status ∧ status < 300) ∧ ¬upload.Sent
  | _ => False

instance (action : UploadAction) :
    Decidable (upload.Truncates action) := by
  cases action <;> unfold Truncates <;> infer_instance

/-- The chunks are the file up to the offset, and all of it at an end without
a failed read.  The client is done with the body only behind the end. -/
structure Whole : Prop where
  bytes : upload.handed.flatten = content.take upload.offset
  bound : upload.offset ≤ content.length
  whole : upload.Sent → upload.offset = content.length
  quiet : upload.ended = true → upload.pulling = false
  alone : upload.pulling = true → upload.uploadInFlight = false
  stream : http2 = true → upload.uploadInFlight = false
  fresh : upload.phase = .opening ∨ upload.phase = .writing →
    upload.ended = false ∧ upload.pulling = false ∧
      upload.uploadInFlight = false
  last : upload.ended = true → upload.uploadInFlight = true →
    upload.uploadDone = true
  done : upload.uploadDone = true → upload.ended = true
  closing : upload.phase = .closing true → upload.Sent
  finished : upload.phase = .finished → upload.onDone ≠ []
  told : true ∈ upload.onDone → upload.Sent

variable {http2 chunked content upload} {next : FileUpload}

section

variable (whole : upload.Whole http2 content)

include whole

theorem Whole.pump (plain : http2 = false) (between : upload.pulling = false)
    (flags : upload.ended = true → upload.uploadDone = true) :
    upload.pumpUploadWrites.Whole http2 content := by
  unfold pumpUploadWrites
  split
  case isTrue => exact whole
  case isFalse uploading =>
    have uploading := not_not.mp uploading
    split
    case isTrue => exact whole
    case isFalse still =>
      split
      case h_1 =>
        split
        case isTrue done =>
          have ended := whole.done done
          refine { whole with
            fresh := ?_, last := ?_, done := fun _ => ended, closing := nofun
            finished := nofun }
          · rintro (phase | phase) <;> cases phase
          · exact fun _ moving => absurd moving still
        case isFalse => exact whole
      case h_2 =>
        refine { whole with
          alone := ?_, stream := ?_, fresh := ?_, last := ?_ }
        · intro pulling
          rw [between] at pulling
          cases pulling
        · intro stream
          rw [plain] at stream
          cases stream
        · rintro (phase | phase) <;> rw [uploading] at phase <;>
            cases phase
        · exact fun ended _ => flags ended

theorem Whole.respond {ok : Bool} (behind : ok = true → upload.Sent) :
    (upload.respond ok).Whole http2 content := by
  unfold FileUpload.respond
  split
  case h_1 => exact whole
  case h_2 => exact whole
  case h_3 =>
    refine { whole with fresh := ?_, closing := ?_, finished := nofun }
    · rintro (phase | phase) <;> cases phase
    · intro phase
      exact behind (UploadPhase.closing.inj phase)

theorem Whole.onUploadChunk (between : upload.pulling = false)
    (more : upload.ended = false) (data : Bytes) :
    (upload.onUploadChunk http2 chunked (some data)).Whole http2 content := by
  unfold FileUpload.onUploadChunk
  dsimp only
  split
  case isTrue => exact whole
  case isFalse pumps =>
    have plain := Bool.not_eq_true _ ▸ (not_or.mp pumps).2
    refine Whole.pump { whole with } plain between fun ended => ?_
    rw [more] at ended
    cases ended

theorem Whole.onUploadEnd (between : upload.pulling = false)
    (ended : upload.ended = true) :
    (upload.onUploadChunk http2 chunked none).Whole http2 content := by
  unfold FileUpload.onUploadChunk
  dsimp only
  split
  case isTrue => exact whole
  case isFalse pumps =>
    have plain := Bool.not_eq_true _ ▸ (not_or.mp pumps).2
    refine Whole.pump { whole with last := ?_, done := ?_ } plain between
      fun _ => rfl
    · exact fun _ _ => rfl
    · exact fun _ => ended

section

variable (pulling : upload.pulling = true)

include pulling

theorem Whole.more : upload.ended = false := by
  by_contra ended
  have quiet := whole.quiet (Bool.not_eq_false _ ▸ ended)
  rw [quiet] at pulling
  cases pulling

theorem Whole.unsent : ¬upload.Sent := by
  rintro ⟨ended, -⟩
  rw [whole.more pulling] at ended
  cases ended

theorem Whole.ending {failed : Bool}
    (all : failed = false → content.length ≤ upload.offset) :
    Whole http2 content
      { upload with pulling := false, ended := true, failed } := by
  have landed := whole.alone pulling
  refine { whole with
    whole := ?_, quiet := fun _ => rfl, alone := fun _ => landed, fresh := ?_,
    last := ?_, done := fun _ => rfl, closing := ?_, told := ?_ }
  · exact fun sent => Nat.le_antisymm whole.bound (all sent.2)
  · intro phase
    have early := (whole.fresh phase).2.1
    rw [pulling] at early
    cases early
  · intro _ moving
    rw [landed] at moving
    cases moving
  · exact fun phase => absurd (whole.closing phase) (whole.unsent pulling)
  · exact fun told => absurd (whole.told told) (whole.unsent pulling)

theorem Whole.extend {size : Nat}
    (inside : upload.offset + size ≤ content.length) :
    Whole http2 content { upload with
      pulling := false
      offset := upload.offset + size
      handed := upload.handed ++
        [(content.drop upload.offset).take size] } := by
  refine { whole with
    bytes := ?_, bound := inside, whole := ?_, quiet := fun _ => rfl,
    alone := fun _ => whole.alone pulling, fresh := ?_, closing := ?_,
    told := ?_ }
  · show (upload.handed ++ [(content.drop upload.offset).take size]).flatten =
      content.take (upload.offset + size)
    rw [List.flatten_append, List.flatten_singleton, whole.bytes, List.take_add]
  · exact fun sent => absurd sent (whole.unsent pulling)
  · intro phase
    exact ⟨(whole.fresh phase).1, rfl, (whole.fresh phase).2.2⟩
  · exact fun phase => absurd (whole.closing phase) (whole.unsent pulling)
  · exact fun told => absurd (whole.told told) (whole.unsent pulling)

theorem Whole.readDone {result : FileRead}
    (reads : upload.Reads content result) :
    ({ upload with
      failed := upload.fails content result || upload.failed }.readDone
        http2 chunked content result).Whole http2 content := by
  match result with
  | .error =>
    refine (whole.ending pulling fun well => ?_).onUploadEnd rfl rfl
    simpa [fails] using (Bool.or_eq_false_iff.mp well).1
  | .bytes 0 =>
    exact (whole.ending pulling fun _ => reads.2.2 rfl).onUploadEnd rfl rfl
  | .bytes (size + 1) =>
    have extended := whole.extend pulling reads.2.1
    exact @Whole.onUploadChunk http2 chunked content _ extended rfl
      (whole.more pulling) _

end

theorem Whole.wrote (moving : upload.uploadInFlight = true) (ok : Bool) :
    Whole http2 content
      (if !ok then { upload with uploadInFlight := false }.respond false
        else if upload.uploadDone then
          { upload with uploadInFlight := false }.pumpUploadWrites
        else { upload with uploadInFlight := false }.pullNextChunk) := by
  have plain : http2 = false := by
    by_contra stream
    rw [whole.stream (Bool.not_eq_false _ ▸ stream)] at moving
    cases moving
  have between : upload.pulling = false := by
    by_contra pulling
    rw [whole.alone (Bool.not_eq_false _ ▸ pulling)] at moving
    cases moving
  have landed : Whole http2 content
      { upload with uploadInFlight := false } := by
    refine { whole with
      alone := fun _ => rfl, stream := fun _ => rfl, fresh := ?_,
      last := ?_ }
    · exact fun phase => ⟨(whole.fresh phase).1, between, rfl⟩
    · exact fun _ still => absurd still Bool.false_ne_true
  split
  case isTrue => exact landed.respond fun wrong => absurd wrong.symm (by simp)
  case isFalse =>
    split
    case isTrue done => exact landed.pump plain between fun _ => done
    case isFalse open' =>
      have more : upload.ended = false := by
        by_contra ended
        exact open' (whole.last (Bool.not_eq_false _ ▸ ended) moving)
      refine { landed with
        quiet := ?_, alone := fun _ => rfl, fresh := ?_ }
      · intro ended
        exact absurd (more.symm.trans ended) Bool.false_ne_true
      · intro phase
        have early := (whole.fresh phase).2.2
        rw [moving] at early
        cases early

theorem Whole.step {action : UploadAction}
    (kept : ¬upload.Truncates action)
    (taken : upload.step http2 chunked content action = some next) :
    next.Whole http2 content := by
  cases action with
  | opened ok =>
    obtain ⟨opening, ⟨⟩⟩ := Option.ite_none_right_eq_some.mp taken
    have early := whole.fresh (.inl opening)
    cases ok with
    | true =>
      exact { whole with
        fresh := fun _ => early, closing := nofun, finished := nofun }
    | false =>
      refine { whole with
        fresh := fun _ => early, closing := nofun, finished := ?_, told := ?_ }
      · simp
      · exact fun member => whole.told (by simpa using member)
  | wroteRequest ok =>
    obtain ⟨writing, ⟨⟩⟩ := Option.ite_none_right_eq_some.mp taken
    obtain ⟨more, _, landed⟩ := whole.fresh (.inr writing)
    cases ok with
    | true =>
      refine { whole with
        quiet := ?_, alone := fun _ => landed, fresh := ?_,
        closing := nofun, finished := nofun }
      · intro ended
        exact absurd (more.symm.trans ended) Bool.false_ne_true
      · rintro (phase | phase) <;> cases phase
    | false => exact whole.respond fun wrong => by cases wrong
  | pull =>
    obtain ⟨ready, ⟨⟩⟩ := Option.ite_none_right_eq_some.mp taken
    obtain ⟨stream, uploading, _, more⟩ := ready
    refine { whole with
      quiet := ?_, alone := fun _ => whole.stream stream,
      fresh := ?_ }
    · intro ended
      rw [show upload.ended = true from ended] at more
      cases more
    · rintro (phase | phase) <;>
        cases uploading.symm.trans phase
  | read result =>
    obtain ⟨ready, ⟨⟩⟩ := Option.ite_none_right_eq_some.mp taken
    exact whole.readDone ready.1 ready.2
  | wrote ok =>
    obtain ⟨moving, ⟨⟩⟩ := Option.ite_none_right_eq_some.mp taken
    exact whole.wrote moving ok
  | respond status =>
    rw [FileUpload.step] at taken
    split at taken
    case isTrue =>
      cases taken
      exact whole.respond fun ok => not_not.mp fun unsent =>
        kept ⟨of_decide_eq_true ok, unsent⟩
    case isFalse => cases taken
  | abort =>
    rw [FileUpload.step] at taken
    split at taken <;> cases taken
    exact whole.respond fun wrong => by cases wrong
  | closed =>
    rw [FileUpload.step] at taken
    split at taken
    case h_1 ok closing =>
      cases taken
      refine { whole with
        fresh := ?_, closing := nofun, finished := ?_, told := ?_ }
      · rintro (phase | phase) <;> cases phase
      · simp
      · intro member
        rcases List.mem_append.mp member with old | new
        · exact whole.told old
        · rw [← List.mem_singleton.mp new] at closing
          exact whole.closing closing
    case h_2 => cases taken

end

/-- Where no answer is a success behind a failed read or before the end of the
body, `on_done` is told of success only behind the end, and the chunks are the
whole file; behind a failed read it is told of failure. -/
theorem upload_is_whole {actions : List UploadAction}
    (ran : perform (FileUpload.step http2 chunked content) {} actions =
      some upload)
    (kept : Avoids (FileUpload.step http2 chunked content) Truncates {}
      actions) :
    (true ∈ upload.onDone →
      upload.ended = true ∧ upload.handed.flatten = content) ∧
    (upload.failed = true → upload.phase = .finished →
      false ∈ upload.onDone) := by
  have whole : upload.Whole http2 content := by
    refine perform_avoiding (fun whole kept taken => whole.step kept taken)
      ran kept ?_
    constructor <;> simp
  constructor
  · intro told
    have sent := whole.told told
    refine ⟨sent.1, ?_⟩
    rw [whole.bytes, whole.whole sent, List.take_length]
  · intro failed finished
    obtain ⟨ok, told⟩ := List.exists_mem_of_ne_nil _ (whole.finished finished)
    cases ok with
    | false => exact told
    | true => cases failed.symm.trans (whole.told told).2

/-- A file of three bytes, read in two pieces. -/
def wholeUpload : List UploadAction :=
  [.opened true, .wroteRequest true, .read (.bytes 2), .wrote true,
    .read (.bytes 1), .wrote true, .read (.bytes 0), .respond 200, .closed]

theorem upload_is_whole_threeBytes :
    ∃ upload, perform (FileUpload.step false false [1, 2, 3]) {}
        wholeUpload = some upload ∧ upload.onDone = [true] ∧
      upload.handed = [[1, 2], [3]] ∧ upload.ended = true := by
  have ran : perform (FileUpload.step false false [1, 2, 3]) {} wholeUpload =
    some ((perform (FileUpload.step false false [1, 2, 3]) {}
      wholeUpload).getD {}) := rfl
  exact ⟨_, ran, rfl, rfl,
    ((upload_is_whole ran (by decide)).1 List.mem_cons_self).1⟩

/-- The second read fails, and the answer is a 200; and on a stream the answer
comes behind the first chunk. -/
theorem upload_truncated :
    (perform (FileUpload.step false false [1, 2, 3]) {}
        [.opened true, .wroteRequest true, .read (.bytes 2), .wrote true,
          .read .error, .respond 200, .closed]).map
        (fun upload => (upload.onDone, upload.handed, upload.ended)) =
      some ([true], [[1, 2]], true) ∧
    (perform (FileUpload.step true false [1, 2, 3]) {}
        [.opened true, .wroteRequest true, .pull, .read (.bytes 2),
          .respond 200, .closed]).map
        (fun upload => (upload.onDone, upload.handed, upload.ended)) =
      some ([true], [[1, 2]], false) := by
  decide +kernel

end FileUpload

end Libnei.Http
