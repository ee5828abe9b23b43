import Libnei.Bytes
import Libnei.Lib.Actions
import Mathlib.Data.List.Perm.Basic

/-!
# Downloads to a file

`DownloadToFile` (`http_file_transfer.cpp`) with the calls that a streaming
client makes for a response (`http_client.cpp`, `http2_client_session.cpp`).
The writes to the file come back in any order, and one that is reported ok has
stored its bytes.

A connection that breaks off signals the end of the body as a complete
response does, and one that is given up signals nothing.  The last frame of a
stream may bring bytes and the end in one call, which drops the bytes.  A read
is parsed to its end, so it may hold a second response behind the one that was
asked for, and bytes that cannot be decoded are left out.
-/

namespace Libnei.Http

open Lib

/-- How the end of a response is announced. -/
inductive BodyFraming
  | length (size : Nat)
  | chunked
  | untilClose
  | stream
  deriving DecidableEq

structure FileWrite where
  offset : Nat
  data : Bytes
  deriving DecidableEq

inductive DownloadPhase
  | opening
  | running
  /-- In front of the callback of `CloseAsync`. -/
  | closing
  | finished
  deriving DecidableEq

/-- `pendingWrites` are the writes in flight and `file` is what they have
stored.  `framing`, `encoded` and `received`, the bytes of the body on the
wire, are of the message that is read; `status` and `body`, as it is decoded,
are of the response.  `complete` is the flag of the delegate, `intact` tells
that the response has arrived as announced and was decoded, and `through` that
the client is done with it. -/
structure FileDownload where
  phase : DownloadPhase := .opening
  offset : Nat := 0
  pendingWrites : List FileWrite := []
  bodyDone : Bool := false
  success : Bool := true
  downloadPaused : Bool := false
  totalBytes : Nat := 0
  onDone : List (Bool × Nat) := []
  file : Nat → Option UInt8 := fun _ => none
  framing : Option BodyFraming := none
  encoded : Bool := false
  received : Nat := 0
  status : Nat := 0
  body : Bytes := []
  complete : Bool := false
  intact : Bool := true
  through : Bool := false

inductive DownloadAction
  | opened (ok : Bool)
  /-- `encoded` where there is a decompressor for the body. -/
  | headers (status : Nat) (framing : BodyFraming) (encoded : Bool)
  /-- Bytes of the body, and what they are decoded to if they can be. -/
  | chunk (wire : Bytes) (decoded : Option Bytes)
  /-- The announced end; the decompressor may have some bytes left, and
  `ended` tells whether its input ends here, too. -/
  | messageEnd (tail : Bytes) (ended : Bool)
  /-- A data frame with the flag of the end. -/
  | lastFrame (wire : Bytes) (decoded : Option Bytes) (tail : Bytes)
      (ended : Bool)
  /-- The bytes of the read in which the response has ended are parsed. -/
  | readEnd
  /-- The connection ends, in order or with an error. -/
  | connectionEnd (orderly ended : Bool)
  | reset
  /-- The connection fails to open or to write, the response is not one, or
  the client is closed. -/
  | giveUp
  | written (index : Nat) (ok : Bool)
  | closed

namespace FileDownload

variable (download : FileDownload)

def kHighWatermark : Nat := 8

def kLowWatermark : Nat := 2

def finishIfDone : FileDownload :=
  if download.bodyDone ∧ download.pendingWrites = [] ∧
      download.phase = .running then
    { download with phase := .closing }
  else download

def onHeaders (status : Nat) : FileDownload :=
  { download with
    success := download.success && decide (200 ≤ status ∧ status < 300) }

def onBody (data : Bytes) (done : Bool) : FileDownload :=
  if done then { download with bodyDone := true }.finishIfDone
  else if data = [] then download
  else
    let counted :=
      { download with totalBytes := download.totalBytes + data.length }
    if !download.success then counted
    else if download.phase ≠ .running then
      -- the file is about to be closed, and takes no more writes
      { counted with
        offset := download.offset + data.length
        success := false }
    else
      let writes := download.pendingWrites ++ [⟨download.offset, data⟩]
      { counted with
        pendingWrites := writes
        offset := download.offset + data.length
        downloadPaused := download.downloadPaused ||
          decide (kHighWatermark ≤ writes.length) }

def store (write : FileWrite) : Nat → Option UInt8 := fun place =>
  if write.offset ≤ place ∧ place < write.offset + write.data.length then
    write.data[place - write.offset]?
  else download.file place

/-- The callback of `WriteAsync`. -/
def onWritten (write : FileWrite) (writes : List FileWrite) (ok : Bool) :
    FileDownload :=
  { download with
    pendingWrites := writes
    success := download.success && ok
    file := if ok then download.store write else download.file
    downloadPaused := download.downloadPaused &&
      decide (kLowWatermark < writes.length) }.finishIfDone

/-- The client has not done with the connection. -/
def receives : Bool :=
  (download.phase = .running || download.phase = .closing) &&
    !download.through

/-- The message may end here as it was announced. -/
def endsHere : Bool :=
  match download.framing with
  | some (.length size) => download.received = size
  | some .chunked | some .stream => true
  | some .untilClose | none => false

/-- The message may have these bytes next. -/
def fits (wire : Bytes) : Bool :=
  match download.framing with
  | some (.length size) => download.received + wire.length ≤ size
  | some _ => true
  | none => false

/-- `OnBody`: what cannot be decoded is left out. -/
def deliver (decoded : Option Bytes) : FileDownload :=
  match decoded with
  | none => { download with intact := download.intact && download.complete }
  | some data =>
      { download.onBody data false with
        body := if download.complete then download.body
          else download.body ++ data }

/-- `OnMessageComplete`: the rest of the decompressor, and the end.  Whether
its input has ended is not looked at. -/
def finishMessage (tail : Bytes) (ended : Bool) : FileDownload :=
  let delivered := download.deliver (some tail)
  { delivered.onBody [] true with
    intact := delivered.intact && (ended || download.complete)
    complete := true }

def step : DownloadAction → Option FileDownload
  | .opened ok =>
      if download.phase = .opening then
        some (if ok then { download with phase := .running }
          else
            { download with
              phase := .finished
              onDone := download.onDone ++ [(false, 0)] })
      else none
  | .headers status framing encoded =>
      if download.receives ∧ download.framing = none then
        some { download.onHeaders status with
          status := if download.complete then download.status else status
          framing := some framing
          encoded
          received := 0 }
      else none
  | .chunk wire decoded =>
      if download.receives ∧ download.fits wire ∧
          (download.encoded ∨ decoded = some wire) then
        some { download.deliver decoded with
          received := download.received + wire.length }
      else none
  | .messageEnd tail ended =>
      if download.receives ∧ download.endsHere ∧
          (download.encoded ∨ tail = [] ∧ ended) then
        some { download.finishMessage tail ended with
          framing := none
          through := download.framing = some .stream }
      else none
  | .lastFrame wire decoded tail ended =>
      if download.receives ∧ download.framing = some .stream then
        if download.encoded then
          some { (download.deliver decoded).finishMessage tail ended with
            framing := none
            through := true }
        else
          some { download.onBody wire true with
            body := download.body ++ wire
            complete := true
            framing := none
            through := true }
      else none
  | .readEnd =>
      if download.receives ∧ download.complete then
        some { download with through := true }
      else none
  | .connectionEnd orderly ended =>
      if download.receives ∧ download.framing ≠ some .stream ∧
          ¬download.complete ∧ (download.encoded ∨ ended) then
        some { download.onBody [] true with
          intact := download.intact && orderly && ended &&
            decide (download.framing = some .untilClose)
          complete := true
          through := true }
      else none
  | .reset =>
      if download.receives ∧ (download.framing = some .stream ∨
          download.framing = none ∧ ¬download.complete) then
        some { download.onBody [] true with
          intact := false, complete := true, through := true }
      else none
  | .giveUp =>
      if download.receives then
        some { download with
          intact := download.intact && download.complete
          through := true }
      else none
  | .written index ok =>
      download.pendingWrites[index]?.map fun write =>
        download.onWritten write (download.pendingWrites.eraseIdx index) ok
  | .closed =>
      if download.phase = .closing then
        some { download with
          phase := .finished
          onDone :=
            download.onDone ++ [(download.success, download.totalBytes)] }
      else none

/-- The response breaks off or cannot be decoded, its last bytes come with
the end, or another one is in the same read. -/
def Breaks : DownloadAction → Prop
  | .headers _ _ _ => download.complete = true
  | .chunk _ decoded => decoded = none
  | .messageEnd _ ended => ended = false
  | .lastFrame wire decoded _ ended =>
      if download.encoded then decoded = none ∨ ended = false else wire ≠ []
  | .connectionEnd orderly ended =>
      orderly = false ∨ ended = false ∨ download.framing ≠ some .untilClose
  | .reset => True
  | .giveUp => download.complete = false
  | .opened _ | .readEnd | .written _ _ | .closed => False

instance (action : DownloadAction) : Decidable (download.Breaks action) := by
  cases action <;> unfold Breaks <;> infer_instance

/-- Every byte of the body is in the file or in a write. -/
structure Stores : Prop where
  total : download.totalBytes = download.body.length
  offset : download.offset = download.body.length
  writes : ∀ write ∈ download.pendingWrites, ∀ place < write.data.length,
    download.body[write.offset + place]? = write.data[place]?
  place : ∀ place, download.file place = download.body[place]? ∨
    ∃ write ∈ download.pendingWrites, write.offset ≤ place ∧
      place < write.offset + write.data.length

/-- What holds in front of `FinishIfDone`. -/
structure Loose : Prop where
  stores : download.success = true → download.Stores
  status : download.success = true →
    download.framing ≠ none ∨ download.complete = true →
    200 ≤ download.status ∧ download.status < 300
  done : download.bodyDone = download.complete
  intact : download.intact = true
  past : download.complete = true →
    download.framing = none ∨ download.through = true
  through : download.through = true → download.complete = true
  early : download.phase = .opening → download.bodyDone = false
  closing : download.phase = .closing →
    download.bodyDone = true ∧ download.pendingWrites = []
  silent : download.phase ≠ .finished → download.onDone = []
  told : download.phase = .finished → download.onDone = [(false, 0)] ∨
    download.onDone = [(download.success, download.totalBytes)] ∧
      download.bodyDone = true ∧ download.pendingWrites = []

structure Sound : Prop extends Loose download where
  running : download.phase = .running → download.bodyDone = true →
    download.pendingWrites ≠ []

variable {download} {next : FileDownload}

theorem Loose.finishIfDone (loose : download.Loose) :
    download.finishIfDone.Sound := by
  unfold FileDownload.finishIfDone
  split
  case isTrue ready =>
    obtain ⟨done, none, running⟩ := ready
    refine { loose with
      stores := fun success => { loose.stores success with },
      early := nofun, closing := fun _ => ⟨done, none⟩, silent := ?_,
      told := nofun, running := nofun }
    intro _
    exact loose.silent (by simp [running])
  case isFalse busy =>
    refine { loose with running := fun running done none => busy ?_ }
    exact ⟨done, none, running⟩

/-- The response is being received. -/
structure Incoming (download : FileDownload) : Prop where
  running : download.phase = .running
  announced : download.framing ≠ none
  incomplete : download.complete = false
  open' : download.through = false

theorem Sound.incoming (sound : download.Sound)
    (receives : download.receives = true)
    (announced : download.framing ≠ none) : download.Incoming := by
  simp only [FileDownload.receives, Bool.and_eq_true, Bool.or_eq_true,
    decide_eq_true_eq, Bool.not_eq_true'] at receives
  obtain ⟨phase, open'⟩ := receives
  have incomplete : download.complete = false := by
    refine eq_false_of_ne_true fun complete => ?_
    rcases sound.past complete with none | through
    · exact announced none
    · rw [open'] at through
      cases through
  refine ⟨phase.resolve_right fun closing => ?_, announced, incomplete, open'⟩
  have done := (sound.closing closing).1
  rw [sound.done, incomplete] at done
  cases done

theorem Sound.ending (sound : download.Sound) (incoming : download.Incoming)
    (framing : Option BodyFraming) (through : Bool)
    (past : framing = none ∨ through = true) :
    Sound { download.onBody [] true with
      intact := true, complete := true, framing, through } := by
  have same : { download.onBody [] true with
      intact := true, complete := true, framing, through } =
        finishIfDone { download with
          bodyDone := true, intact := true, complete := true, framing,
          through } := by
    unfold FileDownload.onBody FileDownload.finishIfDone
    rw [if_pos rfl]
    dsimp only
    split <;> rfl
  have running := incoming.running
  rw [same]
  exact Loose.finishIfDone { sound.toLoose with
    stores := fun success => { sound.stores success with }
    status := fun success _ =>
      sound.status success (.inl incoming.announced)
    done := rfl
    intact := rfl
    past := fun _ => past
    through := fun _ => rfl
    early := fun phase => nomatch running.symm.trans phase
    closing := fun phase => nomatch running.symm.trans phase
    told := fun phase => nomatch running.symm.trans phase }

theorem getElem?_append_some {front back : Bytes} {place : Nat} {byte : UInt8}
    (found : front[place]? = some byte) :
    (front ++ back)[place]? = some byte := by
  rw [List.getElem?_append_left (List.getElem?_eq_some_iff.mp found).1]
  exact found

theorem Stores.append (stores : download.Stores) {data : Bytes}
    {downloadPaused : Bool} :
    Stores { download with
      totalBytes := download.totalBytes + data.length
      pendingWrites := download.pendingWrites ++ [⟨download.offset, data⟩]
      offset := download.offset + data.length
      downloadPaused
      body := download.body ++ data } := by
  constructor
  case total =>
    show _ = (download.body ++ data).length
    rw [List.length_append, stores.total]
  case offset =>
    show _ = (download.body ++ data).length
    rw [List.length_append, stores.offset]
  case writes =>
    intro write member place inside
    rcases List.mem_append.mp member with old | new
    · have found := stores.writes write old place inside
      have byte := List.getElem?_eq_getElem inside
      rw [byte] at found ⊢
      exact getElem?_append_some found
    · obtain rfl := List.mem_singleton.mp new
      show (download.body ++ data)[download.offset + place]? = data[place]?
      rw [stores.offset, List.getElem?_append_right (Nat.le_add_right _ _),
        Nat.add_sub_cancel_left]
  case place =>
    intro place
    by_cases inside : place < download.body.length
    · rcases stores.place place with stored | ⟨write, member, covers⟩
      · left
        show download.file place = (download.body ++ data)[place]?
        rw [stored, List.getElem?_append_left inside]
      · exact .inr ⟨write, List.mem_append_left _ member, covers⟩
    · by_cases covers : place < download.body.length + data.length
      · refine .inr ⟨⟨download.offset, data⟩,
          List.mem_append_right _ List.mem_cons_self, ?_⟩
        rw [stores.offset]
        exact ⟨Nat.le_of_not_lt inside, covers⟩
      · rcases stores.place place with stored | ⟨write, member, covers'⟩
        · left
          show download.file place = (download.body ++ data)[place]?
          rw [stored, List.getElem?_eq_none (Nat.le_of_not_lt inside),
            List.getElem?_eq_none (by rw [List.length_append]; omega)]
        · exact .inr ⟨write, List.mem_append_left _ member, covers'⟩

variable {index : Nat} {write : FileWrite}

theorem mem_eraseIdx_or_eq {writes : List FileWrite} {other : FileWrite}
    (found : writes[index]? = some write) (member : other ∈ writes) :
    other = write ∨ other ∈ writes.eraseIdx index := by
  obtain ⟨inside, rfl⟩ := List.getElem?_eq_some_iff.mp found
  have moved := (List.getElem_cons_eraseIdx_perm inside).mem_iff.mpr member
  exact List.mem_cons.mp moved

theorem Stores.written (stores : download.Stores)
    (found : download.pendingWrites[index]? = some write) :
    Stores { download with
      pendingWrites := download.pendingWrites.eraseIdx index
      file := download.store write } := by
  refine ⟨stores.total, stores.offset, ?_, ?_⟩
  · intro other left
    exact stores.writes other (List.mem_of_mem_eraseIdx left)
  · intro place
    dsimp only
    unfold store
    split
    case isTrue covers =>
      left
      have own := stores.writes write (List.mem_of_getElem? found)
        (place - write.offset) (by omega)
      rw [Nat.add_sub_cancel' covers.1] at own
      exact own.symm
    case isFalse outside =>
      rcases stores.place place with stored | ⟨other, member, covers⟩
      · exact .inl stored
      · rcases mem_eraseIdx_or_eq found member with rfl | left
        · exact absurd covers outside
        · exact .inr ⟨other, left, covers⟩

section

variable (sound : download.Sound)

include sound

theorem Sound.onWritten (found : download.pendingWrites[index]? = some write)
    (ok : Bool) :
    (download.onWritten write (download.pendingWrites.eraseIdx index)
      ok).Sound := by
  have some' : download.pendingWrites ≠ [] :=
    List.ne_nil_of_mem (List.mem_of_getElem? found)
  refine Loose.finishIfDone { sound.toLoose with
    stores := ?_, status := ?_, closing := ?_, told := ?_ }
  · intro success
    obtain ⟨before, rfl⟩ := Bool.and_eq_true_iff.mp success
    have written := (sound.stores before).written found
    exact { written with }
  · intro success
    exact sound.status (Bool.and_eq_true_iff.mp success).1
  · intro phase
    exact absurd (sound.closing phase).2 some'
  · intro phase
    rcases sound.told phase with failed | ⟨_, _, none⟩
    · exact .inl failed
    · exact absurd none some'

theorem Sound.deliver (incoming : download.Incoming) (data : Bytes) :
    (download.deliver (some data)).Sound ∧
      (download.deliver (some data)).Incoming := by
  obtain ⟨running, announced, incomplete, open'⟩ := incoming
  have more : download.bodyDone = false := sound.done.trans incomplete
  have first : download.deliver (some data) =
      { download.onBody data false with body := download.body ++ data } :=
    congrArg (fun body => { download.onBody data false with body })
      (if_neg (by simp [incomplete]))
  rw [first]
  unfold FileDownload.onBody
  rw [if_neg Bool.false_ne_true]
  split
  case isTrue empty =>
    rw [empty, List.append_nil]
    exact ⟨sound, running, announced, incomplete, open'⟩
  case isFalse =>
    dsimp only
    split
    case isTrue failed =>
      refine ⟨{ sound with
        stores := ?_, told := fun phase => nomatch running.symm.trans phase },
        running, announced, incomplete, open'⟩
      intro success
      rw [show download.success = true from success] at failed
      cases failed
    case isFalse =>
      rw [if_neg (not_not_intro running)]
      exact ⟨{ sound with
        stores := fun success => (sound.stores success).append
        closing := fun phase => nomatch running.symm.trans phase
        told := fun phase => nomatch running.symm.trans phase
        running := fun _ done => nomatch more.symm.trans done },
        running, announced, incomplete, open'⟩

theorem Sound.finishMessage (incoming : download.Incoming) (tail : Bytes)
    (through : Bool) :
    Sound { download.finishMessage tail true with
      framing := none, through } := by
  obtain ⟨delivered, still⟩ := sound.deliver incoming tail
  have ended := delivered.ending still none through (.inl rfl)
  unfold FileDownload.finishMessage
  dsimp only
  rw [delivered.intact]
  exact ended

theorem Sound.opened (opening : download.phase = .opening) (ok : Bool) :
    Sound (if ok then { download with phase := .running }
      else
        { download with
          phase := .finished
          onDone := download.onDone ++ [(false, 0)] }) := by
  have early := sound.early opening
  have silent := sound.silent (by simp [opening])
  cases ok with
  | true =>
    exact { sound with
      stores := fun success => { sound.stores success with }
      early := nofun
      closing := nofun
      silent := fun _ => silent
      told := nofun
      running := fun _ done => nomatch early.symm.trans done }
  | false =>
    refine { sound with
      stores := fun success => { sound.stores success with },
      early := nofun, closing := nofun, told := fun _ => .inl ?_,
      silent := fun other => absurd rfl other, running := nofun }
    show download.onDone ++ [(false, 0)] = _
    rw [silent]
    rfl

theorem Sound.headers (receives : download.receives = true)
    (incomplete : download.complete = false) (status : Nat)
    (framing : BodyFraming) (encoded : Bool) :
    Sound { download.onHeaders status with
      status := if download.complete then download.status else status
      framing := some framing
      encoded
      received := 0 } := by
  refine { sound with
    stores := ?_, status := ?_, past := ?_, told := ?_ }
  · intro success
    have before := (Bool.and_eq_true_iff.mp success).1
    exact { sound.stores before with }
  · intro success _
    dsimp only
    rw [incomplete, if_neg Bool.false_ne_true]
    exact of_decide_eq_true (Bool.and_eq_true_iff.mp success).2
  · exact fun complete => nomatch incomplete.symm.trans complete
  · intro (finished : download.phase = .finished)
    rw [FileDownload.receives, finished] at receives
    cases receives

/-- The frame that ends a stream has no bytes. -/
theorem Sound.emptyFrame (incoming : download.Incoming) :
    Sound { download.onBody [] true with
      body := download.body ++ []
      complete := true
      framing := none
      through := true } := by
  have kept : (download.onBody [] true).body = download.body ∧
      (download.onBody [] true).intact = true := by
    unfold FileDownload.onBody FileDownload.finishIfDone
    rw [if_pos rfl]
    split <;> exact ⟨rfl, sound.intact⟩
  change Sound { download.onBody [] true with
    intact := (download.onBody [] true).intact
    body := download.body ++ []
    complete := true, framing := none, through := true }
  rw [List.append_nil, ← kept.1, kept.2]
  exact sound.ending incoming none true (.inl rfl)

theorem Sound.lastFrame {wire tail : Bytes} {decoded : Option Bytes}
    {ended : Bool}
    (kept : ¬download.Breaks (.lastFrame wire decoded tail ended))
    (taken : download.step (.lastFrame wire decoded tail ended) = some next) :
    next.Sound := by
  obtain ⟨ready, taken⟩ := Option.ite_none_right_eq_some.mp taken
  have incoming := sound.incoming ready.1 (by simp [ready.2])
  dsimp only [Breaks] at kept
  split at kept
  case isTrue encoded =>
    rw [if_pos encoded] at taken
    obtain rfl := Option.some.inj taken
    obtain ⟨decodes, ends⟩ := not_or.mp kept
    obtain ⟨data, rfl⟩ := Option.ne_none_iff_exists'.mp decodes
    obtain rfl : ended = true := Bool.not_eq_false _ ▸ ends
    obtain ⟨delivered, still⟩ := sound.deliver incoming data
    exact delivered.finishMessage still tail true
  case isFalse plain =>
    rw [if_neg plain] at taken
    obtain rfl := Option.some.inj taken
    obtain rfl : wire = [] := not_not.mp kept
    exact sound.emptyFrame incoming

theorem Sound.connectionEnd {orderly ended : Bool}
    (kept : ¬download.Breaks (.connectionEnd orderly ended))
    (taken : download.step (.connectionEnd orderly ended) = some next) :
    next.Sound := by
  obtain ⟨ready, ⟨⟩⟩ := Option.ite_none_right_eq_some.mp taken
  obtain ⟨inOrder, kept⟩ := not_or.mp kept
  obtain ⟨ends, closes⟩ := not_or.mp kept
  obtain rfl : orderly = true := Bool.not_eq_false _ ▸ inOrder
  obtain rfl : ended = true := Bool.not_eq_false _ ▸ ends
  have closes := not_not.mp closes
  have incoming := sound.incoming ready.1 (by simp [closes])
  have full : (download.intact && true && true &&
      decide (download.framing = some .untilClose)) = true := by
    rw [sound.intact, closes]
    rfl
  rw [full]
  exact sound.ending incoming (download.onBody [] true).framing true
    (.inr rfl)

theorem Sound.closed (closing : download.phase = .closing) :
    Sound { download with
      phase := .finished
      onDone :=
        download.onDone ++ [(download.success, download.totalBytes)] } := by
  obtain ⟨done, none⟩ := sound.closing closing
  have silent := sound.silent (by simp [closing])
  refine { sound with
    stores := fun success => { sound.stores success with },
    early := nofun, closing := nofun, told := fun _ => .inr ?_,
    silent := fun other => absurd rfl other, running := nofun }
  show download.onDone ++ [_] = _ ∧ _
  rw [silent]
  exact ⟨rfl, done, none⟩

theorem Sound.step {action : DownloadAction} (kept : ¬download.Breaks action)
    (taken : download.step action = some next) : next.Sound := by
  cases action with
  | opened ok =>
    obtain ⟨opening, ⟨⟩⟩ := Option.ite_none_right_eq_some.mp taken
    exact sound.opened opening ok
  | headers status framing encoded =>
    obtain ⟨ready, ⟨⟩⟩ := Option.ite_none_right_eq_some.mp taken
    exact sound.headers ready.1 (eq_false_of_ne_true kept) ..
  | chunk wire decoded =>
    obtain ⟨ready, ⟨⟩⟩ := Option.ite_none_right_eq_some.mp taken
    obtain ⟨data, rfl⟩ := Option.ne_none_iff_exists'.mp kept
    have incoming := sound.incoming ready.1 fun unknown => by
      have fits := ready.2.1
      rw [FileDownload.fits, unknown] at fits
      cases fits
    have delivered := (sound.deliver incoming data).1
    exact { delivered with
      stores := fun success => { delivered.stores success with } }
  | messageEnd tail ended =>
    obtain ⟨ready, ⟨⟩⟩ := Option.ite_none_right_eq_some.mp taken
    obtain rfl : ended = true := Bool.not_eq_false _ ▸ kept
    refine sound.finishMessage (sound.incoming ready.1 fun unknown => ?_) ..
    have ends := ready.2.1
    rw [endsHere, unknown] at ends
    cases ends
  | lastFrame wire decoded tail ended => exact sound.lastFrame kept taken
  | readEnd =>
    obtain ⟨ready, ⟨⟩⟩ := Option.ite_none_right_eq_some.mp taken
    exact { sound with
      stores := fun success => { sound.stores success with }
      past := fun _ => .inr rfl
      through := fun _ => ready.2 }
  | connectionEnd orderly ended => exact sound.connectionEnd kept taken
  | reset => exact absurd trivial kept
  | giveUp =>
    obtain ⟨-, ⟨⟩⟩ := Option.ite_none_right_eq_some.mp taken
    have complete : download.complete = true := Bool.not_eq_false _ ▸ kept
    refine { sound with
      stores := fun success => { sound.stores success with }
      intact := ?_
      past := fun _ => .inr rfl
      through := fun _ => complete }
    rw [sound.intact, complete]
    rfl
  | written index ok =>
    obtain ⟨write, found, rfl⟩ := Option.map_eq_some_iff.mp taken
    exact sound.onWritten found ok
  | closed =>
    obtain ⟨closing, ⟨⟩⟩ := Option.ite_none_right_eq_some.mp taken
    exact sound.closed closing

end

/-- Where the response arrives as announced and can be decoded, its last bytes
do not come with the end and no other one comes with it: `on_done` is called at
most once, and once when the client is through, all writes are back and the
file is closed.  It is told of success only for a complete 2xx response whose
body is the file. -/
theorem download_is_whole {actions : List DownloadAction}
    (ran : perform FileDownload.step {} actions = some download)
    (kept : Avoids FileDownload.step Breaks {} actions) :
    download.onDone.length ≤ 1 ∧
    (download.through = true → download.pendingWrites = [] →
      download.phase ≠ .closing → download.onDone.length = 1) ∧
    ∀ size, (true, size) ∈ download.onDone →
      200 ≤ download.status ∧ download.status < 300 ∧
      download.complete = true ∧ download.intact = true ∧
      size = download.body.length ∧
      ∀ place, download.file place = download.body[place]? := by
  have sound : download.Sound := by
    refine perform_avoiding (fun sound kept taken => sound.step kept taken)
      ran kept ?_
    refine ⟨⟨fun _ => ?_, ?_, rfl, rfl, ?_, ?_, ?_, ?_, ?_, ?_⟩, ?_⟩
    · exact ⟨rfl, rfl, by simp, fun _ => .inl rfl⟩
    all_goals simp
  have once : download.phase = .finished → download.onDone.length = 1 := by
    intro finished
    rcases sound.told finished with failed | ⟨told, _⟩
    · rw [failed]
      rfl
    · rw [told]
      rfl
  have never : download.phase ≠ .finished → download.onDone = [] :=
    sound.silent
  refine ⟨?_, ?_, ?_⟩
  · by_cases finished : download.phase = .finished
    · exact Nat.le_of_eq (once finished)
    · rw [never finished]
      exact Nat.zero_le 1
  · intro through back notClosing
    have done := sound.done.trans (sound.through through)
    cases phase : download.phase with
    | opening => exact nomatch (sound.early phase).symm.trans done
    | running => exact absurd back (sound.running phase done)
    | closing => exact absurd phase notClosing
    | finished => exact once phase
  · intro size member
    have finished : download.phase = .finished := by
      by_contra unfinished
      rw [never unfinished] at member
      cases member
    rcases sound.told finished with failed | ⟨told, done, back⟩
    · rw [failed, List.mem_singleton] at member
      cases member
    · rw [told, List.mem_singleton] at member
      obtain ⟨success, rfl⟩ := Prod.mk.inj member
      have success := success.symm
      have complete := sound.done.symm.trans done
      have stores := sound.stores success
      obtain ⟨low, high⟩ := sound.status success (.inr complete)
      refine ⟨low, high, complete, sound.intact, stores.total,
        fun place => ?_⟩
      rcases stores.place place with stored | ⟨write, among, _⟩
      · exact stored
      · rw [back] at among
        cases among

/-- Three bytes in two chunks, whose writes come back the other way round. -/
def threeBytes : List DownloadAction :=
  [.opened true, .headers 200 (.length 3) false, .chunk [1, 2] (some [1, 2]),
    .chunk [3] (some [3]), .messageEnd [] true, .readEnd, .written 1 true,
    .written 0 true, .closed]

theorem download_is_whole_threeBytes :
    ∃ download, perform FileDownload.step {} threeBytes = some download ∧
      download.onDone = [(true, 3)] ∧ download.body = [1, 2, 3] ∧
      ∀ place, download.file place = download.body[place]? := by
  have ran : perform FileDownload.step {} threeBytes =
    some ((perform FileDownload.step {} threeBytes).getD {}) := rfl
  have whole := (download_is_whole ran (by decide)).2.2 3 List.mem_cons_self
  exact ⟨_, ran, rfl, rfl, whole.2.2.2.2.2⟩

/-- A connection that breaks off in the midst of the announced body, a frame
with the last bytes of a stream, a connection that does not open, a second
response in the same read, and a body that cannot be decoded. -/
theorem download_not_whole :
    (perform FileDownload.step {}
        [.opened true, .headers 200 (.length 3) false,
          .chunk [1, 2] (some [1, 2]), .connectionEnd true true,
          .written 0 true, .closed]).map
        (fun download => (download.onDone, download.intact)) =
      some ([(true, 2)], false) ∧
    (perform FileDownload.step {}
        [.opened true, .headers 200 .stream false,
          .lastFrame [1, 2, 3] none [] true, .closed]).map
        (fun download => (download.onDone, download.body,
          download.file 0)) =
      some ([(true, 0)], [1, 2, 3], none) ∧
    (perform FileDownload.step {} [.opened true, .giveUp]).map
        (fun download => (download.onDone, download.through,
          download.pendingWrites, download.phase)) =
      some ([], true, [], .running) ∧
    (perform FileDownload.step {}
        [.opened true, .headers 200 (.length 1) false, .chunk [1] (some [1]),
          .messageEnd [] true, .headers 200 (.length 1) false,
          .chunk [2] (some [2]), .messageEnd [] true, .readEnd,
          .written 0 true, .written 0 true, .closed]).map
        (fun download => (download.onDone, download.body)) =
      some ([(true, 2)], [1]) ∧
    (perform FileDownload.step {}
        [.opened true, .headers 200 (.length 1) true, .chunk [1] none,
          .messageEnd [] false, .readEnd, .closed]).map
        (fun download => (download.onDone, download.intact)) =
      some ([(true, 0)], false) :=
  ⟨by decide +kernel, by decide +kernel, by decide +kernel,
    by decide +kernel, by decide +kernel⟩

end FileDownload

end Libnei.Http
