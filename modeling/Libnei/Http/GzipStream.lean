import Libnei.Http.Message

/-!
# Content coding

`gzip_stream.cpp`: the wrappers around zlib's `inflate` and `deflate`, which
call zlib with one output window after the other.  zlib itself is a
parameter.
-/

namespace Libnei.Http

inductive GzipEncoding
  | gzip | zlib | deflate
deriving DecidableEq

def windowBitsFor : GzipEncoding → Int
  | .gzip => 15 + 16
  | .zlib => 15
  | .deflate => -15

/-- The return codes that the wrappers tell apart. -/
inductive ZReturn
  | ok | streamEnd | bufError | error
deriving DecidableEq

inductive ZFlush
  | noFlush | finish
deriving DecidableEq

/-- What a call of `inflate` or `deflate` leaves in the stream. -/
structure ZCall (Stream : Type) where
  code : ZReturn
  produced : Bytes
  unread : Bytes
  stream : Stream

/-- One direction of zlib: a call is given the input and the size of the
output window.  A call that fills its window leaves less to be produced. -/
structure ZCodec where
  Stream : Type
  call : ZFlush → Stream → Bytes → Nat → ZCall Stream
  backlog : Stream → Bytes → Nat
  backlog_of_full : ∀ {flush stream input room}, 0 < room →
    (call flush stream input room).produced.length = room →
      backlog (call flush stream input room).stream
          (call flush stream input room).unread <
        backlog stream input

/-- zlib.  With `Z_FINISH`, `deflate` comes nearer to the end of the stream
with every call until it reaches it. -/
structure Zlib where
  inflate : ZCodec
  inflateInit2 : Int → Option inflate.Stream
  deflate : ZCodec
  deflateInit2 : Int → Int → Option deflate.Stream
  backlog_of_finish : ∀ {stream input room}, 0 < room →
    (deflate.call .finish stream input room).code ≠ .streamEnd →
      deflate.backlog (deflate.call .finish stream input room).stream
          (deflate.call .finish stream input room).unread <
        deflate.backlog stream input

/-- No stream can be set up, as when memory has run out. -/
def Zlib.exhausted : Zlib where
  inflate :=
    { Stream := Empty
      call := fun _ stream => nomatch stream
      backlog := fun stream => nomatch stream
      backlog_of_full := fun {_ stream} => nomatch stream }
  inflateInit2 _ := none
  deflate :=
    { Stream := Empty
      call := fun _ stream => nomatch stream
      backlog := fun stream => nomatch stream
      backlog_of_full := fun {_ stream} => nomatch stream }
  deflateInit2 _ _ := none
  backlog_of_finish := fun {stream} => nomatch stream

def chunkSize : Nat := 16 * 1024

/-- `zs.avail_in = static_cast<uInt>(len)`: the input that zlib gets to
see. -/
def availIn (data : Bytes) : Bytes :=
  data.take (data.length % 2 ^ 32)

/-! ## Compression -/

namespace GzipCompressor

variable {zlib : Zlib}

/-- The loop in `Compress`; the return code is not looked at. -/
def compressLoop (stream : zlib.deflate.Stream) (input out : Bytes) :
    zlib.deflate.Stream × Bytes :=
  let call := zlib.deflate.call .noFlush stream input chunkSize
  if _ : (zlib.deflate.call .noFlush stream input
      chunkSize).produced.length = chunkSize then
    compressLoop call.stream call.unread (out ++ call.produced)
  else (call.stream, out ++ call.produced)
termination_by zlib.deflate.backlog stream input
decreasing_by
  apply zlib.deflate.backlog_of_full (by decide)
  assumption

/-- The loop in `Finish`, which goes on to the end of the stream. -/
def finishLoop (stream : zlib.deflate.Stream) (input out : Bytes) : Bytes :=
  let call := zlib.deflate.call .finish stream input chunkSize
  if _ : (zlib.deflate.call .finish stream input
      chunkSize).code = .streamEnd then out ++ call.produced
  else finishLoop call.stream call.unread (out ++ call.produced)
termination_by zlib.deflate.backlog stream input
decreasing_by
  apply zlib.backlog_of_finish (by decide)
  assumption

end GzipCompressor

def GzipCompressor.compress {zlib : Zlib} (done : zlib.deflate.Stream × Bytes)
    (data : Bytes) : zlib.deflate.Stream × Bytes :=
  if data = [] then done
  else GzipCompressor.compressLoop done.1 (availIn data) done.2

/-- What a compressor has produced behind calls of `Compress` and
`Finish`. -/
def compressAll (zlib : Zlib) (level : Int) (encoding : GzipEncoding)
    (calls : List Bytes) : Bytes :=
  match zlib.deflateInit2 level (windowBitsFor encoding) with
  | none => []
  | some stream =>
      let (stream, out) := calls.foldl GzipCompressor.compress (stream, [])
      GzipCompressor.finishLoop stream [] out

/-- `GzipCompress(input, -1)`. -/
def gzipCompress (zlib : Zlib) (input : Bytes) : Bytes :=
  compressAll zlib (-1) .gzip [input]

/-! ## Decompression -/

/-- An initialized decompressor; `input` is what zlib has not read yet, and
`out` everything that was appended to the outputs. -/
structure GzipDecompressor (zlib : Zlib) where
  stream : zlib.inflate.Stream
  input : Bytes := []
  done : Bool := false
  failed : Bool := false
  out : Bytes := []

namespace GzipDecompressor

variable {zlib : Zlib}

/-- The loop in `Decompress`. -/
def decompressLoop (stream : zlib.inflate.Stream) (input out : Bytes) :
    Bool × GzipDecompressor zlib :=
  let call := zlib.inflate.call .noFlush stream input chunkSize
  let out := out ++ call.produced
  let next : GzipDecompressor zlib :=
    { stream := call.stream, input := call.unread, out }
  if call.code = .streamEnd then (true, { next with done := true })
  else if call.code = .error then (false, { next with failed := true })
  else if _ : (zlib.inflate.call .noFlush stream input
      chunkSize).produced.length = chunkSize then
    decompressLoop call.stream call.unread out
  else (true, next)
termination_by zlib.inflate.backlog stream input
decreasing_by
  apply zlib.inflate.backlog_of_full (by decide)
  assumption

def decompress (decompressor : GzipDecompressor zlib) (data : Bytes) :
    Bool × GzipDecompressor zlib :=
  if decompressor.failed ∨ decompressor.done then
    (!decompressor.failed, decompressor)
  else if data = [] then (true, decompressor)
  else decompressLoop decompressor.stream (availIn data) decompressor.out

def finish (decompressor : GzipDecompressor zlib) :
    Bool × GzipDecompressor zlib :=
  if decompressor.failed then (false, decompressor)
  else if decompressor.done then (true, decompressor)
  else
    let call := zlib.inflate.call .finish decompressor.stream
      decompressor.input chunkSize
    let next := { decompressor with
      stream := call.stream
      input := call.unread
      out := decompressor.out ++ call.produced }
    if call.code = .streamEnd then (true, { next with done := true })
    else (false, { next with failed := true })

/-- The results of the calls of `Decompress` and of `Finish`, and what was
appended to the outputs. -/
def run (decompressor : GzipDecompressor zlib) :
    List Bytes → List Bool × Bool × Bytes
  | [] =>
      let (finished, decompressor) := decompressor.finish
      ([], finished, decompressor.out)
  | data :: calls =>
      let (ok, decompressor) := decompressor.decompress data
      let (results, last) := decompressor.run calls
      (ok :: results, last)

end GzipDecompressor

/-- A decompressor that is given the calls; one that could not be set up
fails in every call. -/
def decompressAll (zlib : Zlib) (encoding : GzipEncoding)
    (calls : List Bytes) : List Bool × Bool × Bytes :=
  match zlib.inflateInit2 (windowBitsFor encoding) with
  | none => (calls.map fun _ => false, false, [])
  | some stream => GzipDecompressor.run { stream } calls

end Libnei.Http
