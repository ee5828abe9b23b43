import Libnei.Http.GzipStream

/-!
# Compressed and decompressed again

Under the assumption that zlib is a lossless codec for windows of less than
2 ^ 32 bytes, the decompressor gives back what zlib has been shown of the
data, however the calls are cut.
-/

namespace Libnei.Http

/-- zlib is a lossless codec: `Encodes` relates the complete streams to their
contents.  The other relations say of a stream what it has taken and what it
has produced. -/
structure Lossless (zlib : Zlib) (level : Int) (encoding : GzipEncoding) where
  Encodes : Bytes → Bytes → Prop
  Deflating : zlib.deflate.Stream → Bytes → Bytes → Prop
  Finishing : zlib.deflate.Stream → Bytes → Bytes → Prop
  Inflating : zlib.inflate.Stream → Bytes → Bytes → Prop
  deflateInit : ∃ stream,
    zlib.deflateInit2 level (windowBitsFor encoding) = some stream ∧
      Deflating stream [] []
  inflateInit : ∃ stream,
    zlib.inflateInit2 (windowBitsFor encoding) = some stream ∧
      Inflating stream [] []
  not_empty : ∀ {whole content}, Encodes whole content → whole ≠ []
  deflate_noFlush : ∀ {stream taken made input room},
    Deflating stream taken made → input.length < 2 ^ 32 →
    0 < room → room < 2 ^ 32 →
    let call := zlib.deflate.call .noFlush stream input room
    ∃ consumed, input = consumed ++ call.unread ∧
      Deflating call.stream (taken ++ consumed) (made ++ call.produced) ∧
      (call.produced.length ≠ room → call.unread = [])
  deflate_finish : ∀ {stream taken made room},
    Deflating stream taken made ∨ Finishing stream taken made →
    0 < room → room < 2 ^ 32 →
    let call := zlib.deflate.call .finish stream [] room
    call.unread = [] ∧ Finishing call.stream taken (made ++ call.produced) ∧
      (call.code = .streamEnd → Encodes (made ++ call.produced) taken)
  /-- What was fed is the front of a complete stream.  A call that does not
  fill its window has used up its input. -/
  inflate : ∀ {flush whole content stream eaten given input room},
    Encodes whole content → Inflating stream eaten given →
    eaten ++ input <+: whole → input.length < 2 ^ 32 →
    0 < room → room < 2 ^ 32 →
    let call := zlib.inflate.call flush stream input room
    ∃ consumed, input = consumed ++ call.unread ∧
      Inflating call.stream (eaten ++ consumed) (given ++ call.produced) ∧
      call.code ≠ .error ∧
      (call.code = .streamEnd →
        eaten ++ consumed = whole ∧ given ++ call.produced = content) ∧
      (call.produced.length ≠ room → call.unread = [] ∧
        (eaten ++ input = whole → call.code = .streamEnd))

theorem chunkSize_lt : chunkSize < 2 ^ 32 := by decide

theorem availIn_length_lt (data : Bytes) : (availIn data).length < 2 ^ 32 := by
  have bound := Nat.mod_lt data.length (show 0 < 2 ^ 32 by decide)
  rw [availIn, List.length_take]
  omega

variable {data input : Bytes}

theorem availIn_eq (small : data.length < 2 ^ 32) : availIn data = data := by
  rw [availIn, Nat.mod_eq_of_lt small, List.take_length]

namespace Lossless

variable {zlib : Zlib} {level : Int} {encoding : GzipEncoding}
  (codec : Lossless zlib level encoding)

/-! ## Compression -/

variable {stream : zlib.deflate.Stream} {decompressor : GzipDecompressor zlib}
  {calls : List Bytes}

theorem compressLoop_spec {taken out : Bytes}
    (deflating : codec.Deflating stream taken out)
    (small : input.length < 2 ^ 32) :
    codec.Deflating (GzipCompressor.compressLoop stream input out).1
      (taken ++ input) (GzipCompressor.compressLoop stream input out).2 := by
  revert taken
  fun_induction GzipCompressor.compressLoop stream input out with
  | case1 stream input out call full ih =>
    intro taken deflating
    obtain ⟨consumed, whole, next, -⟩ :=
      codec.deflate_noFlush deflating small (by decide) chunkSize_lt
    have fewer := congrArg List.length whole
    rw [List.length_append] at fewer
    change _ = _ + call.unread.length at fewer
    have rest := ih (Nat.lt_of_le_of_lt (by omega) small) next
    rwa [List.append_assoc, ← whole] at rest
  | case2 stream input out call notFull =>
    intro taken deflating
    obtain ⟨consumed, whole, next, used⟩ :=
      codec.deflate_noFlush deflating small (by decide) chunkSize_lt
    rw [used notFull, List.append_nil] at whole
    rwa [whole]

theorem foldl_compress_spec {done : zlib.deflate.Stream × Bytes}
    {taken : Bytes} (deflating : codec.Deflating done.1 taken done.2)
    (calls : List Bytes) :
    codec.Deflating (calls.foldl GzipCompressor.compress done).1
      (taken ++ (calls.map availIn).flatten)
      (calls.foldl GzipCompressor.compress done).2 := by
  induction calls generalizing done taken with
  | nil => simpa using deflating
  | cons data calls ih =>
    rw [List.foldl_cons, List.map_cons, List.flatten_cons, ← List.append_assoc]
    apply ih
    unfold GzipCompressor.compress
    split
    case isTrue empty =>
      rw [empty]
      simpa [availIn] using deflating
    case isFalse some =>
      exact codec.compressLoop_spec deflating (availIn_length_lt data)

theorem finishLoop_spec {taken out : Bytes}
    (deflating : codec.Deflating stream taken out ∨
      codec.Finishing stream taken out) :
    codec.Encodes (GzipCompressor.finishLoop stream [] out) taken := by
  generalize nothing : ([] : Bytes) = input
  fun_induction GzipCompressor.finishLoop stream input out with
  | case1 stream input out call ended =>
    subst nothing
    exact (codec.deflate_finish deflating (by decide) chunkSize_lt).2.2 ended
  | case2 stream input out call more ih =>
    subst nothing
    obtain ⟨used, next, -⟩ :=
      codec.deflate_finish deflating (by decide) chunkSize_lt
    exact ih (.inr next) used.symm

theorem encodes_compressAll (calls : List Bytes) :
    codec.Encodes (compressAll zlib level encoding calls)
      (calls.map availIn).flatten := by
  obtain ⟨stream, ready, deflating⟩ := codec.deflateInit
  rw [compressAll, ready]
  exact codec.finishLoop_spec (.inl
    (@foldl_compress_spec _ _ _ codec (stream, []) [] deflating calls))

/-! ## Decompression -/

/-- A decompressor that was given the front `eaten` of a stream. -/
def Fed (whole content eaten : Bytes) (decompressor : GzipDecompressor zlib) :
    Prop :=
  decompressor.failed = false ∧
    (decompressor.done = true ∧ eaten = whole ∧ decompressor.out = content ∨
      decompressor.done = false ∧ eaten ≠ whole ∧ decompressor.input = [] ∧
        codec.Inflating decompressor.stream eaten decompressor.out)

variable {whole content eaten : Bytes} {codec}

theorem decompressLoop_spec (encodes : codec.Encodes whole content)
    {stream : zlib.inflate.Stream} {out : Bytes}
    (inflating : codec.Inflating stream eaten out)
    (front : eaten ++ input <+: whole) (small : input.length < 2 ^ 32) :
    (GzipDecompressor.decompressLoop stream input out).1 = true ∧
      codec.Fed whole content (eaten ++ input)
        (GzipDecompressor.decompressLoop stream input out).2 := by
  revert eaten
  fun_induction GzipDecompressor.decompressLoop stream input out with
  | case1 stream input out call more next =>
    rename_i ended
    intro eaten inflating front
    obtain ⟨consumed, cut, -, -, final, -⟩ :=
      codec.inflate encodes inflating front small (by decide) chunkSize_lt
    obtain ⟨all, complete⟩ := final ended
    have whole' : eaten ++ input = whole := by
      refine front.eq_of_length_le ?_
      rw [← all, cut]
      simp
    exact ⟨rfl, rfl, .inl ⟨rfl, whole', complete⟩⟩
  | case2 stream input out call more next going =>
    rename_i failed
    intro eaten inflating front
    obtain ⟨consumed, -, -, valid, -⟩ :=
      codec.inflate encodes inflating front small (by decide) chunkSize_lt
    exact absurd failed valid
  | case3 stream input out call more going valid full =>
    rename_i ih
    intro eaten inflating front
    obtain ⟨consumed, cut, inflating, -, -, -⟩ :=
      codec.inflate encodes inflating front small (by decide) chunkSize_lt
    have fewer := congrArg List.length cut
    rw [List.length_append] at fewer
    change _ = _ + call.unread.length at fewer
    have whole' : eaten ++ input = eaten ++ consumed ++ call.unread := by
      rw [List.append_assoc, ← cut]
    rw [whole'] at front ⊢
    exact ih (Nat.lt_of_le_of_lt (by omega) small) inflating front
  | case4 stream input out call more next going valid =>
    rename_i notFull
    intro eaten inflating front
    obtain ⟨consumed, cut, inflating, -, -, used⟩ :=
      codec.inflate encodes inflating front small (by decide) chunkSize_lt
    obtain ⟨nothing, complete⟩ := used notFull
    rw [nothing, List.append_nil] at cut
    rw [← cut] at inflating
    exact ⟨rfl, rfl, .inr ⟨rfl, fun same => going (complete same), nothing,
      inflating⟩⟩

section

variable (fed : codec.Fed whole content eaten decompressor)

include fed

variable (encodes : codec.Encodes whole content)

include encodes

theorem Fed.decompress (front : eaten ++ data <+: whole)
    (small : data.length < 2 ^ 32) :
    (decompressor.decompress data).1 = true ∧
      codec.Fed whole content (eaten ++ data)
        (decompressor.decompress data).2 := by
  obtain ⟨failed, ⟨done, rfl, out⟩ | ⟨going, part, input, inflating⟩⟩ := fed
  · -- Nothing can be behind a complete stream.
    have nothing : data = [] := by
      have length := front.length_le
      rw [List.length_append] at length
      exact List.length_eq_zero_iff.mp (by omega)
    rw [nothing, List.append_nil, GzipDecompressor.decompress,
      if_pos (.inr done), failed]
    exact ⟨rfl, failed, .inl ⟨done, rfl, out⟩⟩
  · rw [GzipDecompressor.decompress, if_neg (by simp [failed, going])]
    split
    case isTrue empty =>
      rw [empty, List.append_nil]
      exact ⟨rfl, failed, .inr ⟨going, part, input, inflating⟩⟩
    case isFalse some =>
      rw [availIn_eq small]
      exact decompressLoop_spec encodes inflating front small

theorem Fed.finish (front : eaten <+: whole) :
    decompressor.finish.1 = decide (eaten = whole) ∧
      (eaten = whole → decompressor.finish.2.out = content) := by
  obtain ⟨failed, ⟨done, rfl, out⟩ | ⟨going, part, input, inflating⟩⟩ := fed
  · simp [GzipDecompressor.finish, failed, done, out]
  · obtain ⟨consumed, cut, -, -, final, -⟩ := @Lossless.inflate zlib level
      encoding codec .finish whole content decompressor.stream eaten
      decompressor.out [] chunkSize encodes inflating
      (by rwa [List.append_nil]) (by decide) (by decide) chunkSize_lt
    have nothing := (List.append_eq_nil_iff.mp cut.symm).1
    have going' : ¬(zlib.inflate.call .finish decompressor.stream []
        chunkSize).code = .streamEnd := by
      intro ended
      have all := (final ended).1
      rw [nothing, List.append_nil] at all
      exact part all
    rw [GzipDecompressor.finish, failed, going, input]
    simp [going', part]

theorem Fed.run (front : eaten ++ calls.flatten <+: whole)
    (small : ∀ data ∈ calls, data.length < 2 ^ 32) :
    (decompressor.run calls).1 = calls.map (fun _ => true) ∧
    (decompressor.run calls).2.1 = decide (eaten ++ calls.flatten = whole) ∧
    (eaten ++ calls.flatten = whole →
      (decompressor.run calls).2.2 = content) := by
  induction calls generalizing eaten decompressor with
  | nil =>
    rw [List.flatten_nil, List.append_nil] at front ⊢
    exact ⟨rfl, fed.finish encodes front⟩
  | cons data calls ih =>
    rw [List.forall_mem_cons] at small
    rw [List.flatten_cons, ← List.append_assoc] at front ⊢
    obtain ⟨ok, next⟩ := fed.decompress encodes
      ((List.prefix_append _ _).trans front) small.1
    obtain ⟨results, rest⟩ := ih next front small.2
    refine ⟨?_, rest⟩
    rw [List.map_cons, ← results, ← ok]
    rfl

end

variable (codec)

/-- The decompressor on the front of a complete stream. -/
theorem decompressAll_spec (encodes : codec.Encodes whole content)
    (front : calls.flatten <+: whole)
    (small : ∀ data ∈ calls, data.length < 2 ^ 32) :
    (decompressAll zlib encoding calls).1 = calls.map (fun _ => true) ∧
    (decompressAll zlib encoding calls).2.1 = decide (calls.flatten = whole) ∧
    (calls.flatten = whole →
      (decompressAll zlib encoding calls).2.2 = content) := by
  obtain ⟨stream, ready, inflating⟩ := codec.inflateInit
  have fed : codec.Fed whole content [] { stream } :=
    ⟨rfl, .inr ⟨rfl, (codec.not_empty encodes).symm, rfl, inflating⟩⟩
  rw [decompressAll, ready]
  exact fed.run encodes front small

end Lossless

/-! ## Round trips -/

theorem flatten_availIn_length_le (calls : List Bytes) :
    (calls.map availIn).flatten.length ≤ calls.flatten.length := by
  induction calls with
  | nil => exact Nat.le_refl 0
  | cons data calls ih =>
    have fewer : (availIn data).length ≤ data.length :=
      List.length_take_le' ..
    simp only [List.map_cons, List.flatten_cons, List.length_append]
    omega

/-- zlib is shown all of the data only where the lengths fit. -/
theorem flatten_availIn_eq_iff (calls : List Bytes) :
    (calls.map availIn).flatten = calls.flatten ↔
      ∀ data ∈ calls, data.length < 2 ^ 32 := by
  constructor
  · intro same
    have length := congrArg List.length same
    clear same
    induction calls with
    | nil => exact nofun
    | cons data calls ih =>
      have fewer := flatten_availIn_length_le calls
      have shown : (availIn data).length ≤ data.length :=
        List.length_take_le' ..
      simp only [List.map_cons, List.flatten_cons, List.length_append] at length
      rw [List.forall_mem_cons]
      refine ⟨?_, ih (by omega)⟩
      have all : (availIn data).length = data.length := by omega
      rw [← all]
      exact availIn_length_lt data
  · intro small
    rw [List.map_congr_left fun data member => availIn_eq (small data member),
      List.map_id']

/-- With calls of `Decompress` that are short enough, whatever was compressed
is decompressed again if and only if the data of each call of `Compress` is
short enough, too.  A part of the stream does not pass. -/
theorem gzip_lossless_iff {zlib : Zlib} {level : Int}
    {encoding : GzipEncoding} (codec : Lossless zlib level encoding)
    (calls : List Bytes) :
    ((∀ pieces : List Bytes, (∀ piece ∈ pieces, piece.length < 2 ^ 32) →
      pieces.flatten = compressAll zlib level encoding calls →
        decompressAll zlib encoding pieces =
          (pieces.map fun _ => true, true, calls.flatten)) ↔
      ∀ data ∈ calls, data.length < 2 ^ 32) ∧
    ∀ pieces : List Bytes, (∀ piece ∈ pieces, piece.length < 2 ^ 32) →
      pieces.flatten <+: compressAll zlib level encoding calls →
      pieces.flatten ≠ compressAll zlib level encoding calls →
        (decompressAll zlib encoding pieces).2.1 = false := by
  have encodes := codec.encodes_compressAll calls
  have result : ∀ pieces : List Bytes,
      (∀ piece ∈ pieces, piece.length < 2 ^ 32) →
      pieces.flatten = compressAll zlib level encoding calls →
        decompressAll zlib encoding pieces = (pieces.map fun _ => true, true,
            (calls.map availIn).flatten) := by
    intro pieces small whole
    obtain ⟨results, finished, out⟩ := codec.decompressAll_spec encodes
      (whole ▸ List.prefix_rfl) small
    exact Prod.ext results (Prod.ext (finished.trans (decide_eq_true whole))
      (out whole))
  refine ⟨⟨fun same => ?_, fun small pieces short whole => ?_⟩,
    fun pieces small front part => ?_⟩
  · -- The stream is given byte by byte.
    have bytewise : ((compressAll zlib level encoding calls).map
        fun byte => [byte]).flatten = compressAll zlib level encoding calls :=
      List.flatMap_singleton' _
    have short : ∀ piece ∈ (compressAll zlib level encoding calls).map
        (fun byte => [byte]), piece.length < 2 ^ 32 := by
      simp
    have both := (result _ short bytewise).symm.trans (same _ short bytewise)
    rw [← flatten_availIn_eq_iff]
    exact (Prod.mk.inj (Prod.mk.inj both).2).2
  · rw [result pieces short whole, (flatten_availIn_eq_iff calls).mpr small]
  · rw [(codec.decompressAll_spec encodes front small).2.1,
      decide_eq_false part]

/-! ## A simple codec

The laws have a model: a one stands in front of every byte of the content,
and a zero behind the last one. -/

namespace SimpleCodec

def body (content : Bytes) : Bytes :=
  content.flatMap fun byte => [1, byte]

def encode (content : Bytes) : Bytes :=
  body content ++ [0]

def decode : Bytes → Bytes
  | mark :: byte :: rest => if mark = 1 then byte :: decode rest else []
  | _ => []

theorem body_append (content more : Bytes) :
    body (content ++ more) = body content ++ body more :=
  List.flatMap_append

theorem encode_cons (byte : UInt8) (content : Bytes) :
    encode (byte :: content) = 1 :: byte :: encode content := rfl

theorem decode_encode (content : Bytes) :
    decode (encode content) = content := by
  induction content with
  | nil => rfl
  | cons byte content ih =>
    rw [encode_cons, decode, if_pos rfl, ih]

theorem decode_front {front whole : Bytes} (isPrefix : front <+: whole) :
    decode front <+: decode whole := by
  obtain ⟨rest, rfl⟩ := isPrefix
  fun_induction decode front with
  | case1 byte front ih =>
    rw [List.cons_append, List.cons_append, decode, if_pos rfl]
    exact List.cons_prefix_cons.mpr ⟨rfl, ih⟩
  | case2 | case3 => exact List.nil_prefix

theorem encode_inj_of_prefix {content other : Bytes}
    (isPrefix : encode content <+: encode other) : content = other := by
  induction content generalizing other with
  | nil =>
    cases other with
    | nil => rfl
    | cons byte other =>
      rw [encode_cons] at isPrefix
      exact absurd (List.cons_prefix_cons.mp isPrefix).1 (by decide)
  | cons byte content ih =>
    rw [encode_cons] at isPrefix
    cases other with
    | nil => exact absurd (List.cons_prefix_cons.mp isPrefix).1 (by decide)
    | cons next other =>
      rw [encode_cons, List.cons_prefix_cons, List.cons_prefix_cons] at isPrefix
      rw [isPrefix.2.1, ih isPrefix.2.2]

/-- The output that is not produced yet, and whether it has its end. -/
structure Deflate where
  pending : Bytes := []
  ended : Bool := false

def Deflate.queue (stream : Deflate) (flush : ZFlush) (input : Bytes) : Bytes :=
  stream.pending ++ body input ++
    if flush = .finish ∧ !stream.ended then [0] else []

theorem Deflate.queue_length (stream : Deflate) (flush : ZFlush)
    (input : Bytes) : (stream.queue flush input).length =
      stream.pending.length + (body input).length +
        if flush = .finish ∧ stream.ended = false then 1 else 0 := by
  rw [queue, List.length_append, List.length_append]
  cases flush <;> cases stream.ended <;> rfl

def Deflate.advance (stream : Deflate) (flush : ZFlush) (input : Bytes)
    (room : Nat) : Deflate where
  pending := (stream.queue flush input).drop room
  ended := stream.ended || flush = .finish

def Deflate.backlog (stream : Deflate) (input : Bytes) : Nat :=
  stream.pending.length + (body input).length +
    if stream.ended then 0 else 1

theorem Deflate.backlog_advance (stream : Deflate) {flush : ZFlush} {room : Nat}
    (positive : 0 < room) (long : room ≤ (stream.queue flush input).length) :
    (stream.advance flush input room).backlog [] < stream.backlog input := by
  have length := stream.queue_length flush input
  have nothing : body [] = [] := rfl
  unfold backlog advance
  cases flush <;> cases ended : stream.ended <;>
    simp [ended, nothing] at length ⊢ <;> omega

def deflate : ZCodec where
  Stream := Deflate
  call flush stream input room :=
    { code := if flush = .finish ∧ (stream.queue flush input).length ≤ room
        then .streamEnd else .ok
      produced := (stream.queue flush input).take room
      unread := []
      stream := stream.advance flush input room }
  backlog := Deflate.backlog
  backlog_of_full := by
    intro flush stream input room positive full
    exact Deflate.backlog_advance stream positive
      (full.ge.trans (List.length_take_le' ..))

/-- The input so far, and how much of its content was produced. -/
structure Inflate where
  eaten : Bytes := []
  given : Nat := 0

def inflate : ZCodec where
  Stream := Inflate
  call _ stream input room :=
    let content := decode (stream.eaten ++ input)
    let produced := (content.drop stream.given).take room
    { code := if stream.eaten ++ input = encode content ∧
        content.length ≤ stream.given + room then .streamEnd else .ok
      produced := produced
      unread := []
      stream :=
        { eaten := stream.eaten ++ input
          given := stream.given + produced.length } }
  backlog stream input :=
    (decode (stream.eaten ++ input)).length - stream.given
  backlog_of_full := by
    intro flush stream input room positive full
    simp only [List.length_take, List.length_drop] at full
    simp only [List.append_nil, List.length_take, List.length_drop]
    omega

def zlib : Zlib where
  inflate := inflate
  inflateInit2 _ := some ({} : Inflate)
  deflate := deflate
  deflateInit2 _ _ := some ({} : Deflate)
  backlog_of_finish := by
    intro stream input room positive more
    refine Deflate.backlog_advance stream positive ?_
    by_contra short
    exact more (if_pos ⟨rfl, Nat.le_of_not_le short⟩)

def lossless (level : Int) (encoding : GzipEncoding) :
    Lossless zlib level encoding where
  Encodes whole content := whole = encode content
  Deflating := fun (stream : Deflate) taken made =>
    stream.ended = false ∧ made ++ stream.pending = body taken
  Finishing := fun (stream : Deflate) taken made =>
    stream.ended = true ∧ made ++ stream.pending = encode taken
  Inflating := fun (stream : Inflate) eaten given =>
    stream.eaten = eaten ∧ stream.given = given.length ∧ given <+: decode eaten
  deflateInit := ⟨_, rfl, rfl, rfl⟩
  inflateInit := ⟨_, rfl, rfl, rfl, List.nil_prefix⟩
  not_empty := by
    rintro whole content rfl
    simp [encode]
  deflate_noFlush := by
    rintro stream taken made input room ⟨going, queued⟩ small positive -
    have queue : stream.queue .noFlush input = stream.pending ++ body input :=
      List.append_nil _
    refine ⟨input, (List.append_nil _).symm, ⟨?_, ?_⟩, fun _ => rfl⟩
    · exact (Bool.or_false _).trans going
    · change made ++ (stream.queue .noFlush input).take room ++
        (stream.queue .noFlush input).drop room = _
      rw [List.append_assoc, List.take_append_drop, queue,
        ← List.append_assoc, queued, body_append]
  deflate_finish := by
    rintro stream taken made room deflating positive -
    have queue : made ++ stream.queue .finish [] = encode taken := by
      obtain ⟨going, queued⟩ | ⟨ended, queued⟩ := deflating
      · have last : stream.queue .finish [] = stream.pending ++ [0] := by
          simp [Deflate.queue, going, body]
        rw [last, ← List.append_assoc, queued, encode]
      · have last : stream.queue .finish [] = stream.pending := by
          simp [Deflate.queue, ended, body]
        rw [last, queued]
    refine ⟨rfl, ⟨Bool.or_true _, ?_⟩, fun code => ?_⟩
    · change made ++ (stream.queue .finish []).take room ++
        (stream.queue .finish []).drop room = _
      rw [List.append_assoc, List.take_append_drop, queue]
    · have short : (stream.queue .finish []).length ≤ room := by
        by_contra long
        exact nomatch (if_neg fun both => long both.2).symm.trans code
      change made ++ (stream.queue .finish []).take room = _
      rw [List.take_of_length_le short, queue]
  inflate := by
    rintro flush whole content stream eaten given input room rfl
      ⟨rfl, count, front⟩ isPrefix - positive -
    have shown := front.trans (decode_front
      (List.prefix_append stream.eaten input))
    have given' : given ++ ((decode (stream.eaten ++ input)).drop
        given.length).take room =
          (decode (stream.eaten ++ input)).take (given.length + room) := by
      rw [List.take_add, ← List.prefix_iff_eq_take.mp shown]
    simp only [inflate, zlib, count]
    refine ⟨input, (List.append_nil _).symm, ⟨rfl, ?_, ?_⟩, ?_, ?_, ?_⟩
    · rw [List.length_append]
    · rw [given']
      exact List.take_prefix ..
    · split <;> simp
    · intro code
      split at code
      case isFalse => cases code
      case isTrue ended =>
          obtain ⟨spelled, short⟩ := ended
          rw [spelled] at isPrefix
          have same := encode_inj_of_prefix isPrefix
          rw [same] at spelled
          refine ⟨spelled, ?_⟩
          rw [given', List.take_of_length_le short, same]
    · intro notFull
      refine ⟨trivial, fun whole => if_pos ?_⟩
      rw [whole, decode_encode] at notFull shown ⊢
      have inside := shown.length_le
      rw [List.length_take, List.length_drop] at notFull
      exact ⟨rfl, by omega⟩

end SimpleCodec

theorem gzip_lossless_iff_twoCalls :
    decompressAll SimpleCodec.zlib .gzip [[1, 7, 1], [8, 1, 9, 0]] =
      ([true, true], true, [7, 8, 9]) ∧
    (decompressAll SimpleCodec.zlib .gzip [[1, 7, 1], [8]]).2.1 = false := by
  have whole : compressAll SimpleCodec.zlib (-1) .gzip [[7, 8], [9]] =
      [1, 7, 1, 8, 1, 9, 0] :=
    (SimpleCodec.lossless (-1) .gzip).encodes_compressAll [[7, 8], [9]]
  obtain ⟨lossless, cut⟩ :=
    gzip_lossless_iff (SimpleCodec.lossless (-1) .gzip) [[7, 8], [9]]
  rw [whole] at lossless cut
  exact ⟨lossless.mpr (by decide) _ (by decide) rfl,
    cut [[1, 7, 1], [8]] (by decide) (by decide) (by decide)⟩

/-- Data of 2 ^ 32 bytes is lost: nothing of it is decompressed. -/
theorem gzip_loses_data :
    decompressAll SimpleCodec.zlib .gzip
        [compressAll SimpleCodec.zlib (-1) .gzip
          [List.replicate (2 ^ 32) 0]] = ([true], true, []) ∧
      List.replicate (2 ^ 32) (0 : UInt8) ≠ [] := by
  have nothing : ([List.replicate (2 ^ 32) 0].map availIn).flatten = [] := by
    rw [List.map_singleton, availIn, List.length_replicate, Nat.mod_self,
      List.take_zero]
    rfl
  have encodes := (SimpleCodec.lossless (-1) .gzip).encodes_compressAll
    [List.replicate (2 ^ 32) 0]
  rw [nothing] at encodes
  have whole : compressAll SimpleCodec.zlib (-1) .gzip
      [List.replicate (2 ^ 32) 0] = [0] :=
    encodes
  rw [whole] at encodes ⊢
  have front : ([[0]] : List Bytes).flatten <+: [0] := List.prefix_rfl
  obtain ⟨results, finished, out⟩ :=
    (SimpleCodec.lossless (-1) .gzip).decompressAll_spec encodes front
      (by decide)
  refine ⟨Prod.ext results (Prod.ext finished (out rfl)), fun empty => ?_⟩
  have length := congrArg List.length empty
  rw [List.length_replicate] at length
  exact absurd length (by decide)

end Libnei.Http
