import Libnei.Bytes
import Libnei.Lib.BlockStream
import Libnei.Lib.LittleEndian

/-!
# Message digests

The contexts of `md5.c`, `sha1.c` and `sha256.c` are handled alike: `update`
collects the message in blocks of 64 bytes, `final` sends the padding and the
length of the message through `update`.  The three differ in their block
transform, in their words and in the order of the bytes of a word.
-/

namespace Libnei.Utils

open Lib

/-- What one of the digests adds to the common handling. -/
structure Digest (σ : Type) where
  start : σ
  transform : σ → Bytes → σ
  /-- `len_bytes` of a length in bits. -/
  lenBytes : Nat → Bytes
  lenBytes_length : ∀ bits, (lenBytes bits).length = 8
  output : σ → Bytes

namespace Digest

variable {σ : Type} (digest : Digest σ)

/-- `buffer` is the part of the buffer that is in use. -/
structure Ctx (σ : Type) where
  state : σ
  totalLen : UInt64
  buffer : Bytes

def init : Ctx σ where
  state := digest.start
  totalLen := 0
  buffer := []

/-- The part of `update` that fills up the buffer: the state and the buffer
behind it, and the data that is left. -/
def fill (ctx : Ctx σ) (data : Bytes) : σ × Bytes × Bytes :=
  if ctx.buffer.length > 0 then
    let need := 64 - ctx.buffer.length
    let buffer := ctx.buffer ++ data.take need
    let rest := data.drop need
    if buffer.length = 64 then (digest.transform ctx.state buffer, [], rest)
    else (ctx.state, buffer, rest)
  else (ctx.state, ctx.buffer, data)

def update (ctx : Ctx σ) (data : Bytes) : Ctx σ :=
  let (state, buffer, rest) := digest.fill ctx data
  let (state, remain) :=
    BlockStream.absorb 64 digest.transform rest.length state rest
  { state
    totalLen := ctx.totalLen + UInt64.ofNat data.length
    buffer := if remain = [] then buffer else remain }

def pad : Bytes := 0x80 :: List.replicate 63 0

/-- `final` up to the state that it writes out. -/
def finish (ctx : Ctx σ) : Ctx σ :=
  let bitLen := ctx.totalLen * 8
  let padded :=
    if ctx.buffer.length < 56 then
      digest.update ctx (pad.take (56 - ctx.buffer.length))
    else
      digest.update (digest.update ctx (pad.take (64 - ctx.buffer.length)))
        ((pad.drop 1).take 56)
  digest.update padded (digest.lenBytes bitLen.toNat)

def final (ctx : Ctx σ) : Bytes :=
  digest.output (digest.finish ctx).state

/-! ## The digest of a message -/

/-- As few zero bytes as there can be for a last block that ends in the eight
bytes of the length. -/
def zeros (message : Bytes) : Bytes :=
  List.replicate ((119 - message.length % 64) % 64) 0

def foldBlocks (transform : σ → Bytes → σ) (start : σ) (padded : Bytes) : σ :=
  (BlockStream.blocks 64 (padded.length / 64) padded).foldl transform start

def padded (message : Bytes) : Bytes :=
  message ++ ([0x80] ++ zeros message ++ digest.lenBytes (8 * message.length))

/-! ## Contexts -/

variable {ctx : Ctx σ} {message : Bytes}

theorem folds_update (short : ctx.buffer.length < 64) (data : Bytes) :
    BlockStream.Folds 64 digest.transform ctx.state (ctx.buffer ++ data)
      (digest.update ctx data).state (digest.update ctx data).buffer := by
  have absorbed := fun state rest =>
    @BlockStream.folds_absorb _ _ 64 digest.transform (by decide)
      (List.length rest) state rest (Nat.le_refl _)
  have kept : ∀ remain : Bytes,
      (if remain = [] then [] else remain) = remain := by
    intro remain
    split
    · case isTrue empty => exact empty.symm
    · rfl
  by_cases empty : ctx.buffer.length = 0
  · obtain nothing := List.eq_nil_of_length_eq_zero empty
    simp only [update, fill, nothing, List.length_nil, gt_iff_lt,
      Nat.lt_irrefl, if_false, List.nil_append, kept]
    exact absorbed ctx.state data
  · have inUse : ctx.buffer.length > 0 := Nat.pos_of_ne_zero empty
    by_cases full : 64 - ctx.buffer.length ≤ data.length
    · have whole : (ctx.buffer ++
          data.take (64 - ctx.buffer.length)).length = 64 := by
        rw [List.length_append, List.length_take_of_le full]
        omega
      simp only [update, fill, inUse, whole, if_true, kept]
      have block := BlockStream.Folds.block whole
        (absorbed (digest.transform ctx.state
          (ctx.buffer ++ data.take (64 - ctx.buffer.length)))
          (data.drop (64 - ctx.buffer.length)))
      rwa [List.append_assoc, List.take_append_drop] at block
    · have all : data.length ≤ 64 - ctx.buffer.length := by omega
      have less : (ctx.buffer ++ data).length < 64 := by
        rw [List.length_append]
        omega
      simp only [update, fill, inUse, if_true, List.take_of_length_le all,
        List.drop_eq_nil_of_le all, Nat.ne_of_lt less, if_false]
      exact .short less

/-- The context stands for the message that has been fed so far. -/
structure Holds (ctx : Ctx σ) (message : Bytes) : Prop where
  folds : BlockStream.Folds 64 digest.transform digest.start message
    ctx.state ctx.buffer
  totalLen_eq : ctx.totalLen = UInt64.ofNat message.length

theorem holds_init : digest.Holds digest.init [] where
  folds := .short (by decide)
  totalLen_eq := rfl

variable {digest}

section

variable (holds : digest.Holds ctx message)

include holds

theorem Holds.update (data : Bytes) :
    digest.Holds (digest.update ctx data) (message ++ data) where
  folds := holds.folds.append (digest.folds_update holds.folds.rest_short data)
  totalLen_eq := by
    rw [List.length_append, UInt64.ofNat_add, ← holds.totalLen_eq]
    rfl

theorem Holds.foldl_update (updates : List Bytes) :
    digest.Holds (updates.foldl digest.update ctx)
      (message ++ updates.flatten) := by
  induction updates generalizing ctx message with
  | nil => simpa using holds
  | cons data updates ih =>
    rw [List.flatten_cons, ← List.append_assoc]
    exact ih (holds.update data)

theorem Holds.finish (short : message.length < 2 ^ 61) :
    digest.Holds (digest.finish ctx) (digest.padded message) := by
  have length := holds.folds.rest_length
  have bits : (ctx.totalLen * 8).toNat = 8 * message.length := by
    rw [holds.totalLen_eq, UInt64.toNat_mul, UInt64.toNat_ofNat']
    simp
    omega
  rw [Digest.finish, bits, padded, ← List.append_assoc]
  refine Holds.update ?_ _
  split
  · case isTrue few =>
    have one : pad.take (56 - ctx.buffer.length) =
        [0x80] ++ zeros message := by
      have count : 56 - ctx.buffer.length =
          (119 - message.length % 64) % 64 + 1 := by
        omega
      rw [count, pad, List.take_succ_cons, List.take_replicate,
        Nat.min_eq_left (by omega)]
      rfl
    rw [← one]
    exact holds.update _
  · case isFalse many =>
    have two : pad.take (64 - ctx.buffer.length) ++ (pad.drop 1).take 56 =
        [0x80] ++ zeros message := by
      have less := holds.folds.rest_short
      have count : 64 - ctx.buffer.length = 63 - ctx.buffer.length + 1 := by
        omega
      have sum : (119 - message.length % 64) % 64 =
          63 - ctx.buffer.length + 56 := by
        omega
      rw [count, zeros, sum, pad, List.take_succ_cons, List.take_replicate,
        Nat.min_eq_left (by omega), List.replicate_add]
      rfl
    rw [← two, ← List.append_assoc]
    exact (holds.update _).update _

end

theorem final_foldl_update (updates : List Bytes)
    (short : updates.flatten.length < 2 ^ 61) :
    digest.final (updates.foldl digest.update digest.init) =
      digest.output (foldBlocks digest.transform digest.start
        (digest.padded updates.flatten)) := by
  have holds := (digest.holds_init.foldl_update updates).finish short
  exact congrArg digest.output holds.folds.foldl_blocks.symm

end Digest

end Libnei.Utils
