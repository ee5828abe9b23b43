import Libnei.Utils.Digest

/-!
# MD5, SHA-1 and SHA-256

The block transforms.  The working variables are records of words, the
schedules are arrays, and the loops are folds over their counters.
-/

namespace Libnei.Utils

open Lib

def rotl32 (word count : UInt32) : UInt32 :=
  word <<< count ||| word >>> (32 - count)

def rotr32 (word count : UInt32) : UInt32 :=
  word >>> count ||| word <<< (32 - count)

def wordAt (words : List Nat) (index : Nat) : UInt32 :=
  UInt32.ofNat (words.getD index 0)

def loadU32BE (bytes : Bytes) (offset : Nat) : UInt32 :=
  UInt32.ofNat (decodeBE ((bytes.drop offset).take 4))

def loadU32LE (bytes : Bytes) (offset : Nat) : UInt32 :=
  UInt32.ofNat (decodeLE ((bytes.drop offset).take 4))

/-- The first sixteen words of a schedule. -/
def loadBlock (load : Bytes → Nat → UInt32) (block : Bytes) : Array UInt32 :=
  Array.ofFn fun index : Fin 16 => load block (index * 4)

/-! ## MD5 -/

namespace Md5

structure State where
  a : UInt32
  b : UInt32
  c : UInt32
  d : UInt32
  deriving DecidableEq

def sTable : List Nat :=
  [7, 12, 17, 22, 7, 12, 17, 22, 7, 12, 17, 22, 7, 12, 17, 22,
   5, 9, 14, 20, 5, 9, 14, 20, 5, 9, 14, 20, 5, 9, 14, 20,
   4, 11, 16, 23, 4, 11, 16, 23, 4, 11, 16, 23, 4, 11, 16, 23,
   6, 10, 15, 21, 6, 10, 15, 21, 6, 10, 15, 21, 6, 10, 15, 21]

def kTable : List Nat :=
  [0xd76aa478, 0xe8c7b756, 0x242070db, 0xc1bdceee, 0xf57c0faf, 0x4787c62a,
   0xa8304613, 0xfd469501, 0x698098d8, 0x8b44f7af, 0xffff5bb1, 0x895cd7be,
   0x6b901122, 0xfd987193, 0xa679438e, 0x49b40821, 0xf61e2562, 0xc040b340,
   0x265e5a51, 0xe9b6c7aa, 0xd62f105d, 0x02441453, 0xd8a1e681, 0xe7d3fbc8,
   0x21e1cde6, 0xc33707d6, 0xf4d50d87, 0x455a14ed, 0xa9e3e905, 0xfcefa3f8,
   0x676f02d9, 0x8d2a4c8a, 0xfffa3942, 0x8771f681, 0x6d9d6122, 0xfde5380c,
   0xa4beea44, 0x4bdecfa9, 0xf6bb4b60, 0xbebfbc70, 0x289b7ec6, 0xeaa127fa,
   0xd4ef3085, 0x04881d05, 0xd9d4d039, 0xe6db99e5, 0x1fa27cf8, 0xc4ac5665,
   0xf4292244, 0x432aff97, 0xab9423a7, 0xfc93a039, 0x655b59c3, 0x8f0ccc92,
   0xffeff47d, 0x85845dd1, 0x6fa87e4f, 0xfe2ce6e0, 0xa3014314, 0x4e0811a1,
   0xf7537e82, 0xbd3af235, 0x2ad7d2bb, 0xeb86d391]

def f (x y z : UInt32) : UInt32 := x &&& y ||| ~~~x &&& z
def g (x y z : UInt32) : UInt32 := x &&& z ||| y &&& ~~~z
def h (x y z : UInt32) : UInt32 := x ^^^ y ^^^ z
def i (x y z : UInt32) : UInt32 := y ^^^ (x ||| ~~~z)

/-- The function of a round and the word that it takes. -/
def select (round : Nat) : (UInt32 → UInt32 → UInt32 → UInt32) × Nat :=
  if round < 16 then (f, round)
  else if round < 32 then (g, (5 * round + 1) % 16)
  else if round < 48 then (h, (3 * round + 5) % 16)
  else (i, 7 * round % 16)

/-- `NEI_MD5_STEP` and the rotation of the variables behind it. -/
def step (x : Array UInt32) (state : State) (round : Nat) : State :=
  let (func, index) := select round
  let sum := state.a + (func state.b state.c state.d + x.getD index 0 +
    wordAt kTable round)
  { a := state.d
    b := state.b + rotl32 sum (wordAt sTable round)
    c := state.b
    d := state.c }

def transform (state : State) (block : Bytes) : State :=
  let final := (List.range 64).foldl (step (loadBlock loadU32LE block)) state
  { a := state.a + final.a
    b := state.b + final.b
    c := state.c + final.c
    d := state.d + final.d }

end Md5

def md5 : Digest Md5.State where
  start := ⟨0x67452301, 0xefcdab89, 0x98badcfe, 0x10325476⟩
  transform := Md5.transform
  lenBytes := encodeLE 8
  lenBytes_length := encodeLE_length 8
  output state := [state.a, state.b, state.c, state.d].flatMap fun word =>
    encodeLE 4 word.toNat

/-! ## SHA-1 -/

namespace Sha1

structure State where
  a : UInt32
  b : UInt32
  c : UInt32
  d : UInt32
  e : UInt32
  deriving DecidableEq

def schedule (block : Bytes) : Array UInt32 :=
  (List.range' 16 64).foldl (fun w i =>
      w.push (rotl32 (w.getD (i - 3) 0 ^^^ w.getD (i - 8) 0 ^^^
        w.getD (i - 14) 0 ^^^ w.getD (i - 16) 0) 1))
    (loadBlock loadU32BE block)

/-- The variables `f` and `k` of a round. -/
def select (state : State) (round : Nat) : UInt32 × UInt32 :=
  let ⟨_, b, c, d, _⟩ := state
  if round < 20 then (b &&& c ||| ~~~b &&& d, 0x5a827999)
  else if round < 40 then (b ^^^ c ^^^ d, 0x6ed9eba1)
  else if round < 60 then (b &&& c ||| b &&& d ||| c &&& d, 0x8f1bbcdc)
  else (b ^^^ c ^^^ d, 0xca62c1d6)

def step (w : Array UInt32) (state : State) (round : Nat) : State :=
  let (f, k) := select state round
  { a := rotl32 state.a 5 + f + state.e + k + w.getD round 0
    b := state.a
    c := rotl32 state.b 30
    d := state.c
    e := state.d }

def transform (state : State) (block : Bytes) : State :=
  let final := (List.range 80).foldl (step (schedule block)) state
  { a := state.a + final.a
    b := state.b + final.b
    c := state.c + final.c
    d := state.d + final.d
    e := state.e + final.e }

end Sha1

def sha1 : Digest Sha1.State where
  start := ⟨0x67452301, 0xefcdab89, 0x98badcfe, 0x10325476, 0xc3d2e1f0⟩
  transform := Sha1.transform
  lenBytes := encodeBE 8
  lenBytes_length := encodeBE_length 8
  output state := [state.a, state.b, state.c, state.d, state.e].flatMap
    fun word => encodeBE 4 word.toNat

/-! ## SHA-256 -/

namespace Sha256

structure State where
  a : UInt32
  b : UInt32
  c : UInt32
  d : UInt32
  e : UInt32
  f : UInt32
  g : UInt32
  h : UInt32
  deriving DecidableEq

def k : List Nat :=
  [0x428A2F98, 0x71374491, 0xB5C0FBCF, 0xE9B5DBA5, 0x3956C25B, 0x59F111F1,
   0x923F82A4, 0xAB1C5ED5, 0xD807AA98, 0x12835B01, 0x243185BE, 0x550C7DC3,
   0x72BE5D74, 0x80DEB1FE, 0x9BDC06A7, 0xC19BF174, 0xE49B69C1, 0xEFBE4786,
   0x0FC19DC6, 0x240CA1CC, 0x2DE92C6F, 0x4A7484AA, 0x5CB0A9DC, 0x76F988DA,
   0x983E5152, 0xA831C66D, 0xB00327C8, 0xBF597FC7, 0xC6E00BF3, 0xD5A79147,
   0x06CA6351, 0x14292967, 0x27B70A85, 0x2E1B2138, 0x4D2C6DFC, 0x53380D13,
   0x650A7354, 0x766A0ABB, 0x81C2C92E, 0x92722C85, 0xA2BFE8A1, 0xA81A664B,
   0xC24B8B70, 0xC76C51A3, 0xD192E819, 0xD6990624, 0xF40E3585, 0x106AA070,
   0x19A4C116, 0x1E376C08, 0x2748774C, 0x34B0BCB5, 0x391C0CB3, 0x4ED8AA4A,
   0x5B9CCA4F, 0x682E6FF3, 0x748F82EE, 0x78A5636F, 0x84C87814, 0x8CC70208,
   0x90BEFFFA, 0xA4506CEB, 0xBEF9A3F7, 0xC67178F2]

def ch (x y z : UInt32) : UInt32 := x &&& y ^^^ ~~~x &&& z
def maj (x y z : UInt32) : UInt32 := x &&& y ^^^ x &&& z ^^^ y &&& z

def bigSigma0 (x : UInt32) : UInt32 :=
  rotr32 x 2 ^^^ rotr32 x 13 ^^^ rotr32 x 22

def bigSigma1 (x : UInt32) : UInt32 :=
  rotr32 x 6 ^^^ rotr32 x 11 ^^^ rotr32 x 25

def sigma0 (x : UInt32) : UInt32 :=
  rotr32 x 7 ^^^ rotr32 x 18 ^^^ x >>> 3

def sigma1 (x : UInt32) : UInt32 :=
  rotr32 x 17 ^^^ rotr32 x 19 ^^^ x >>> 10

def schedule (block : Bytes) : Array UInt32 :=
  (List.range' 16 48).foldl (fun w i =>
      w.push (sigma1 (w.getD (i - 2) 0) + w.getD (i - 7) 0 +
        sigma0 (w.getD (i - 15) 0) + w.getD (i - 16) 0))
    (loadBlock loadU32BE block)

def step (w : Array UInt32) (state : State) (round : Nat) : State :=
  let ⟨a, b, c, d, e, f, g, h⟩ := state
  let t1 := h + bigSigma1 e + ch e f g + wordAt k round + w.getD round 0
  let t2 := bigSigma0 a + maj a b c
  { a := t1 + t2, b := a, c := b, d := c, e := d + t1, f := e, g := f, h := g }

def transform (state : State) (block : Bytes) : State :=
  let final := (List.range 64).foldl (step (schedule block)) state
  { a := state.a + final.a
    b := state.b + final.b
    c := state.c + final.c
    d := state.d + final.d
    e := state.e + final.e
    f := state.f + final.f
    g := state.g + final.g
    h := state.h + final.h }

end Sha256

def sha256 : Digest Sha256.State where
  start := ⟨0x6A09E667, 0xBB67AE85, 0x3C6EF372, 0xA54FF53A, 0x510E527F,
    0x9B05688C, 0x1F83D9AB, 0x5BE0CD19⟩
  transform := Sha256.transform
  lenBytes := encodeBE 8
  lenBytes_length := encodeBE_length 8
  output state := [state.a, state.b, state.c, state.d, state.e, state.f,
    state.g, state.h].flatMap fun word => encodeBE 4 word.toNat

/-! ## The standards -/

open Digest

/-- The digest of RFC 1321: the length and the words with the low byte first. -/
def md5Standard (message : Bytes) : Bytes :=
  let final := foldBlocks Md5.transform
    ⟨0x67452301, 0xefcdab89, 0x98badcfe, 0x10325476⟩
    (message ++ ([0x80] ++ zeros message ++ encodeLE 8 (8 * message.length)))
  [final.a, final.b, final.c, final.d].flatMap (encodeLE 4 ·.toNat)

/-- The digests of FIPS 180-4: the high byte first. -/
def sha1Standard (message : Bytes) : Bytes :=
  let final := foldBlocks Sha1.transform
    ⟨0x67452301, 0xefcdab89, 0x98badcfe, 0x10325476, 0xc3d2e1f0⟩
    (message ++ ([0x80] ++ zeros message ++ encodeBE 8 (8 * message.length)))
  [final.a, final.b, final.c, final.d, final.e].flatMap (encodeBE 4 ·.toNat)

def sha256Standard (message : Bytes) : Bytes :=
  let final := foldBlocks Sha256.transform
    ⟨0x6a09e667, 0xbb67ae85, 0x3c6ef372, 0xa54ff53a, 0x510e527f,
      0x9b05688c, 0x1f83d9ab, 0x5be0cd19⟩
    (message ++ ([0x80] ++ zeros message ++ encodeBE 8 (8 * message.length)))
  [final.a, final.b, final.c, final.d, final.e, final.f, final.g,
    final.h].flatMap (encodeBE 4 ·.toNat)

/-! ## Incremental digests -/

theorem digests_eq_standard (updates : List Bytes)
    (short : updates.flatten.length < 2 ^ 61) :
    md5.final (updates.foldl md5.update md5.init) =
        md5Standard updates.flatten ∧
      sha1.final (updates.foldl sha1.update sha1.init) =
        sha1Standard updates.flatten ∧
      sha256.final (updates.foldl sha256.update sha256.init) =
        sha256Standard updates.flatten :=
  ⟨Digest.final_foldl_update updates short,
    Digest.final_foldl_update updates short,
    Digest.final_foldl_update updates short⟩

theorem digests_eq_standard_abc :
    [ascii "a", [], ascii "bc"].flatten.length < 2 ^ 61 ∧
      sha256.final ([ascii "a", [], ascii "bc"].foldl sha256.update
        sha256.init) = sha256Standard (ascii "abc") :=
  ⟨by decide, (digests_eq_standard [ascii "a", [], ascii "bc"] (by decide)).2.2⟩

example : md5.final (md5.update md5.init (ascii "abc")) =
    encodeBE 16 0x900150983cd24fb0d6963f7d28e17f72 := by
  decide +kernel

example : sha1.final (sha1.update sha1.init (ascii "abc")) =
    encodeBE 20 0xa9993e364706816aba3e25717850c26c9cd0d89d := by
  decide +kernel

example : sha256.final (sha256.update sha256.init (ascii "abc")) = encodeBE 32
      0xba7816bf8f01cfea414140de5dae2223b00361a396177a9cb410ff61f20015ad := by
  decide +kernel

end Libnei.Utils
