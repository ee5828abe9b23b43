import Libnei.Xdr.Codec

/-!
# The memory that reading touches

The accesses of the reading functions to the reader's buffer and to the
output, in the order in which the functions make them.  `size` is the number
of bytes of the buffer.  `size_t` has 64 bits, where no length with its
padding wraps; `length + 1U` is a sum of 32 bits.
-/

namespace Libnei.Xdr

/-- Bytes of the reader's buffer that are read, or bytes of the output that
are written. -/
inductive Access
  | read (start count : Nat)
  | write (start count : Nat)
  deriving DecidableEq

/-- The access stays in a buffer of this size and in an output of this
capacity. -/
def Access.Inside (size capacity : Nat) : Access → Prop
  | read start count => start + count ≤ size
  | write start count => start + count ≤ capacity

namespace Reader

def wordAccesses (width : Nat) (reader : Reader) : List Access :=
  if (reader.readWord width).1 = .ok then [.read reader.offset width] else []

def opaqueAccesses (out : Option Bytes) (length : UInt32) (reader : Reader) :
    List Access :=
  if (reader.readOpaque out length).1 = .ok ∧ length > 0 then
    [.read reader.offset length.toNat, .write 0 length.toNat]
  else []

def bytesAccesses (out : Option Bytes) (outCapacity : UInt32)
    (reader : Reader) : List Access :=
  reader.wordAccesses 4 ++
    match reader.readU32 with
    | (.ok, reader, length) =>
        if length > outCapacity then [] else reader.opaqueAccesses out length
    | _ => []

def stringAccesses (out : Option Bytes) (outCapacity : UInt32)
    (reader : Reader) : List Access :=
  match out with
  | none => []
  | some _ =>
      reader.wordAccesses 4 ++
        match reader.readU32 with
        | (.ok, reader, length) =>
            if length + 1 > outCapacity then []
            else reader.opaqueAccesses out length ++
              if (reader.readOpaque out length).1 = .ok then
                [.write length.toNat 1]
              else []
        | _ => []

end Reader

namespace Request

def accesses : Request → Reader → List Access
  | u32, reader | i32, reader | skipBytes, reader => reader.wordAccesses 4
  | u64, reader | i64, reader => reader.wordAccesses 8
  | fixed out length, reader => reader.opaqueAccesses out length
  | bytes out outCapacity, reader => reader.bytesAccesses out outCapacity
  | string out outCapacity, reader => reader.stringAccesses out outCapacity
  | skipOpaque _, _ => []

/-- How many bytes the caller has at the output. -/
def capacity : Request → Nat
  | fixed _ length => length.toNat
  | bytes _ outCapacity | string _ outCapacity => outCapacity.toNat
  | _ => 0

/-- A string announces 2^32 - 1 bytes and the buffer has them. -/
def overlong (request : Request) (reader : Reader) : Bool :=
  match request, reader.buffer with
  | string (some _) _, some buffer =>
      (wordOf (reader.peek buffer 4)).toUInt32 == 0xFFFFFFFF &&
        hasSpace reader.size reader.offset (4 + 2 ^ 32)
  | _, _ => false

end Request

/-! ## One function at a time -/

namespace Reader

variable {reader : Reader} {length outCapacity : UInt32} {out : Option Bytes}

theorem readWord_ok {width : Nat} (ok : (reader.readWord width).1 = .ok) :
    ∃ buffer, reader.buffer = some buffer ∧
      reader.offset + width ≤ reader.size ∧
      reader.readWord width = (.ok,
        { reader with offset := reader.offset + width },
        wordOf (reader.peek buffer width)) := by
  rcases present : reader.buffer with _ | buffer
  · simp [readWord, present] at ok
  · by_cases space : hasSpace reader.size reader.offset width = true
    · exact ⟨buffer, rfl, hasSpace_iff.mp space,
        by simp [readWord, present, space]⟩
    · simp [readWord, present, space] at ok

theorem readU32_ok {next : Reader}
    (read : reader.readU32 = (.ok, next, length)) :
    ∃ buffer, reader.buffer = some buffer ∧ reader.offset + 4 ≤ reader.size ∧
      next = { reader with offset := reader.offset + 4 } ∧
      length = (wordOf (reader.peek buffer 4)).toUInt32 := by
  have ok : (reader.readWord 4).1 = .ok := congrArg Prod.fst read
  obtain ⟨buffer, present, space, equal⟩ := readWord_ok ok
  simp only [readU32, equal, Prod.mk.injEq, true_and] at read
  exact ⟨buffer, present, space, read.1.symm, read.2.symm⟩

theorem readOpaque_ok_iff : (reader.readOpaque out length).1 = .ok ↔
      reader.buffer.isSome = true ∧ (length > 0 → out.isSome = true) ∧
        reader.offset + padded length ≤ reader.size := by
  rw [← hasSpace_iff]
  rcases present : reader.buffer with _ | buffer
  · simp [readOpaque, present]
  · rcases out with _ | out
    · by_cases empty : length > 0
      · simp [readOpaque, present, empty]
      · by_cases space :
          hasSpace reader.size reader.offset (padded length) = true <;>
          simp [readOpaque, present, empty, space]
    · by_cases space :
        hasSpace reader.size reader.offset (padded length) = true <;>
        simp [readOpaque, present, space]

theorem length_le_padded (length : UInt32) : length.toNat ≤ padded length :=
  Nat.le_add_right _ _

theorem wordAccesses_inside (width capacity : Nat) (reader : Reader) :
    ∀ access ∈ reader.wordAccesses width,
      access.Inside reader.size capacity := by
  intro access member
  rw [wordAccesses] at member
  split at member
  · case isTrue ok =>
    obtain ⟨_, _, space, _⟩ := readWord_ok ok
    obtain rfl := List.mem_singleton.mp member
    exact space
  · cases member

theorem opaqueAccesses_inside {capacity : Nat}
    (fits : length.toNat ≤ capacity) :
    ∀ access ∈ reader.opaqueAccesses out length,
      access.Inside reader.size capacity := by
  intro access member
  rw [opaqueAccesses] at member
  split at member
  · case isTrue ok =>
    obtain ⟨_, _, space⟩ := readOpaque_ok_iff.mp ok.1
    have atMost := length_le_padded length
    simp only [List.mem_cons, List.not_mem_nil, or_false] at member
    rcases member with rfl | rfl
    · show reader.offset + length.toNat ≤ reader.size
      omega
    · show 0 + length.toNat ≤ capacity
      omega
  · cases member

theorem bytesAccesses_inside (out : Option Bytes) (outCapacity : UInt32)
    (reader : Reader) :
    ∀ access ∈ reader.bytesAccesses out outCapacity,
      access.Inside reader.size outCapacity.toNat := by
  intro access member
  rw [bytesAccesses, List.mem_append] at member
  rcases member with word | member
  · exact wordAccesses_inside 4 _ reader access word
  · split at member
    · case h_1 next length read =>
      obtain ⟨_, _, _, rfl, _⟩ := readU32_ok read
      split at member
      · cases member
      · case isFalse fits =>
        have atMost : length.toNat ≤ outCapacity.toNat :=
          UInt32.le_iff_toNat_le.mp (UInt32.not_lt.mp fits)
        have inside := opaqueAccesses_inside atMost access member
        exact inside
    · cases member

theorem padded_max : padded 0xFFFFFFFF = 2 ^ 32 := by
  decide

theorem toNat_add_one (notMax : length ≠ 0xFFFFFFFF) :
    (length + 1).toNat = length.toNat + 1 := by
  have below : length.toNat < 2 ^ 32 := length.toNat_lt
  have different : length.toNat ≠ 2 ^ 32 - 1 := by
    intro same
    exact notMax (UInt32.toNat_inj.mp same)
  rw [UInt32.toNat_add]
  exact Nat.mod_eq_of_lt (by simp; omega)

/-- The check in front of the copy is right for every length but one. -/
theorem stringAccesses_inside {out : Bytes} (notOverlong :
      (Request.string (some out) outCapacity).overlong reader = false) :
    ∀ access ∈ reader.stringAccesses (some out) outCapacity,
      access.Inside reader.size outCapacity.toNat := by
  intro access member
  rw [stringAccesses, List.mem_append] at member
  rcases member with word | member
  · exact wordAccesses_inside 4 _ reader access word
  · split at member
    · case h_1 next length read =>
      obtain ⟨buffer, present, space, rfl, announced⟩ := readU32_ok read
      split at member
      · cases member
      · case isFalse fits =>
        rw [List.mem_append] at member
        by_cases max : length = 0xFFFFFFFF
        · -- no copy, since the buffer does not have the bytes
          have short : ¬reader.offset + (4 + 2 ^ 32) ≤ reader.size := by
            rw [← hasSpace_iff, Bool.not_eq_true]
            simpa [Request.overlong, present, ← announced, max]
              using notOverlong
          have refused : (Reader.readOpaque (some out) length
              { reader with offset := reader.offset + 4 }).1 ≠ .ok := by
            intro ok
            have large := (readOpaque_ok_iff.mp ok).2.2
            rw [max, padded_max, Nat.add_assoc] at large
            exact short large
          simp [opaqueAccesses, refused] at member
        · have atMost : length.toNat + 1 ≤ outCapacity.toNat := by
            rw [← toNat_add_one max]
            exact UInt32.le_iff_toNat_le.mp (UInt32.not_lt.mp fits)
          rcases member with copied | terminated
          · have inside := opaqueAccesses_inside
              (Nat.le_of_succ_le atMost) access copied
            exact inside
          · split at terminated
            · obtain rfl := List.mem_singleton.mp terminated
              exact atMost
            · cases terminated
    · cases member

theorem stringAccesses_overlong {out : Bytes} (overlong :
      (Request.string (some out) outCapacity).overlong reader = true) :
    Access.write 0xFFFFFFFF 1 ∈
      reader.stringAccesses (some out) outCapacity := by
  rcases present : reader.buffer with _ | buffer
  · simp [Request.overlong, present] at overlong
  · simp only [Request.overlong, present, Bool.and_eq_true, beq_iff_eq,
      hasSpace_iff] at overlong
    obtain ⟨announced, space⟩ := overlong
    have word : hasSpace reader.size reader.offset 4 = true :=
      hasSpace_iff.mpr (by omega)
    have read : reader.readU32 = (.ok,
        { reader with offset := reader.offset + 4 }, 0xFFFFFFFF) := by
      simp [readU32, readWord, present, word, announced]
    have copied : (Reader.readOpaque (some out) 0xFFFFFFFF
        { reader with offset := reader.offset + 4 }).1 = .ok := by
      refine readOpaque_ok_iff.mpr ⟨by simp [present], fun _ => rfl, ?_⟩
      rw [padded_max, Nat.add_assoc]
      exact space
    have passes : ¬(0xFFFFFFFF + 1 : UInt32) > outCapacity :=
      UInt32.not_lt.mpr (UInt32.le_iff_toNat_le.mpr (Nat.zero_le _))
    rw [stringAccesses, read, List.mem_append]
    right
    dsimp only
    rw [if_neg passes, List.mem_append, if_pos copied]
    right
    exact List.mem_singleton.mpr rfl

end Reader

/-! ## Every call -/

/-- Reading stays inside the buffer and the output, except when a string
announces 2^32 - 1 bytes and the buffer has them: then `length + 1U` is zero
and passes for every capacity. -/
theorem accesses_inside_iff (request : Request) (reader : Reader) :
    (∀ access ∈ request.accesses reader,
      access.Inside reader.size request.capacity) ↔
        request.overlong reader = false := by
  cases request with
  | u32 | i32 | skipBytes =>
      exact iff_of_true (reader.wordAccesses_inside 4 _) rfl
  | u64 | i64 => exact iff_of_true (reader.wordAccesses_inside 8 _) rfl
  | fixed out length =>
      exact iff_of_true (Reader.opaqueAccesses_inside (Nat.le_refl _)) rfl
  | bytes out outCapacity =>
      exact iff_of_true (reader.bytesAccesses_inside out outCapacity) rfl
  | skipOpaque length =>
      exact iff_of_true (fun access member => by cases member) rfl
  | string out outCapacity =>
      rcases out with _ | out
      · exact iff_of_true (fun access member => by cases member) rfl
      · refine ⟨?_, Reader.stringAccesses_inside⟩
        intro inside
        by_contra overlong
        have outside := inside _ (Reader.stringAccesses_overlong
          (Bool.eq_true_of_not_eq_false overlong))
        have below : outCapacity.toNat < 2 ^ 32 := outCapacity.toNat_lt
        change 0xFFFFFFFF + 1 ≤ outCapacity.toNat at outside
        omega

theorem overlong_of_announced (out rest : Bytes) (outCapacity : UInt32) :
    (Request.string (some out) outCapacity).overlong
      (Reader.init (some (255 :: 255 :: 255 :: 255 :: rest)) (4 + 2 ^ 32)) =
        true := by
  have word : (wordOf [255, 255, 255, 255]).toUInt32 = 0xFFFFFFFF := by
    decide
  have space : hasSpace (4 + 2 ^ 32) 0 (4 + 2 ^ 32) = true :=
    hasSpace_iff.mpr (Nat.le_of_eq (Nat.zero_add _))
  show ((wordOf [255, 255, 255, 255]).toUInt32 == 0xFFFFFFFF &&
    hasSpace (4 + 2 ^ 32) 0 (4 + 2 ^ 32)) = true
  rw [word, space]
  rfl

/-- A string of 2^32 - 1 bytes is written to an output of one byte. -/
theorem string_written_outside :
    let zeros : Bytes := List.replicate (2 ^ 32) 0
    let reader := Reader.init (some (255 :: 255 :: 255 :: 255 :: zeros))
      (4 + 2 ^ 32)
    let request := Request.string (some [0]) 1
    ∃ access ∈ request.accesses reader,
      ¬access.Inside reader.size request.capacity := by
  intro zeros reader request
  refine ⟨_, Reader.stringAccesses_overlong
    (overlong_of_announced [0] zeros 1), ?_⟩
  show ¬0xFFFFFFFF + 1 ≤ 1
  decide

end Libnei.Xdr
