import Libnei.Lib.Actions
import Libnei.Lib.Association
import Mathlib.Logic.Function.Basic

/-!
# Thread-local slots

`tls_slot.cpp`: a table of slots shared by all threads, and for every thread a
vector of values behind one platform key.  A slot number that was freed is
handed out again.  The manager keeps a history of what its callers can see,
newest first: allocations, reads, writes and destructor calls.
-/

namespace Libnei.Threading

open Lib

def kMaxSlots : Nat := 256

inductive SlotState where
  | free
  | inUse
  | longLived
deriving DecidableEq

variable {Value Destructor : Type}

/-- The values of one thread; `none` is the null pointer. -/
structure PerThreadStorage (Value : Type) where
  values : List (Option Value) := []
deriving DecidableEq

namespace PerThreadStorage

def ensureIndex (storage : PerThreadStorage Value) (index : Nat) :
    PerThreadStorage Value :=
  if storage.values.length ≤ index then
    { values := storage.values ++
        List.replicate (index + 1 - storage.values.length) none }
  else storage

/-- `idx < values.size() ? values[idx] : nullptr` -/
def value (storage : PerThreadStorage Value) (index : Nat) : Option Value :=
  storage.values[index]?.join

/-- `values[index] = value` in a vector that has the index. -/
def assign (storage : PerThreadStorage Value) (index : Nat)
    (value : Option Value) : PerThreadStorage Value :=
  { values := storage.values.set index value }

variable (storage : PerThreadStorage Value)

@[simp]
theorem value_ensureIndex (index slot : Nat) :
    (storage.ensureIndex index).value slot = storage.value slot := by
  unfold ensureIndex value
  split
  case isTrue short =>
    by_cases inside : slot < storage.values.length
    · rw [List.getElem?_append_left inside]
    · have outside : storage.values.length ≤ slot := Nat.not_lt.mp inside
      rw [List.getElem?_append_right outside,
        List.getElem?_eq_none outside, List.getElem?_replicate]
      split <;> rfl
  case isFalse long => rfl

theorem length_ensureIndex (index : Nat) :
    index < (storage.ensureIndex index).values.length := by
  unfold ensureIndex
  split
  case isTrue short =>
    rw [List.length_append, List.length_replicate]
    omega
  case isFalse long => exact Nat.not_le.mp long

theorem value_assign_other {slot index : Nat} (apart : slot ≠ index)
    (storage : PerThreadStorage Value) (value : Option Value) :
    (storage.assign index value).value slot = storage.value slot := by
  rw [assign, PerThreadStorage.value, List.getElem?_set_ne apart.symm]
  rfl

theorem value_assign {storage : PerThreadStorage Value} {index : Nat}
    (inside : index < storage.values.length) (value : Option Value) :
    (storage.assign index value).value index = value := by
  rw [assign, PerThreadStorage.value, List.getElem?_set_self inside]
  rfl

/-- A null that is written outside the vector changes nothing either. -/
theorem value_assign_none (index : Nat) :
    (storage.assign index none).value index = none := by
  by_cases inside : index < storage.values.length
  · exact value_assign inside none
  · rw [assign, PerThreadStorage.value, List.getElem?_eq_none]
    · rfl
    · rw [List.length_set]
      exact Nat.not_lt.mp inside

end PerThreadStorage

/-- What the callers of the manager see. -/
inductive Event (Value Destructor : Type) where
  | allocated (slot : Nat) (destructor : Option Destructor)
  | got (thread slot : Nat) (value : Option Value)
  | set (thread slot : Nat) (value : Option Value)
  | destroyed (destructor : Destructor) (thread slot : Nat) (value : Value)
deriving DecidableEq

/-- The slot table below `kMaxSlots` and the storage behind the platform key
of every thread that has one. -/
structure TLSManager (Value Destructor : Type) where
  slotStates : Nat → SlotState := fun _ => .free
  slotDestructors : Nat → Option Destructor := fun _ => none
  threads : List (Nat × PerThreadStorage Value) := []
  history : List (Event Value Destructor) := []

namespace TLSManager

def getThreadStorageNoCreate (manager : TLSManager Value Destructor)
    (thread : Nat) : Option (PerThreadStorage Value) :=
  manager.threads.lookup thread

def getOrCreateThreadStorage (manager : TLSManager Value Destructor)
    (thread : Nat) : PerThreadStorage Value :=
  (manager.getThreadStorageNoCreate thread).getD {}

def platformSetValue (manager : TLSManager Value Destructor) (thread : Nat)
    (storage : PerThreadStorage Value) : TLSManager Value Destructor :=
  { manager with
    threads := (thread, storage) ::
      manager.threads.filter (fun entry => entry.1 != thread) }

def record (manager : TLSManager Value Destructor)
    (event : Event Value Destructor) : TLSManager Value Destructor :=
  { manager with history := event :: manager.history }

/-- The first free slot is taken; `-1` where there is none. -/
def allocateSlotInternal (manager : TLSManager Value Destructor)
    (thread : Nat) (destructor : Option Destructor) (longLived : Bool) :
    TLSManager Value Destructor × Int :=
  match (List.range kMaxSlots).find? (manager.slotStates · == .free) with
  | some slot =>
      let target := if longLived then .longLived else .inUse
      let storage := manager.getOrCreateThreadStorage thread
      let storage := (storage.ensureIndex slot).assign slot none
      (({ manager with
          slotStates := Function.update manager.slotStates slot target
          slotDestructors :=
            Function.update manager.slotDestructors slot destructor
        }.platformSetValue thread storage).record
          (.allocated slot destructor), slot)
  | none => (manager, -1)

def allocateSlot (manager : TLSManager Value Destructor) (thread : Nat)
    (destructor : Option Destructor) : TLSManager Value Destructor × Int :=
  manager.allocateSlotInternal thread destructor false

def allocateLongLivedSlot (manager : TLSManager Value Destructor)
    (thread : Nat) (destructor : Option Destructor) :
    TLSManager Value Destructor × Int :=
  manager.allocateSlotInternal thread destructor true

/-- Only the calling thread's value is cleared. -/
def freeSlot (manager : TLSManager Value Destructor) (thread : Nat) :
    Int → TLSManager Value Destructor
  | .negSucc _ => manager
  | .ofNat slot =>
      if slot < kMaxSlots then
        let cleared :=
          match manager.getThreadStorageNoCreate thread with
          | some storage =>
              manager.platformSetValue thread (storage.assign slot none)
          | none => manager
        { cleared with
          slotStates := Function.update cleared.slotStates slot .free
          slotDestructors :=
            Function.update cleared.slotDestructors slot none }
      else manager

/-- `TlsSlot::Get` is the same function at the slot's index. -/
def internalGetSlotValue (manager : TLSManager Value Destructor)
    (thread : Nat) : Int → TLSManager Value Destructor × Option Value
  | .negSucc _ => (manager, none)
  | .ofNat slot =>
      let storage := manager.getOrCreateThreadStorage thread
      ((manager.platformSetValue thread storage).record
        (.got thread slot (storage.value slot)), storage.value slot)

/-- `TlsSlot::Set` is the same function at the slot's index. -/
def internalSetSlotValue (manager : TLSManager Value Destructor)
    (thread : Nat) (value : Option Value) :
    Int → TLSManager Value Destructor
  | .negSucc _ => manager
  | .ofNat slot =>
      let storage := manager.getOrCreateThreadStorage thread
      (manager.platformSetValue thread
        ((storage.ensureIndex slot).assign slot value)).record
          (.set thread slot value)

/-- One turn of a loop of `OnThreadExit`, over the slots of one kind. -/
def destroySlot (thread : Nat) (kind : SlotState)
    (manager : TLSManager Value Destructor) (slot : Nat) :
    TLSManager Value Destructor :=
  if manager.slotStates slot = kind then
    let storage := manager.getOrCreateThreadStorage thread
    match storage.value slot with
    | some value =>
        let cleared :=
          manager.platformSetValue thread (storage.assign slot none)
        match manager.slotDestructors slot with
        | some destructor =>
            cleared.record (.destroyed destructor thread slot value)
        | none => cleared
    | none => manager
  else manager

/-- Both loops run over the vector; a vector longer than the slot table would
be read against what lies behind the table, which no step does. -/
def onThreadExit (manager : TLSManager Value Destructor) (thread : Nat) :
    Option (TLSManager Value Destructor) :=
  match manager.getThreadStorageNoCreate thread with
  | some storage =>
      let size := storage.values.length
      if size ≤ kMaxSlots then
        let first :=
          (List.range size).foldl (destroySlot thread .inUse) manager
        let second :=
          (List.range size).foldl (destroySlot thread .longLived) first
        some { second with
          threads := second.threads.filter (fun entry => entry.1 != thread) }
      else none
  | none => some manager

def valueAt (manager : TLSManager Value Destructor) (thread slot : Nat) :
    Option Value :=
  (manager.getOrCreateThreadStorage thread).value slot

theorem storage_platformSetValue (manager : TLSManager Value Destructor)
    (thread : Nat) (storage : PerThreadStorage Value) :
    (manager.platformSetValue thread storage).getOrCreateThreadStorage
      thread = storage := by
  rw [getOrCreateThreadStorage, getThreadStorageNoCreate, platformSetValue]
  rw [List.lookup_cons_self]
  rfl

theorem storage_platformSetValue_other {other thread : Nat}
    (apart : other ≠ thread) (manager : TLSManager Value Destructor)
    (storage : PerThreadStorage Value) :
    (manager.platformSetValue thread storage).getOrCreateThreadStorage
      other = manager.getOrCreateThreadStorage other := by
  have kept : (other != thread) = true := bne_iff_ne.mpr apart
  rw [getOrCreateThreadStorage, getThreadStorageNoCreate, platformSetValue]
  rw [List.lookup_cons, beq_false_of_ne apart]
  rw [lookup_filter (fun key => key != thread), if_pos kept]
  rfl

section

variable (manager : TLSManager Value Destructor)

theorem valueAt_platformSetValue (thread : Nat)
    (storage : PerThreadStorage Value) (thread' slot : Nat) :
    (manager.platformSetValue thread storage).valueAt thread' slot =
      if thread' = thread then storage.value slot
      else manager.valueAt thread' slot := by
  rw [valueAt]
  split
  case isTrue same => rw [same, storage_platformSetValue]
  case isFalse apart => rw [storage_platformSetValue_other apart, valueAt]

theorem valueAt_cleared (thread slot : Nat) (storage : PerThreadStorage Value) :
    (manager.platformSetValue thread
      (storage.assign slot none)).valueAt thread slot = none := by
  rw [valueAt_platformSetValue, if_pos rfl]
  exact PerThreadStorage.value_assign_none storage slot

theorem valueAt_filter (thread thread' slot : Nat) : ({ manager with
        threads := manager.threads.filter fun entry => entry.1 != thread
      } : TLSManager Value Destructor).valueAt thread' slot =
      if thread' = thread then none else manager.valueAt thread' slot := by
  rw [valueAt, getOrCreateThreadStorage, getThreadStorageNoCreate]
  rw [lookup_filter (fun key => key != thread)]
  by_cases same : thread' = thread
  · rw [if_pos same, same, bne_self_eq_false]
    rfl
  · rw [if_neg same, if_pos (bne_iff_ne.mpr same)]
    rfl

end

theorem exists_of_valueAt {manager : TLSManager Value Destructor}
    {thread slot : Nat} {value : Value}
    (found : manager.valueAt thread slot = some value) :
    ∃ storage, (thread, storage) ∈ manager.threads ∧
      storage.value slot = some value := by
  rw [valueAt, getOrCreateThreadStorage, getThreadStorageNoCreate] at found
  cases looked : manager.threads.lookup thread with
  | none => rw [looked] at found; cases found
  | some storage =>
    rw [looked] at found
    obtain ⟨before, after, same, -⟩ := List.lookup_eq_some_iff.mp looked
    refine ⟨storage, ?_, found⟩
    rw [same]
    exact List.mem_append_right _ List.mem_cons_self

end TLSManager

/-- One step of the history: a call by a thread, or its exit. -/
inductive Action (Value Destructor : Type) where
  | allocate (thread : Nat) (destructor : Option Destructor)
      (longLived : Bool)
  | free (thread : Nat) (index : Int)
  | get (thread : Nat) (index : Int)
  | set (thread : Nat) (index : Int) (value : Option Value)
  | exit (thread : Nat)

def step (manager : TLSManager Value Destructor) :
    Action Value Destructor → Option (TLSManager Value Destructor)
  | .allocate thread destructor false =>
      some (manager.allocateSlot thread destructor).1
  | .allocate thread destructor true =>
      some (manager.allocateLongLivedSlot thread destructor).1
  | .free thread index => some (manager.freeSlot thread index)
  | .get thread index => some (manager.internalGetSlotValue thread index).1
  | .set thread index value =>
      some (manager.internalSetSlotValue thread value index)
  | .exit thread => manager.onThreadExit thread

end Libnei.Threading
