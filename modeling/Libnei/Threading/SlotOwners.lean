import Libnei.Threading.TlsSlot

/-!
# Slots and their owners

A slot number belongs to the newest allocation of it.  A value that a thread
still holds from an earlier owner leaks to the new one, who reads it and whose
destructor gets it at thread exit: `FreeSlot` clears the value of the calling
thread only.  Runs in which no slot is allocated while another thread has a
value in it keep the owners apart.
-/

namespace Libnei.Threading

open Lib

variable {Value Destructor : Type}

/-- Read after an allocation, a slot is null on a thread that has not set it
since.  Histories are newest first. -/
def ReadsNull (history : List (Event Value Destructor)) : Prop :=
  ∀ later between past thread slot value destructor,
    history = later ++ .got thread slot value ::
      (between ++ .allocated slot destructor :: past) →
    (∀ other, .set thread slot other ∉ between) → value = none

/-- A destructor gets a value that was set through the allocation it came
with, and that no destructor got since. -/
def DestroysOwn (history : List (Event Value Destructor)) : Prop :=
  ∀ later past thread slot value destructor,
    history = later ++ .destroyed destructor thread slot value :: past →
    ∃ recent between older, past = recent ++ .set thread slot (some value) ::
        (between ++ .allocated slot (some destructor) :: older) ∧
      (∀ other, .allocated slot other ∉ recent ++ between) ∧
      ∀ other value, .destroyed other thread slot value ∉ recent

/-- The slot that is allocated has a value on another thread. -/
def Inherits (manager : TLSManager Value Destructor) :
    Action Value Destructor → Prop
  | .allocate thread _ _ =>
      ∃ slot ∈ (List.range kMaxSlots).find? (manager.slotStates · == .free),
        ∃ entry ∈ manager.threads,
          entry.1 ≠ thread ∧ (entry.2.value slot).isSome
  | _ => False

instance (manager : TLSManager Value Destructor)
    (action : Action Value Destructor) :
    Decidable (Inherits manager action) := by
  cases action <;> unfold Inherits <;> infer_instance

/-- The events that give or take a thread's value in a slot. -/
def concerns (thread slot : Nat) : Event Value Destructor → Bool
  | .allocated slot' _ => slot' == slot
  | .got _ _ _ => false
  | .set thread' slot' _ => thread' == thread && slot' == slot
  | .destroyed _ thread' slot' _ => thread' == thread && slot' == slot

def allocates (slot : Nat) : Event Value Destructor → Bool
  | .allocated slot' _ => slot' == slot
  | _ => false

/-- The newest event of the history put the value into the slot. -/
def Holds (history : List (Event Value Destructor)) (thread slot : Nat)
    (value : Value) : Prop :=
  history.find? (concerns thread slot) = some (.set thread slot (some value))

/-- The newest allocation of the slot came with the destructor. -/
def Owns (history : List (Event Value Destructor)) (slot : Nat)
    (destructor : Option Destructor) : Prop :=
  history.find? (allocates slot) = some (.allocated slot destructor)

/-- What an event needs of the history before it. -/
def Warranted (past : List (Event Value Destructor)) :
    Event Value Destructor → Prop
  | .got thread slot value =>
      ∀ read ∈ value, Holds past thread slot read
  | .destroyed destructor thread slot value =>
      Holds past thread slot value ∧ Owns past slot (some destructor)
  | _ => True

def Proper : List (Event Value Destructor) → Prop
  | [] => True
  | event :: past => Warranted past event ∧ Proper past

variable {event : Event Value Destructor}

theorem Proper.warranted {later past : List (Event Value Destructor)}
    (proper : Proper (later ++ event :: past)) : Warranted past event := by
  induction later with
  | nil => exact proper.1
  | cons other later ih => exact ih proper.2

/-! ## What a proper history says -/

variable {history : List (Event Value Destructor)} {thread slot : Nat}
  {destructor : Option Destructor}

theorem Proper.readsNull (proper : Proper history) : ReadsNull history := by
  rintro later between past thread slot value destructor rfl unset
  cases value with
  | none => rfl
  | some value =>
    -- The event that put the value there would lie between.
    have held := proper.warranted value rfl
    have stop : concerns thread slot
        (.allocated slot destructor : Event Value Destructor) = true :=
      beq_self_eq_true slot
    rw [Holds, List.find?_append] at held
    rw [List.find?_cons_of_pos stop] at held
    cases found : between.find? (concerns thread slot) with
    | none => rw [found] at held; cases held
    | some event =>
      rw [found] at held
      obtain rfl := Option.some.inj held
      exact absurd (List.mem_of_find?_eq_some found) (unset _)

theorem Holds.split {value : Value} (held : Holds history thread slot value) :
    ∃ recent older, history = recent ++ .set thread slot (some value) :: older
      ∧ (∀ other, .allocated slot other ∉ recent)
      ∧ ∀ other value, .destroyed other thread slot value ∉ recent := by
  obtain ⟨-, recent, older, same, apart⟩ :=
    List.find?_eq_some_iff_append.mp held
  refine ⟨recent, older, same, fun other member => ?_,
    fun other value member => ?_⟩
  · simpa [concerns] using apart _ member
  · simpa [concerns] using apart _ member

theorem Owns.split (owns : Owns history slot destructor) :
    ∃ recent older, history = recent ++ .allocated slot destructor :: older ∧
      ∀ other, .allocated slot other ∉ recent := by
  obtain ⟨-, recent, older, same, apart⟩ :=
    List.find?_eq_some_iff_append.mp owns
  refine ⟨recent, older, same, fun other member => ?_⟩
  simpa [allocates] using apart _ member

theorem Owns.of_append {recent older : List (Event Value Destructor)}
    (owns : Owns (recent ++ older) slot destructor)
    (apart : ∀ other, .allocated slot other ∉ recent) :
    Owns older slot destructor := by
  have absent : recent.find? (allocates slot) = none := by
    rw [List.find?_eq_none]
    intro event member allocated
    cases event with
    | allocated slot' other =>
      obtain rfl := eq_of_beq allocated
      exact apart other member
    | got _ _ _ => cases allocated
    | set _ _ _ => cases allocated
    | destroyed _ _ _ _ => cases allocated
  rw [Owns, List.find?_append, absent, Option.none_or] at owns
  exact owns

theorem Proper.destroysOwn (proper : Proper history) : DestroysOwn history := by
  rintro later past thread slot value destructor rfl
  obtain ⟨held, owns⟩ := proper.warranted
  obtain ⟨recent, older, rfl, unallocated, undestroyed⟩ := held.split
  have owns := owns.of_append unallocated
  -- The write itself allocates nothing, so the owner lies behind it.
  rw [Owns, List.find?_cons_of_neg (by simp [allocates])] at owns
  obtain ⟨between, oldest, rfl, unallocated'⟩ := Owns.split owns
  refine ⟨recent, between, oldest, rfl, fun other member => ?_, undestroyed⟩
  cases List.mem_append.mp member with
  | inl member => exact unallocated other member
  | inr member => exact unallocated' other member

/-! ## Runs without an inheritance -/

/-- The values in the storages come from the owners of their slots. -/
structure Owned (manager : TLSManager Value Destructor) : Prop where
  holds : ∀ thread slot value, manager.valueAt thread slot = some value →
    Holds manager.history thread slot value
  owns : ∀ slot, manager.slotStates slot ≠ .free →
    Owns manager.history slot (manager.slotDestructors slot)
  proper : Proper manager.history

namespace Owned

open TLSManager

variable {manager : TLSManager Value Destructor}

theorem removing (owned : Owned manager)
    {threads : List (Nat × PerThreadStorage Value)}
    (fewer : ∀ thread slot value,
      ({ manager with threads } : TLSManager Value Destructor).valueAt
        thread slot = some value → manager.valueAt thread slot = some value) :
    Owned { manager with threads } where
  holds thread slot value found :=
    owned.holds thread slot value (fewer thread slot value found)
  owns := owned.owns
  proper := owned.proper

variable {storage : PerThreadStorage Value} {index : Int} {kind : SlotState}
  {next : TLSManager Value Destructor}

section

variable (owned : Owned manager)

include owned

theorem platformSetValue
    (fewer : ∀ slot value, storage.value slot = some value →
      manager.valueAt thread slot = some value) :
    Owned (manager.platformSetValue thread storage) := by
  refine owned.removing fun thread' slot value found => ?_
  have found := (valueAt_platformSetValue manager thread storage thread'
    slot).symm.trans found
  split at found
  case isTrue same => exact same ▸ fewer slot value found
  case isFalse apart => exact found

/-- An event at a slot and a thread without a value. -/
theorem record (warranted : Warranted manager.history event)
    (elsewhere : ∀ thread slot value, manager.valueAt thread slot = some value →
        concerns thread slot event = false)
    (unowned : ∀ slot, manager.slotStates slot ≠ .free →
      allocates slot event = false) :
    Owned (manager.record event) where
  holds thread slot value found :=
    (List.find?_cons_of_neg
      (Bool.eq_false_iff.mp (elsewhere thread slot value found))).trans
        (owned.holds thread slot value found)
  owns slot active :=
    (List.find?_cons_of_neg (Bool.eq_false_iff.mp (unowned slot active))).trans
      (owned.owns slot active)
  proper := ⟨warranted, owned.proper⟩

theorem cleared
    (current : ∀ other, storage.value other = manager.valueAt thread other)
    (slot : Nat) :
    Owned (manager.platformSetValue thread (storage.assign slot none)) := by
  refine owned.platformSetValue fun other value found => ?_
  by_cases here : other = slot
  · subst here
    rw [PerThreadStorage.value_assign_none] at found
    cases found
  · rw [PerThreadStorage.value_assign_other here, current] at found
    exact found

theorem handOver {target : SlotState}
    (owns : target ≠ .free → Owns manager.history slot destructor) :
    Owned { manager with
      slotStates := Function.update manager.slotStates slot target
      slotDestructors :=
        Function.update manager.slotDestructors slot destructor } where
  holds := owned.holds
  owns slot' active := by
    dsimp only at active ⊢
    by_cases here : slot' = slot
    · subst here
      rw [Function.update_self] at active ⊢
      exact owns active
    · rw [Function.update_of_ne here] at active ⊢
      exact owned.owns slot' active
  proper := owned.proper

theorem allocateSlotInternal {longLived : Bool}
    (clear : ¬Inherits manager (.allocate thread destructor longLived)) :
    Owned (manager.allocateSlotInternal thread destructor longLived).1 := by
  unfold TLSManager.allocateSlotInternal
  split
  case h_2 => exact owned
  case h_1 slot found =>
    have free : manager.slotStates slot = .free := by
      have taken := List.find?_some found
      exact eq_of_beq taken
    let storage := (manager.getOrCreateThreadStorage thread).ensureIndex slot
    have same : ∀ other, storage.value other = manager.valueAt thread other :=
      fun other => PerThreadStorage.value_ensureIndex _ slot other
    have stored := owned.cleared same slot
    have elsewhere : ∀ thread' slot' value, (manager.platformSetValue thread
          (storage.assign slot none)).valueAt thread' slot' = some value →
        slot ≠ slot' := by
      rintro thread' slot' value held rfl
      by_cases here : thread' = thread
      · subst here
        rw [valueAt_cleared] at held
        cases held
      · rw [valueAt_platformSetValue, if_neg here] at held
        obtain ⟨storage, member, held⟩ := exists_of_valueAt held
        exact clear ⟨slot, found, (thread', storage), member, here,
          Option.isSome_iff_exists.mpr ⟨value, held⟩⟩
    have recorded : Owned ((manager.platformSetValue thread
        (storage.assign slot none)).record
          (.allocated slot destructor)) := by
      refine stored.record trivial ?_ ?_
      · intro thread' slot' value held
        exact beq_false_of_ne (elsewhere thread' slot' value held)
      · intro slot' active
        exact beq_false_of_ne fun here => active (here ▸ free)
    exact recorded.handOver fun _ =>
      List.find?_cons_of_pos (beq_self_eq_true slot)

theorem freeSlot (thread : Nat) (index : Int) :
    Owned (manager.freeSlot thread index) := by
  unfold TLSManager.freeSlot
  split
  case h_1 => exact owned
  case h_2 slot =>
    split
    case isFalse => exact owned
    case isTrue inside =>
      split
      case h_1 storage stored =>
        have current : ∀ other, storage.value other =
            manager.valueAt thread other := by
          intro other
          rw [valueAt, getOrCreateThreadStorage, stored]
          rfl
        exact (owned.cleared current slot).handOver
          fun target => absurd rfl target
      case h_2 => exact owned.handOver fun target => absurd rfl target

theorem internalGetSlotValue (thread : Nat) (index : Int) :
    Owned (manager.internalGetSlotValue thread index).1 := by
  unfold TLSManager.internalGetSlotValue
  split
  case h_1 => exact owned
  case h_2 slot =>
    have stored : Owned (manager.platformSetValue thread
        (manager.getOrCreateThreadStorage thread)) :=
      owned.platformSetValue fun other value found => found
    refine stored.record (fun value read => ?_) (fun _ _ _ _ => rfl)
      fun _ _ => rfl
    exact owned.holds thread slot value read

theorem internalSetSlotValue (thread : Nat) (value : Option Value)
    (index : Int) :
    Owned (manager.internalSetSlotValue thread value index) := by
  unfold TLSManager.internalSetSlotValue
  split
  case h_1 => exact owned
  case h_2 slot =>
    let storage := (manager.getOrCreateThreadStorage thread).ensureIndex slot
    have written : ∀ thread' slot' read, (manager.platformSetValue thread
          (storage.assign slot value)).valueAt thread' slot' = some read →
        (thread' = thread ∧ slot' = slot ∧ value = some read) ∨
          (¬(thread = thread' ∧ slot = slot') ∧
            manager.valueAt thread' slot' = some read) := by
      intro thread' slot' read found
      rw [valueAt_platformSetValue] at found
      split at found
      case isFalse apart =>
        exact .inr ⟨fun both => apart both.1.symm, found⟩
      case isTrue same =>
        by_cases here : slot' = slot
        · subst here
          rw [PerThreadStorage.value_assign
            (PerThreadStorage.length_ensureIndex _ slot')] at found
          exact .inl ⟨same, rfl, found⟩
        · rw [PerThreadStorage.value_assign_other here,
            PerThreadStorage.value_ensureIndex] at found
          exact .inr ⟨fun both => here both.2.symm, same ▸ found⟩
    exact
      { holds := by
          intro thread' slot' read found
          rcases written thread' slot' read found with
            ⟨rfl, rfl, rfl⟩ | ⟨apart, found⟩
          · exact List.find?_cons_of_pos (by simp [concerns])
          · refine (List.find?_cons_of_neg ?_).trans
              (owned.holds thread' slot' read found)
            simpa [concerns] using apart
        owns := fun slot' active =>
          (List.find?_cons_of_neg (by simp [allocates])).trans
            (owned.owns slot' active)
        proper := ⟨trivial, owned.proper⟩ }

/-! ### Thread exit -/

theorem destroySlot (thread : Nat) (used : kind ≠ .free) (slot : Nat) :
    Owned (manager.destroySlot thread kind slot) := by
  unfold TLSManager.destroySlot
  split
  case isFalse => exact owned
  case isTrue active =>
    have cleared : Owned (manager.platformSetValue thread
        ((manager.getOrCreateThreadStorage thread).assign slot none)) :=
      owned.cleared (fun _ => rfl) slot
    dsimp only
    cases held : (manager.getOrCreateThreadStorage thread).value slot with
    | none => exact owned
    | some value =>
      cases given : manager.slotDestructors slot with
      | none => exact cleared
      | some destructor =>
        refine cleared.record ⟨?_, ?_⟩ ?_ fun _ _ => rfl
        · exact owned.holds thread slot value held
        · exact given ▸ owned.owns slot (active ▸ used)
        · intro thread' slot' value' found
          rw [Bool.eq_false_iff]
          intro same
          obtain ⟨rfl, rfl⟩ : thread = thread' ∧ slot = slot' := by
            simpa [concerns] using same
          rw [valueAt_cleared] at found
          cases found

theorem destroySlots (thread : Nat) (used : kind ≠ .free) (slots : List Nat) :
    Owned (slots.foldl (TLSManager.destroySlot thread kind) manager) := by
  induction slots generalizing manager with
  | nil => exact owned
  | cons slot slots ih =>
    exact ih (owned.destroySlot thread used slot)

end

private theorem inUse_ne_free : SlotState.inUse ≠ .free := nofun

private theorem longLived_ne_free : SlotState.longLived ≠ .free := nofun

theorem onThreadExit (owned : Owned manager)
    (exited : manager.onThreadExit thread = some next) : Owned next := by
  unfold TLSManager.onThreadExit at exited
  split at exited
  case h_2 => exact Option.some.inj exited ▸ owned
  case h_1 storage stored =>
    dsimp only at exited
    split at exited
    case isFalse => cases exited
    case isTrue =>
      obtain rfl := Option.some.inj exited
      let slots := List.range storage.values.length
      have first := owned.destroySlots thread inUse_ne_free slots
      have second := first.destroySlots thread longLived_ne_free slots
      refine second.removing fun thread' slot value found => ?_
      rw [valueAt_filter] at found
      split at found
      case isTrue => cases found
      case isFalse => exact found

theorem step {action : Action Value Destructor} (owned : Owned manager)
    (clear : ¬Inherits manager action)
    (taken : Threading.step manager action = some next) : Owned next := by
  cases action with
  | allocate thread destructor longLived =>
    cases longLived <;>
      exact Option.some.inj taken ▸ owned.allocateSlotInternal clear
  | free thread index =>
    exact Option.some.inj taken ▸ owned.freeSlot thread index
  | get thread index =>
    exact Option.some.inj taken ▸ owned.internalGetSlotValue thread index
  | set thread index value =>
    exact Option.some.inj taken ▸
      owned.internalSetSlotValue thread value index
  | exit thread => exact owned.onThreadExit taken

theorem initial : Owned ({} : TLSManager Value Destructor) where
  holds _ _ _ found := by cases found
  owns _ active := absurd rfl active
  proper := trivial

end Owned

/-- Where no slot is allocated while another thread has a value in it, a slot
reads null on every thread until the thread sets it, and a destructor gets only
what was set through the allocation it came with. -/
theorem slots_do_not_leak {actions : List (Action Value Destructor)}
    {manager : TLSManager Value Destructor}
    (performed : perform step {} actions = some manager)
    (clear : Avoids step Inherits {} actions) :
    ReadsNull manager.history ∧ DestroysOwn manager.history := by
  have owned : Owned manager :=
    perform_avoiding Owned.step performed clear Owned.initial
  exact ⟨owned.proper.readsNull, owned.proper.destroysOwn⟩

/-- Two owners of slot 0, and a thread that sets it for both of them: it takes
the first value back only when the slot has been freed. -/
def carefulCalls : List (Action Nat Nat) :=
  [.allocate 1 (some 10) false, .set 2 0 (some 7), .get 2 0,
    .free 1 0, .set 2 0 none, .allocate 1 (some 20) true, .get 2 0,
    .set 2 0 (some 8), .exit 2]

theorem slots_do_not_leak_careful :
    Avoids step Inherits {} carefulCalls ∧
      ∃ manager, perform step {} carefulCalls = some manager ∧
        .destroyed 20 2 0 8 ∈ manager.history ∧
        ReadsNull manager.history ∧ DestroysOwn manager.history := by
  have careful : Avoids step Inherits {} carefulCalls := by
    decide +kernel
  have seen : (perform step {} carefulCalls).map
      (fun manager => decide (.destroyed 20 2 0 8 ∈ manager.history)) =
        some true := by
    decide +kernel
  obtain ⟨manager, performed, member⟩ := Option.map_eq_some_iff.mp seen
  exact ⟨careful, manager, performed, of_decide_eq_true member,
    slots_do_not_leak performed careful⟩

/-- The slot is freed by the thread that allocated it, while another thread
has a value in it. -/
def leakingCalls : List (Action Nat Nat) :=
  [.allocate 1 none false, .set 2 0 (some 7), .free 1 0,
    .allocate 1 (some 10) false, .get 2 0, .exit 2]

theorem slots_leak :
    ∃ manager, perform step {} leakingCalls = some manager ∧
      ¬ReadsNull manager.history ∧ ¬DestroysOwn manager.history := by
  have seen : (perform step {} leakingCalls).map (·.history) =
      some [.destroyed 10 2 0 7, .got 2 0 (some 7), .allocated 0 (some 10),
        .set 2 0 (some 7), .allocated 0 none] := by
    decide +kernel
  obtain ⟨manager, performed, same⟩ := Option.map_eq_some_iff.mp seen
  refine ⟨manager, performed, fun reads => ?_, fun destroys => ?_⟩
  · have null := reads [.destroyed 10 2 0 7] []
      [.set 2 0 (some 7), .allocated 0 none] 2 0 (some 7) (some 10) same
      (fun _ => List.not_mem_nil)
    cases null
  · obtain ⟨recent, between, older, past, unallocated, -⟩ :=
      destroys [] _ 2 0 7 10 same
    -- The only write lies behind the second allocation.
    rcases recent with _ | ⟨first, _ | ⟨second, recent⟩⟩
    · cases (List.cons.inj past).1
    · cases (List.cons.inj (List.cons.inj past).2).1
    · obtain ⟨rfl, -⟩ := List.cons.inj (List.cons.inj past).2
      exact unallocated (some 10) (by simp)

end Libnei.Threading
