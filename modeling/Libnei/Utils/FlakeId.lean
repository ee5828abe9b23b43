import Libnei.Lib.Threads
import Mathlib.Data.Nat.Bitwise

/-!
# Flake ids

The id generator of `flake_id.c`.  The threads share the counter of the thread
tags and nothing else.  A step of a thread is the beginning of a call, with
the tag where the thread has none yet, or one reading of the clock, which may
say anything; a thread that has used up a millisecond reads the clock until
it has moved on.  The ids are kept in the order in which they are returned.
-/

namespace Libnei.Utils

open Lib

def epochMs : Nat := 1704067200000
def timestampBits : Nat := 41
def threadTagBits : Nat := 5
def sequenceBits : Nat := 17
def sequenceMask : Nat := (1 <<< sequenceBits) - 1
def threadTagMask : Nat := (1 <<< threadTagBits) - 1
def timestampMask : Nat := (1 <<< timestampBits) - 1

/-- What the two clocks say, negative where they fail. -/
structure Reading where
  fastUs : Int
  wallMs : Int

def Reading.nowMs (reading : Reading) : Nat :=
  if 0 ≤ reading.fastUs then (reading.fastUs / 1000).toNat
  else if 0 ≤ reading.wallMs then reading.wallMs.toNat
  else 0

/-- `nei_flake_tls_state_st`. -/
structure Tls where
  initialized : Bool
  threadTag : Nat
  lastMs : Nat
  sequence : Nat

def Tls.id (tls : Tls) : Nat :=
  let tsPart := (tls.lastMs - epochMs) &&& timestampMask
  tsPart <<< (threadTagBits + sequenceBits) |||
    (tls.threadTag &&& threadTagMask) <<< sequenceBits |||
    (tls.sequence &&& sequenceMask)

inductive Phase
  | idle
  | reading
  | spinning

structure Caller where
  tls : Tls
  phase : Phase

structure Process (Thread : Type) where
  threadTagCounter : Nat
  issued : List (Thread × Nat)

inductive Command
  | call
  | clock (reading : Reading)

variable {Thread : Type}

def issue (me : Thread) (process : Process Thread) (tls : Tls) :
    Process Thread × Caller :=
  ({ process with issued := process.issued ++ [(me, tls.id)] }, ⟨tls, .idle⟩)

def nextThreadTag (process : Process Thread) : Process Thread × Nat :=
  ({ process with
    threadTagCounter := (process.threadTagCounter + 1) % 2 ^ 32 },
    process.threadTagCounter &&& threadTagMask)

/-- The part of `nei_flake_next_id` in front of the first reading. -/
def beginCall (process : Process Thread) (tls : Tls) :
    Process Thread × Caller :=
  if tls.initialized then (process, ⟨tls, .reading⟩)
  else
    let (process, threadTag) := nextThreadTag process
    (process, ⟨⟨true, threadTag, 0, 0⟩, .reading⟩)

/-- The part behind the first reading. -/
def readClock (me : Thread) (process : Process Thread) (tls : Tls)
    (nowMs : Nat) : Process Thread × Caller :=
  let nowMs := if nowMs < epochMs then epochMs else nowMs
  let nowMs := if nowMs < tls.lastMs then tls.lastMs else nowMs
  if nowMs = tls.lastMs then
    if tls.sequence ≥ sequenceMask then (process, ⟨tls, .spinning⟩)
    else issue me process { tls with sequence := tls.sequence + 1 }
  else issue me process { tls with lastMs := nowMs, sequence := 0 }

/-- One round of the loop that waits for the next millisecond. -/
def spinClock (me : Thread) (process : Process Thread) (tls : Tls)
    (nowMs : Nat) : Process Thread × Caller :=
  let nowMs := if nowMs < tls.lastMs then tls.lastMs else nowMs
  if nowMs ≤ tls.lastMs then (process, ⟨tls, .spinning⟩)
  else issue me process { tls with lastMs := nowMs, sequence := 0 }

def exec (me : Thread) (process : Process Thread) :
    Caller → Command → Option (Process Thread × Caller)
  | ⟨tls, .idle⟩, .call => some (beginCall process tls)
  | ⟨tls, .reading⟩, .clock reading =>
      some (readClock me process tls reading.nowMs)
  | ⟨tls, .spinning⟩, .clock reading =>
      some (spinClock me process tls reading.nowMs)
  | _, _ => none

abbrev FlakeState (Thread : Type) := Threads Thread (Process Thread) Caller

def FlakeState.start : FlakeState Thread :=
  ⟨⟨0, []⟩, fun _ => ⟨⟨false, 0, 0, 0⟩, .idle⟩⟩

/-- A reading for which the field of the time is too small. -/
def ReadsLate (_ : FlakeState Thread) : Thread × Command → Prop
  | (_, .call) => False
  | (_, .clock reading) => epochMs + timestampMask < reading.nowMs

/-- A thread gets its tag when all tags are given out. -/
def ComesLate (state : FlakeState Thread) : Thread × Command → Prop
  | (me, .call) =>
      (state.threads me).tls.initialized = false ∧
        threadTagMask < state.memory.threadTagCounter
  | (_, .clock _) => False

/-! ## The fields of an id -/

/-- Every field holds its number. -/
structure Tls.Fits (tls : Tls) : Prop where
  time : tls.lastMs ≤ epochMs + timestampMask
  tag : tls.threadTag ≤ threadTagMask
  sequence : tls.sequence ≤ sequenceMask

namespace Tls

variable {tls tls' : Tls}

theorem id_eq (fits : tls.Fits) :
    tls.id = ((tls.lastMs - epochMs) * 32 + tls.threadTag) * 131072 +
      tls.sequence := by
  have time : tls.lastMs - epochMs < 2 ^ 41 :=
    Nat.lt_succ_of_le (Nat.sub_le_iff_le_add'.mpr fits.time)
  have tag : tls.threadTag < 2 ^ 5 := Nat.lt_succ_of_le fits.tag
  have sequence : tls.sequence < 2 ^ 17 := Nat.lt_succ_of_le fits.sequence
  have timePart : (tls.lastMs - epochMs) &&& timestampMask =
      tls.lastMs - epochMs := Nat.and_two_pow_sub_one_of_lt_two_pow time
  have tagPart : tls.threadTag &&& threadTagMask = tls.threadTag :=
    Nat.and_two_pow_sub_one_of_lt_two_pow tag
  have sequencePart : tls.sequence &&& sequenceMask = tls.sequence :=
    Nat.and_two_pow_sub_one_of_lt_two_pow sequence
  have joined : (tls.lastMs - epochMs) <<< (threadTagBits + sequenceBits) |||
      tls.threadTag <<< sequenceBits =
        ((tls.lastMs - epochMs) <<< threadTagBits + tls.threadTag)
          <<< sequenceBits := by
    rw [Nat.shiftLeft_add, ← Nat.shiftLeft_or_distrib,
      ← Nat.shiftLeft_add_eq_or_of_lt (show tls.threadTag < 2 ^ threadTagBits
        from tag)]
  unfold Tls.id
  dsimp only
  rw [timePart, tagPart, sequencePart, joined,
    ← Nat.shiftLeft_add_eq_or_of_lt (show tls.sequence < 2 ^ sequenceBits
      from sequence), Nat.shiftLeft_eq, Nat.shiftLeft_eq]
  rfl

theorem id_tag (fits : tls.Fits) : tls.id / 131072 % 32 = tls.threadTag := by
  have tag : tls.threadTag < 32 := Nat.lt_succ_of_le fits.tag
  have sequence : tls.sequence < 131072 := Nat.lt_succ_of_le fits.sequence
  rw [id_eq fits]
  omega

/-- What the state of a thread is like when it has issued one more id. -/
structure Follows (tls tls' : Tls) : Prop where
  initialized : tls'.initialized = tls.initialized
  threadTag : tls'.threadTag = tls.threadTag
  started : epochMs ≤ tls'.lastMs
  later : tls.lastMs < tls'.lastMs ∨
    tls.lastMs = tls'.lastMs ∧ tls.sequence < tls'.sequence

theorem Follows.id_lt (follows : Follows tls tls') (fits : tls.Fits)
    (fits' : tls'.Fits) (started : epochMs ≤ tls.lastMs) :
    tls.id < tls'.id := by
  have tag : tls.threadTag < 32 := Nat.lt_succ_of_le fits.tag
  have sequence : tls.sequence < 131072 := Nat.lt_succ_of_le fits.sequence
  have later := follows.later
  rw [id_eq fits, id_eq fits', follows.threadTag]
  omega

end Tls

/-! ## The steps -/

/-- A thread between its calls or in one of them. -/
structure Caller.Sound (caller : Caller) : Prop where
  fits : caller.tls.Fits
  tagged : caller.phase ≠ .idle → caller.tls.initialized = true
  started : caller.phase = .spinning → epochMs ≤ caller.tls.lastMs

/-- What a step does to the counter, the ids and the thread. -/
inductive Turns (me : Thread) (process : Process Thread) :
    Caller → Process Thread → Caller → Prop
  | enter {tls : Tls} : tls.initialized = true →
      Turns me process ⟨tls, .idle⟩ process ⟨tls, .reading⟩
  | tag {tls : Tls} : tls.initialized = false →
      Turns me process ⟨tls, .idle⟩ (nextThreadTag process).1
        ⟨⟨true, process.threadTagCounter &&& threadTagMask, 0, 0⟩, .reading⟩
  | spin {tls : Tls} {phase : Phase} : phase ≠ .idle → epochMs ≤ tls.lastMs →
      Turns me process ⟨tls, phase⟩ process ⟨tls, .spinning⟩
  | issue {tls tls' : Tls} {phase : Phase} : phase ≠ .idle →
      tls.Follows tls' → tls'.Fits →
      Turns me process ⟨tls, phase⟩ (issue me process tls').1 ⟨tls', .idle⟩

section Step

variable {me : Thread} {process process' : Process Thread} {tls : Tls}
  {caller : Caller}

theorem beginCall_turns (done : beginCall process tls = (process', caller)) :
    Turns me process ⟨tls, .idle⟩ process' caller := by
  unfold beginCall at done
  split at done
  case isTrue initialized =>
    cases done
    exact .enter initialized
  case isFalse fresh =>
    cases done
    exact .tag (eq_false_of_ne_true fresh)

theorem readClock_turns (fits : tls.Fits) {nowMs : Nat}
    (timely : nowMs ≤ epochMs + timestampMask)
    (done : readClock me process tls nowMs = (process', caller)) :
    Turns me process ⟨tls, .reading⟩ process' caller := by
  have time := fits.time
  unfold readClock at done
  generalize read : (if nowMs < epochMs then epochMs else nowMs) = clock
    at done
  have clockRange : epochMs ≤ clock ∧ clock ≤ epochMs + timestampMask := by
    rw [← read]
    split <;> omega
  dsimp only at done
  generalize latest : (if clock < tls.lastMs then tls.lastMs else clock) =
    now at done
  have nowRange : tls.lastMs ≤ now ∧ epochMs ≤ now ∧
      now ≤ epochMs + timestampMask := by
    rw [← latest]
    split <;> omega
  split at done
  case isTrue same =>
    have started : epochMs ≤ tls.lastMs := same ▸ nowRange.2.1
    split at done
    case isTrue full =>
      cases done
      exact .spin nofun started
    case isFalse free =>
      cases done
      exact .issue nofun ⟨rfl, rfl, started, .inr ⟨rfl, Nat.lt_succ_self _⟩⟩
        ⟨time, fits.tag, Nat.lt_of_not_ge free⟩
  case isFalse moved =>
    cases done
    have later : tls.lastMs < now :=
      Nat.lt_of_le_of_ne nowRange.1 (Ne.symm moved)
    exact .issue nofun ⟨rfl, rfl, nowRange.2.1, .inl later⟩
      ⟨nowRange.2.2, fits.tag, Nat.zero_le _⟩

theorem spinClock_turns (fits : tls.Fits) (started : epochMs ≤ tls.lastMs)
    {nowMs : Nat} (timely : nowMs ≤ epochMs + timestampMask)
    (done : spinClock me process tls nowMs = (process', caller)) :
    Turns me process ⟨tls, .spinning⟩ process' caller := by
  have time := fits.time
  unfold spinClock at done
  generalize latest : (if nowMs < tls.lastMs then tls.lastMs else nowMs) =
    now at done
  have nowRange : now ≤ epochMs + timestampMask := by
    rw [← latest]
    split <;> omega
  dsimp only at done
  split at done
  case isTrue same =>
    cases done
    exact .spin nofun started
  case isFalse moved =>
    cases done
    have later : tls.lastMs < now := Nat.lt_of_not_ge moved
    exact .issue nofun
      ⟨rfl, rfl, started.trans (Nat.le_of_lt later), .inl later⟩
      ⟨nowRange, fits.tag, Nat.zero_le _⟩

end Step

variable [DecidableEq Thread]

def step : FlakeState Thread → Thread × Command → Option (FlakeState Thread) :=
  Threads.step exec

variable {state next : FlakeState Thread} {action : Thread × Command}
  {me : Thread} {process : Process Thread} {caller : Caller}

theorem step_turns (sound : (state.threads action.1).Sound)
    (timely : ¬ReadsLate state action) (taken : step state action = some next) :
    ∃ process caller,
      Turns action.1 state.memory (state.threads action.1) process caller ∧
      next = state.become action.1 process caller := by
  obtain ⟨process, caller, executed, become⟩ := Threads.step_eq_some taken
  refine ⟨process, caller, ?_, become⟩
  obtain ⟨me, command⟩ := action
  generalize state.threads me = thread at executed sound ⊢
  obtain ⟨tls, phase⟩ := thread
  cases command with
  | call =>
    cases phase with
    | idle => exact beginCall_turns (Option.some.inj executed)
    | reading | spinning => cases executed
  | clock reading =>
    have soon := Nat.le_of_not_lt timely
    cases phase with
    | idle => cases executed
    | reading =>
      exact readClock_turns sound.fits soon (Option.some.inj executed)
    | spinning =>
      exact spinClock_turns sound.fits (sound.started rfl) soon
        (Option.some.inj executed)

/-! ## Order -/

/-- An id that this state has behind it. -/
structure Tls.Passed (tls : Tls) (id : Nat) : Prop where
  initialized : tls.initialized = true
  started : epochMs ≤ tls.lastMs
  le : id ≤ tls.id
  tag : id / 131072 % 32 = tls.threadTag

structure Ordered (state : FlakeState Thread) : Prop where
  sound : ∀ thread, (state.threads thread).Sound
  passed : ∀ entry ∈ state.memory.issued,
    (state.threads entry.1).tls.Passed entry.2
  increasing : state.memory.issued.Pairwise fun earlier later =>
    earlier.1 = later.1 → earlier.2 < later.2

omit [DecidableEq Thread] in
theorem Turns.sound {process' : Process Thread} {caller' : Caller}
    (turns : Turns me process caller process' caller') (sound : caller.Sound) :
    caller'.Sound := by
  cases turns with
  | enter initialized => exact ⟨sound.fits, fun _ => initialized, nofun⟩
  | tag fresh =>
    have fits : Tls.Fits
        ⟨true, process.threadTagCounter &&& threadTagMask, 0, 0⟩ :=
      ⟨Nat.zero_le _, Nat.and_le_right, Nat.zero_le _⟩
    exact ⟨fits, fun _ => rfl, nofun⟩
  | spin inCall started =>
    exact ⟨sound.fits, fun _ => sound.tagged inCall, fun _ => started⟩
  | issue inCall follows fits => exact ⟨fits, (absurd rfl ·), nofun⟩

omit [DecidableEq Thread] in
theorem Turns.passed {process' : Process Thread} {caller' : Caller}
    (turns : Turns me process caller process' caller') (sound : caller.Sound)
    {id : Nat} (passed : caller.tls.Passed id) :
    caller'.tls.Passed id := by
  cases turns with
  | enter | spin => exact passed
  | tag fresh =>
    rw [passed.initialized] at fresh
    cases fresh
  | issue inCall follows fits =>
    have less := follows.id_lt sound.fits fits passed.started
    exact ⟨follows.initialized.trans passed.initialized, follows.started,
      passed.le.trans (Nat.le_of_lt less),
      passed.tag.trans follows.threadTag.symm⟩

omit [DecidableEq Thread] in
theorem ordered_start : Ordered (FlakeState.start : FlakeState Thread) :=
  ⟨fun _ => ⟨⟨Nat.zero_le _, Nat.zero_le _, Nat.zero_le _⟩, (absurd rfl ·),
    nofun⟩, nofun, List.Pairwise.nil⟩

theorem step_ordered (ordered : Ordered state)
    (timely : ¬ReadsLate state action) (taken : step state action = some next) :
    Ordered next := by
  obtain ⟨process, caller, turns, rfl⟩ :=
    step_turns (ordered.sound action.1) timely taken
  obtain ⟨me, command⟩ := action
  have mine := ordered.sound me
  have sound : ∀ other,
      ((state.become me process caller).threads other).Sound :=
    Threads.forall_become (fun _ => Caller.Sound) ordered.sound
      (turns.sound mine)
  have stillPassed : ∀ entry ∈ state.memory.issued,
      ((state.become me process caller).threads entry.1).tls.Passed
        entry.2 := by
    intro entry member
    have passed := ordered.passed entry member
    by_cases own : entry.1 = me
    · rw [own] at passed
      rw [own, Threads.become_self]
      exact turns.passed mine passed
    · rw [Threads.become_of_ne state own]
      exact passed
  dsimp only at turns
  generalize held : state.threads me = thread at turns mine
  cases turns with
  | enter | tag | spin =>
    exact ⟨sound, stillPassed, ordered.increasing⟩
  | @issue tls tls' phase inCall follows fits =>
    refine ⟨sound, ?_, ?_⟩
    · intro entry member
      rcases List.mem_append.mp member with old | new
      · exact stillPassed entry old
      · obtain rfl := List.mem_singleton.mp new
        rw [Threads.become_self]
        exact ⟨follows.initialized.trans (mine.tagged inCall),
          follows.started, le_rfl, Tls.id_tag fits⟩
    · refine List.pairwise_append.mpr
        ⟨ordered.increasing, List.pairwise_singleton _ _, ?_⟩
      intro entry member new isNew own
      obtain rfl := List.mem_singleton.mp isNew
      have passed := ordered.passed entry member
      rw [show entry.1 = me from own, held] at passed
      exact Nat.lt_of_le_of_lt passed.le
        (follows.id_lt mine.fits fits passed.started)

/-! ## Tags -/

/-- The threads with a tag have different ones. -/
structure Tagged (state : FlakeState Thread) : Prop where
  below : ∀ {thread}, (state.threads thread).tls.initialized = true →
    (state.threads thread).tls.threadTag < state.memory.threadTagCounter
  few : state.memory.threadTagCounter ≤ threadTagMask + 1
  distinct : ∀ {thread other}, (state.threads thread).tls.initialized = true →
    (state.threads other).tls.initialized = true →
    (state.threads thread).tls.threadTag =
      (state.threads other).tls.threadTag → thread = other

omit [DecidableEq Thread] in
theorem tagged_start : Tagged (FlakeState.start : FlakeState Thread) :=
  ⟨nofun, Nat.zero_le _, nofun⟩

theorem Tagged.become (tagged : Tagged state)
    (counter : process.threadTagCounter = state.memory.threadTagCounter)
    (initialized : caller.tls.initialized = (state.threads me).tls.initialized)
    (threadTag : caller.tls.threadTag = (state.threads me).tls.threadTag) :
    Tagged (state.become me process caller) := by
  have same : ∀ thread,
      ((state.become me process caller).threads thread).tls.initialized =
        (state.threads thread).tls.initialized ∧
      ((state.become me process caller).threads thread).tls.threadTag =
        (state.threads thread).tls.threadTag := by
    intro thread
    by_cases own : thread = me
    · rw [own, Threads.become_self]
      exact ⟨initialized, threadTag⟩
    · rw [Threads.become_of_ne state own]
      exact ⟨rfl, rfl⟩
  constructor
  · intro thread tag
    rw [(same thread).1] at tag
    rw [(same thread).2, Threads.become_memory, counter]
    exact tagged.below tag
  · rw [Threads.become_memory, counter]
    exact tagged.few
  · intro thread other tag otherTag equal
    rw [(same thread).1] at tag
    rw [(same other).1] at otherTag
    rw [(same thread).2, (same other).2] at equal
    exact tagged.distinct tag otherTag equal

theorem Tagged.tag (tagged : Tagged state)
    (early : state.memory.threadTagCounter ≤ threadTagMask) :
    Tagged (state.become me (nextThreadTag state.memory).1
      ⟨⟨true, state.memory.threadTagCounter &&& threadTagMask, 0, 0⟩,
        .reading⟩) := by
  have counter : (state.memory.threadTagCounter + 1) % 2 ^ 32 =
      state.memory.threadTagCounter + 1 :=
    Nat.mod_eq_of_lt (Nat.lt_of_le_of_lt (Nat.succ_le_succ early) (by decide))
  have small : state.memory.threadTagCounter < 2 ^ 5 :=
    Nat.lt_succ_of_le early
  have next : state.memory.threadTagCounter &&& threadTagMask =
      state.memory.threadTagCounter :=
    Nat.and_two_pow_sub_one_of_lt_two_pow small
  rw [next]
  constructor
  · intro thread tag
    rw [Threads.become_memory, nextThreadTag, counter]
    by_cases own : thread = me
    · rw [own, Threads.become_self]
      exact Nat.lt_succ_self _
    · rw [Threads.become_of_ne state own] at tag ⊢
      exact Nat.lt_succ_of_lt (tagged.below tag)
  · rw [Threads.become_memory, nextThreadTag, counter]
    exact Nat.succ_le_succ early
  · intro thread other tag otherTag equal
    by_cases own : thread = me <;> by_cases otherOwn : other = me
    · rw [own, otherOwn]
    · rw [own, Threads.become_self, Threads.become_of_ne state otherOwn]
        at equal
      rw [Threads.become_of_ne state otherOwn] at otherTag
      exact absurd equal (Nat.ne_of_gt (tagged.below otherTag))
    · rw [otherOwn, Threads.become_self, Threads.become_of_ne state own]
        at equal
      rw [Threads.become_of_ne state own] at tag
      exact absurd equal (Nat.ne_of_lt (tagged.below tag))
    · rw [Threads.become_of_ne state own] at tag equal
      rw [Threads.become_of_ne state otherOwn] at otherTag equal
      exact tagged.distinct tag otherTag equal

theorem step_tagged (ordered : Ordered state) (tagged : Tagged state)
    (timely : ¬ReadsLate state action) (early : ¬ComesLate state action)
    (taken : step state action = some next) : Tagged next := by
  obtain ⟨process, caller, turns, rfl⟩ :=
    step_turns (ordered.sound action.1) timely taken
  obtain ⟨me, command⟩ := action
  dsimp only at turns
  generalize held : state.threads me = thread at turns
  cases turns with
  | enter | spin => exact tagged.become rfl (by rw [held]) (by rw [held])
  | issue inCall follows fits =>
    exact tagged.become rfl (by rw [held]; exact follows.initialized)
      (by rw [held]; exact follows.threadTag)
  | @tag tls fresh =>
    cases command with
    | call =>
      have few := fun many => early ⟨by rw [held]; exact fresh, many⟩
      exact tagged.tag (Nat.le_of_not_lt few)
    | clock reading =>
      obtain ⟨_, _, executed, _⟩ := Threads.step_eq_some taken
      dsimp only at executed
      rw [held] at executed
      cases executed

omit [DecidableEq Thread] in
/-- Ids of one thread differ by their order and others by their tags. -/
theorem issued_nodup (ordered : Ordered state) (tagged : Tagged state) :
    (state.memory.issued.map Prod.snd).Nodup := by
  apply List.pairwise_map.mpr
  refine ordered.increasing.imp_of_mem ?_
  intro earlier later member member' increasing equal
  have passed := ordered.passed earlier member
  have passed' := ordered.passed later member'
  have sameTag : (state.threads earlier.1).tls.threadTag =
      (state.threads later.1).tls.threadTag := by
    rw [← passed.tag, ← passed'.tag, equal]
  have same := tagged.distinct passed.initialized passed'.initialized sameTag
  exact absurd equal (Nat.ne_of_lt (increasing same))

/-- While the time fits its field, the ids of a thread increase, and while
there are tags left for the threads that come, no id is issued twice. -/
theorem flake_ids_increase {actions : List (Thread × Command)}
    {final : FlakeState Thread}
    (ran : perform step .start actions = some final)
    (timely : Avoids step ReadsLate .start actions) :
    (final.memory.issued.Pairwise fun earlier later =>
      earlier.1 = later.1 → earlier.2 < later.2) ∧
    (Avoids step ComesLate .start actions →
      (final.memory.issued.map Prod.snd).Nodup) := by
  have ordered := perform_avoiding step_ordered ran timely ordered_start
  refine ⟨ordered.increasing, fun early => ?_⟩
  have kept : ∀ {state : FlakeState Thread} {action next},
      Ordered state ∧ Tagged state →
      ¬(ReadsLate state action ∨ ComesLate state action) →
      step state action = some next → Ordered next ∧ Tagged next := by
    intro state action next held good taken
    obtain ⟨soon, tags⟩ := not_or.mp good
    exact ⟨step_ordered held.1 soon taken,
      step_tagged held.1 held.2 soon tags taken⟩
  have both := perform_avoiding kept ran (timely.either early)
    ⟨ordered_start, tagged_start⟩
  exact issued_nodup both.1 both.2

def firstReading : Reading := ⟨(epochMs * 1000 : Nat), -1⟩

/-- Two threads with the same clock, one of which calls twice. -/
def twoThreads : List (Fin 2 × Command) :=
  let one : Fin 2 := ⟨0, Nat.two_pos⟩
  let other : Fin 2 := ⟨1, Nat.one_lt_two⟩
  [(one, .call), (other, .call), (other, .clock firstReading),
    (one, .clock firstReading), (one, .call), (one, .clock firstReading)]

instance (state : FlakeState Thread) (action : Thread × Command) :
    Decidable (ReadsLate state action) :=
  match action with
  | (_, .call) => .isFalse not_false
  | (_, .clock reading) =>
      inferInstanceAs (Decidable (epochMs + timestampMask < reading.nowMs))

instance (state : FlakeState Thread) (action : Thread × Command) :
    Decidable (ComesLate state action) :=
  match action with
  | (me, .call) =>
      inferInstanceAs (Decidable ((state.threads me).tls.initialized = false ∧
          threadTagMask < state.memory.threadTagCounter))
  | (_, .clock _) => .isFalse not_false

theorem flake_ids_increase_twoThreads :
    ∃ final : FlakeState (Fin 2),
      perform step .start twoThreads = some final ∧
      (final.memory.issued.Pairwise fun earlier later =>
        earlier.1 = later.1 → earlier.2 < later.2) ∧
      (final.memory.issued.map Prod.snd).Nodup := by
  have ran : (perform step (.start : FlakeState (Fin 2))
      twoThreads).isSome := by decide
  have got := (Option.some_get ran).symm
  obtain ⟨increasing, unique⟩ := flake_ids_increase got (by decide)
  exact ⟨_, got, increasing, unique (by decide)⟩

/-- Thirty-three threads begin their first calls one after the other; the
first and the last of them read the clock in the same millisecond. -/
def thirtyThreeThreads : List (Fin 33 × Command) :=
  (List.finRange 33).map (·, .call) ++
    [(0, .clock firstReading), (32, .clock firstReading)]

theorem thirtyThreeThreads_repeat_an_id :
    (perform step (.start : FlakeState (Fin 33)) thirtyThreeThreads).map
      (fun final => final.memory.issued) = some [(0, 0), (32, 0)] := by
  decide

end Libnei.Utils
