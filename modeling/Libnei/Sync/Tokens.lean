import Libnei.Sync.AtomicEvent
import Mathlib.Data.Fintype.Option

/-!
# Tokens are neither lost nor multiplied

What holds in every state of an event with fewer than 2^30 waiters.
-/

namespace Libnei.Sync.AtomicEvent

open Lib

variable {Thread : Type} [DecidableEq Thread]

/-- Places, queue and number of waiters fit together. -/
structure Sound (state : State Thread) : Prop where
  ok : ∀ thread, (state.threads thread).Ok
  queued : ∀ thread ∈ state.memory.queue,
    ∃ call, state.threads thread = .parked call
  nodup : state.memory.registered.Nodup
  registered : ∀ thread, thread ∈ state.memory.registered ↔
    (state.threads thread).isRegistered = true
  waiters : state.memory.word.waiters = state.memory.registered.length
  few : state.memory.registered.length < Word.waiterLimit

/-- The tokens that have been consumed, and what the calls have returned. -/
structure Ledger (memory : Memory Thread) : Prop where
  below : ∀ token ∈ memory.consumed, token < memory.granted
  once : memory.consumed.Nodup
  fresh : memory.word.signaled = true →
    0 < memory.granted ∧ memory.granted - 1 ∉ memory.consumed
  returned : ∀ outcome ∈ memory.returned,
    outcome.result = false → outcome.tokens = 0

/-- No sleeper is forgotten. -/
def Covered (state : State Thread) : Prop :=
  state.memory.word.hasBits = true → state.memory.queue ≠ [] →
    ∃ thread, Covers state.memory thread (state.threads thread)

structure Inv (state : State Thread) : Prop extends Sound state where
  ledger : Ledger state.memory
  covered : Covered state

section Step

variable {state : State Thread} {me : Thread} {current pc : Pc}
  {memory : Memory Thread} {call : Call}

omit [DecidableEq Thread] in
theorem Sound.not_queued (sound : Sound state)
    (place : state.threads me = current)
    (notParked : ∀ call, current ≠ .parked call) :
    me ∉ state.memory.queue := by
  intro member
  obtain ⟨call, parked⟩ := sound.queued me member
  exact notParked call (place.symm.trans parked)

omit [DecidableEq Thread] in
theorem Sound.queue_nil (sound : Sound state)
    (none : state.memory.word.waiters = 0) : state.memory.queue = [] := by
  refine List.eq_nil_iff_forall_not_mem.mpr fun thread member => ?_
  obtain ⟨call, parked⟩ := sound.queued thread member
  have registered := (sound.registered thread).mpr (by rw [parked]; rfl)
  rw [sound.waiters, List.length_eq_zero_iff] at none
  rw [none] at registered
  cases registered

theorem Sound.change (sound : Sound state) (ok : pc.Ok)
    (queued : ∀ thread ∈ memory.queue, thread ∈ state.memory.queue ∧
      thread ≠ me ∨ thread = me ∧ ∃ call, pc = .parked call)
    (nodup : memory.registered.Nodup)
    (mine : me ∈ memory.registered ↔ pc.isRegistered = true)
    (others : ∀ thread, thread ≠ me →
      (thread ∈ memory.registered ↔ thread ∈ state.memory.registered))
    (waiters : memory.word.waiters = memory.registered.length)
    (few : memory.registered.length < Word.waiterLimit) :
    Sound (state.become me memory pc) where
  ok := Threads.forall_become (fun _ => Pc.Ok) sound.ok ok
  queued := by
    intro thread member
    rcases queued thread member with ⟨before, other⟩ | ⟨rfl, parked⟩
    · rw [Threads.become_of_ne state other]
      exact sound.queued thread before
    · rw [Threads.become_self]
      exact parked
  nodup := nodup
  registered := by
    intro thread
    by_cases other : thread = me
    · rw [other, Threads.become_self]
      exact mine
    · rw [Threads.become_of_ne state other, ← sound.registered]
      exact others thread other
  waiters := waiters
  few := few

/-- The places behind a step that leaves the registered threads alone. -/
theorem Sound.become (sound : Sound state) (place : state.threads me = current)
    (ok : pc.Ok) (same : pc.isRegistered = current.isRegistered)
    (queued : ∀ thread ∈ memory.queue, thread ∈ state.memory.queue ∧
      thread ≠ me ∨ thread = me ∧ ∃ call, pc = .parked call)
    (registered : memory.registered = state.memory.registered)
    (waiters : memory.word.waiters = state.memory.word.waiters) :
    Sound (state.become me memory pc) := by
  refine sound.change ok queued (registered ▸ sound.nodup) ?_
    (fun _ _ => by rw [registered]) ?_ (registered ▸ sound.few)
  · rw [registered, sound.registered, place, same]
  · rw [registered, waiters, sound.waiters]

variable {queue : List Thread} {returned : List Outcome}

omit [DecidableEq Thread] in
theorem Sound.kept (awake : me ∉ queue) (pc : Pc) :
    ∀ thread ∈ queue, thread ∈ queue ∧ thread ≠ me ∨
      thread = me ∧ ∃ call, pc = .parked call := by
  intro thread member
  refine .inl ⟨member, ?_⟩
  rintro rfl
  exact awake member

omit [DecidableEq Thread] in
theorem Covers.of_queue {memory' : Memory Thread} {thread : Thread}
    (covers : Covers memory thread pc)
    (broadcast : memory'.word.broadcast = memory.word.broadcast)
    (queue : thread ∈ memory'.queue → thread ∈ memory.queue) :
    Covers memory' thread pc := by
  unfold Covers at *
  split at covers <;> simp_all

/-- Who covers the sleepers behind a step that changes no bit and puts no
thread to sleep. -/
theorem Covered.become (covered : Covered state)
    (place : state.threads me = current)
    (bits : memory.word.hasBits = state.memory.word.hasBits)
    (broadcast : memory.word.broadcast = state.memory.word.broadcast)
    (queue : ∀ thread ∈ memory.queue, thread ∈ state.memory.queue)
    (mine : memory.word.hasBits = true → Covers state.memory me current →
      Covers memory me pc) :
    Covered (state.become me memory pc) := by
  intro hasBits sleepers
  rw [Threads.become_memory] at hasBits sleepers ⊢
  have before : state.memory.queue ≠ [] := by
    intro empty
    refine sleepers (List.eq_nil_iff_forall_not_mem.mpr ?_)
    intro thread member
    have member' := queue thread member
    rw [empty] at member'
    cases member'
  obtain ⟨thread, covers⟩ := covered (bits ▸ hasBits) before
  refine ⟨thread, ?_⟩
  by_cases other : thread = me
  · subst other
    rw [place] at covers
    rw [Threads.become_self]
    exact mine hasBits covers
  · rw [Threads.become_of_ne state other]
    exact covers.of_queue broadcast (queue thread)

theorem covered_of_queue_nil (empty : memory.queue = []) :
    Covered (state.become me memory pc) :=
  fun _ sleepers => absurd empty sleepers

theorem covered_of_clear (clear : memory.word.hasBits = false) :
    Covered (state.become me memory pc) := by
  intro hasBits
  rw [Threads.become_memory, clear] at hasBits
  cases hasBits

/-- A step that only moves the thread, and may end its call. -/
theorem Inv.quiet (inv : Inv state) (place : state.threads me = current)
    (ok : pc.Ok) (same : pc.isRegistered = current.isRegistered)
    (awake : me ∉ state.memory.queue)
    (outcomes : ∀ outcome ∈ returned,
      outcome.result = false → outcome.tokens = 0)
    (mine : state.memory.word.hasBits = true →
      Covers state.memory me current → Covers state.memory me pc) :
    Inv (state.become me { state.memory with returned } pc) where
  toSound := inv.toSound.become place ok same (Sound.kept awake pc) rfl rfl
  ledger := { inv.ledger with returned := outcomes }
  covered := by
    refine inv.covered.become place rfl rfl (fun _ member => member) ?_
    intro hasBits covers
    exact (mine hasBits covers).of_queue rfl id

omit [DecidableEq Thread] in
theorem outcomes_cons (ledger : Ledger memory) {outcome : Outcome}
    (good : outcome.result = false → outcome.tokens = 0) :
    ∀ other ∈ outcome :: memory.returned,
      other.result = false → other.tokens = 0 := by
  intro other member
  rcases List.mem_cons.mp member with rfl | member
  · exact good
  · exact ledger.returned other member

section

variable (inv : Inv state)

include inv

/-- A step that only moves a thread that is not parked. -/
theorem Inv.move (place : state.threads me = current)
    (notParked : ∀ call, current ≠ .parked call) (ok : pc.Ok)
    (same : pc.isRegistered = current.isRegistered)
    (mine : Covers state.memory me current → Covers state.memory me pc) :
    Inv (state.become me state.memory pc) :=
  inv.quiet place ok same (inv.not_queued place notParked)
    inv.ledger.returned fun _ => mine

/-! ## The exchanges -/

theorem Inv.grant (place : state.threads me = .signalCas state.memory.word) :
    Inv (state.become me { state.memory with
        word := { state.memory.word with signaled := true }
        granted := state.memory.granted + 1 }
      (if state.memory.word.waiters > 0 then .signalWake else .idle)) := by
  have clear : state.memory.word.hasBits = false := by
    have ok := inv.ok me
    rwa [place] at ok
  have noBroadcast : state.memory.word.broadcast = false :=
    (Bool.or_eq_false_iff.mp clear).2
  have awake := inv.not_queued place (by simp)
  refine ⟨?_, ?_, ?_⟩
  · refine inv.toSound.become place ?_ ?_ (Sound.kept awake _) rfl rfl
    · split <;> trivial
    · split <;> rfl
  · refine { inv.ledger with below := ?_, fresh := ?_ }
    · intro token member
      exact Nat.lt_succ_of_lt (inv.ledger.below token member)
    · intro _
      refine ⟨Nat.succ_pos _, fun member => ?_⟩
      exact Nat.lt_irrefl _ (inv.ledger.below _ member)
  · by_cases waiting : state.memory.word.waiters > 0
    · intro _ _
      refine ⟨me, ?_⟩
      rw [Threads.become_self, if_pos waiting]
      exact noBroadcast
    · exact covered_of_queue_nil (inv.queue_nil (by omega))

theorem Inv.announce (place : state.threads me = .allCas state.memory.word) :
    Inv (state.become me { state.memory with
        word := { state.memory.word with broadcast := true } }
      (if state.memory.word.waiters > 0 then .allWake else .idle)) := by
  have awake := inv.not_queued place (by simp)
  refine ⟨?_, { inv.ledger with }, ?_⟩
  · refine inv.toSound.become place ?_ ?_ (Sound.kept awake _) rfl rfl
    · split <;> trivial
    · split <;> rfl
  · by_cases waiting : state.memory.word.waiters > 0
    · intro _ _
      refine ⟨me, ?_⟩
      rw [Threads.become_self, if_pos waiting]
      trivial
    · exact covered_of_queue_nil (inv.queue_nil (by omega))

theorem Inv.consume
    (place : state.threads me = .waitCas call state.memory.word) :
    Inv (state.become me { state.memory with
        word := { state.memory.word with signaled := false }
        consumed := (state.memory.granted - 1) :: state.memory.consumed
        returned := ⟨true, call.tokens + 1⟩ :: state.memory.returned }
      .idle) := by
  have ok := inv.ok me
  rw [place] at ok
  obtain ⟨_, signaled, noBroadcast⟩ := ok
  obtain ⟨some, fresh⟩ := inv.ledger.fresh signaled
  have awake := inv.not_queued place (by simp)
  refine ⟨inv.toSound.become place trivial rfl (Sound.kept awake _) rfl rfl,
    ?_, covered_of_clear noBroadcast⟩
  refine ⟨?_, List.nodup_cons.mpr ⟨fresh, inv.ledger.once⟩, ?_,
    outcomes_cons inv.ledger (by simp)⟩
  · intro token member
    rcases List.mem_cons.mp member with rfl | member
    · exact Nat.sub_lt some Nat.one_pos
    · exact inv.ledger.below token member
  · nofun

end

/-! ## The queue -/

omit [DecidableEq Thread] in
theorem mem_of_mem_filter {test : Thread → Bool} :
    ∀ thread ∈ queue.filter test, thread ∈ queue :=
  fun _ member => (List.mem_filter.mp member).1

section

variable (inv : Inv state)

include inv

theorem Inv.wake {sleeper : Thread} (place : state.threads me = .signalWake)
    (asleep : sleeper ∈ state.memory.queue) :
    Inv (state.become me { state.memory with
        queue := state.memory.queue.filter (· ≠ sleeper) } .idle) := by
  have awake := inv.not_queued place (by simp)
  have other : sleeper ≠ me := by
    rintro rfl
    exact awake asleep
  obtain ⟨call, parked⟩ := inv.queued sleeper asleep
  refine ⟨inv.toSound.become place trivial rfl ?_ rfl rfl,
    { inv.ledger with }, ?_⟩
  · intro thread member
    refine .inl ⟨mem_of_mem_filter thread member, ?_⟩
    rintro rfl
    exact awake (mem_of_mem_filter _ member)
  · cases broadcast : state.memory.word.broadcast with
    | false =>
      -- the thread that has been woken looks again
      intro _ _
      refine ⟨sleeper, ?_⟩
      rw [Threads.become_of_ne state other, parked]
      exact ⟨broadcast, by simp⟩
    | true =>
      refine inv.covered.become place rfl rfl mem_of_mem_filter ?_
      intro _ covers
      rw [Covers, broadcast] at covers
      cases covers

/-- `FUTEX_WAKE` with nobody asleep, and `FUTEX_WAKE` of everybody. -/
theorem Inv.rouse (place : state.threads me = current)
    (free : current.isRegistered = false) :
    Inv (state.become me { state.memory with queue := [] } .idle) := by
  refine ⟨inv.toSound.become place trivial free.symm ?_ rfl rfl,
    { inv.ledger with }, covered_of_queue_nil rfl⟩
  intro thread member
  cases member

theorem Inv.sleep (place : state.threads me = .park call state.memory.word) :
    Inv (state.become me { state.memory with
        queue := me :: state.memory.queue } (.parked call)) := by
  have ok := inv.ok me
  rw [place] at ok
  have awake := inv.not_queued place (by simp)
  refine ⟨inv.toSound.become place ok.1 rfl ?_ rfl rfl,
    { inv.ledger with }, covered_of_clear ok.2⟩
  intro thread member
  rcases List.mem_cons.mp member with rfl | member
  · exact .inr ⟨rfl, call, rfl⟩
  · exact Sound.kept awake _ thread member

/-- `EINTR` or a timeout: the thread leaves the queue by itself. -/
theorem Inv.leave (woken : Bool) (place : state.threads me = .parked call)
    (asleep : me ∈ state.memory.queue) :
    Inv (state.become me { state.memory with
        queue := state.memory.queue.filter (· ≠ me) }
      (.unregister call woken)) := by
  have ok := inv.ok me
  rw [place] at ok
  refine ⟨inv.toSound.become place ok rfl ?_ rfl rfl,
    { inv.ledger with }, ?_⟩
  · intro thread member
    obtain ⟨before, other⟩ := List.mem_filter.mp member
    exact .inl ⟨before, by simpa using other⟩
  · refine inv.covered.become place rfl rfl mem_of_mem_filter ?_
    intro _ covers
    exact absurd asleep covers.2

end

/-! ## The waiters -/

/-- The step would register one thread too many. -/
abbrev crowded (state : State Thread) (action : Thread × Command Thread) :
    Prop :=
  (state.threads action.1).registers = true ∧
    Word.waiterLimit ≤ state.memory.registered.length + 1

theorem Inv.enroll (inv : Inv state) (place : state.threads me = .register call)
    (room : state.memory.registered.length + 1 < Word.waiterLimit) :
    Inv (state.become me { state.memory with
        word := state.memory.word.addWaiter
        registered := me :: state.memory.registered }
      (.park call state.memory.word.addWaiter.masked)) := by
  have ok := inv.ok me
  rw [place] at ok
  have awake := inv.not_queued place (by simp)
  have absent : me ∉ state.memory.registered := by
    intro member
    have registered := (inv.registered me).mp member
    rw [place] at registered
    cases registered
  refine ⟨?_, { inv.ledger with }, ?_⟩
  · refine inv.toSound.change ⟨ok, rfl⟩ (Sound.kept awake _)
      (List.nodup_cons.mpr ⟨absent, inv.nodup⟩) ?_ ?_ ?_ room
    · exact iff_of_true List.mem_cons_self rfl
    · intro thread other
      simp [other]
    · rw [List.length_cons, ← inv.waiters, Word.addWaiter]
      rw [← inv.waiters] at room
      exact Nat.mod_eq_of_lt room
  · exact inv.covered.become place rfl rfl (fun _ member => member)
      fun _ covers => covers

theorem Inv.withdraw (inv : Inv state) {woken : Bool}
    (place : state.threads me = .unregister call woken) (ok : pc.Ok)
    (free : pc.isRegistered = false)
    (outcomes : ∀ outcome ∈ returned,
      outcome.result = false → outcome.tokens = 0)
    (mine : Covers state.memory me (.unregister call woken) →
      Covers state.memory me pc) :
    Inv (state.become me { state.memory with
        word := state.memory.word.subWaiter
        registered := state.memory.registered.erase me
        returned } pc) := by
  have awake := inv.not_queued place (by simp)
  have present : me ∈ state.memory.registered :=
    (inv.registered me).mpr (by rw [place]; rfl)
  refine ⟨?_, ?_, ?_⟩
  · refine inv.toSound.change ok (Sound.kept awake _) (inv.nodup.erase me)
      ?_ ?_ ?_ ?_
    · rw [free]
      exact iff_of_false inv.nodup.not_mem_erase Bool.false_ne_true
    · intro thread other
      exact List.mem_erase_of_ne other
    · have some := List.length_pos_of_mem present
      rw [List.length_erase_of_mem present, ← inv.waiters]
      rw [← inv.waiters] at some
      exact Word.subWaiter_waiters some (inv.waiters ▸ inv.few)
    · exact List.length_erase_le.trans_lt inv.few
  · rw [Threads.become_memory]
    refine ⟨inv.ledger.below, inv.ledger.once, ?_, outcomes⟩
    intro signaled
    rw [Word.subWaiter_signaled] at signaled
    exact inv.ledger.fresh signaled
  · refine inv.covered.become place (Word.subWaiter_hasBits _)
      (Word.subWaiter_broadcast _) (fun _ member => member) ?_
    intro _ covers
    exact (mine covers).of_queue (Word.subWaiter_broadcast _) id

/-! ## The step -/

theorem signalTop_free (cur : Word) : (signalTop cur).isRegistered = false := by
  rw [signalTop]
  split <;> rfl

variable {command : Command Thread}

variable (inv : Inv state)

include inv

theorem Inv.exec_signals (place : state.threads me = current)
    (inside : current.signals = true)
    (executed : AtomicEvent.exec me state.memory current command =
      some (memory, pc)) :
    Inv (state.become me memory pc) := by
  cases current with
  | signalLoad =>
    cases command <;> cases executed
    exact inv.move place (by simp) (signalTop_ok _) (signalTop_free _)
      False.elim
  | signalCas cur =>
    cases command with
    | exchange fails =>
      rw [AtomicEvent.exec] at executed
      split at executed <;> cases executed
      · next same =>
        obtain ⟨rfl, -⟩ := same
        exact inv.grant place
      · exact inv.move place (by simp) (signalTop_ok _) (signalTop_free _)
          False.elim
    | _ => cases executed
  | signalWake =>
    cases command with
    | wake chosen =>
      cases chosen with
      | none =>
        obtain ⟨empty, ⟨⟩⟩ := Option.ite_none_right_eq_some.mp executed
        have roused := inv.rouse place rfl
        rwa [← empty] at roused
      | some sleeper =>
        obtain ⟨asleep, ⟨⟩⟩ := Option.ite_none_right_eq_some.mp executed
        exact inv.wake place asleep
    | _ => cases executed
  | allLoad =>
    cases command <;> cases executed
    exact inv.move place (by simp) trivial rfl False.elim
  | allCas cur =>
    cases command with
    | exchange fails =>
      rw [AtomicEvent.exec] at executed
      split at executed <;> cases executed
      · next same =>
        obtain ⟨rfl, -⟩ := same
        exact inv.announce place
      · exact inv.move place (by simp) trivial rfl False.elim
    | _ => cases executed
  | allWake =>
    cases command <;> cases executed
    exact inv.rouse place rfl
  | _ => cases inside

theorem Inv.exec_waitLoad (place : state.threads me = .waitLoad call)
    (executed : AtomicEvent.exec me state.memory (.waitLoad call) .run =
      some (memory, pc)) :
    Inv (state.become me memory pc) := by
  have awake := inv.not_queued place (by simp)
  have ok : call.tokens = 0 := by
    have ok := inv.ok me
    rwa [place] at ok
  rw [AtomicEvent.exec] at executed
  split at executed
  · case isTrue broadcast =>
    cases executed
    refine inv.quiet place trivial rfl awake
      (outcomes_cons inv.ledger (by simp)) ?_
    intro _ covers
    rw [Covers, broadcast] at covers
    cases covers
  · case isFalse noBroadcast =>
    split at executed <;> cases executed
    · next signaled =>
      exact inv.move place (by simp)
        ⟨ok, signaled, by simpa using noBroadcast⟩ rfl id
    · next unset =>
      refine inv.quiet place ?_ ?_ awake inv.ledger.returned ?_
      · split <;> exact ok
      · split <;> rfl
      · intro hasBits
        simp [Word.hasBits, noBroadcast, unset] at hasBits

theorem Inv.exec_waits (place : state.threads me = current)
    (inside : current.waits = true) (free : current.isRegistered = false)
    (room : ¬crowded state (me, command))
    (executed : AtomicEvent.exec me state.memory current command =
      some (memory, pc)) :
    Inv (state.become me memory pc) := by
  have ok := inv.ok me
  rw [place] at ok
  cases current with
  | waitLoad call =>
    cases command with
    | run => exact inv.exec_waitLoad place executed
    | _ => cases executed
  | waitCas call cur =>
    cases command with
    | exchange fails =>
      rw [AtomicEvent.exec] at executed
      split at executed <;> cases executed
      · next same =>
        obtain ⟨rfl, -⟩ := same
        exact inv.consume place
      · exact inv.move place (by simp) ok.1 rfl id
    | _ => cases executed
  | clock call =>
    have awake := inv.not_queued place (by simp)
    cases command with
    | look expired =>
      rw [AtomicEvent.exec] at executed
      split at executed <;> cases executed
      · exact inv.quiet place trivial rfl awake
          (outcomes_cons inv.ledger fun _ => ok) fun _ => False.elim
      · exact inv.move place (by simp) ok rfl False.elim
    | _ => cases executed
  | spin call left =>
    cases left <;> cases command <;> cases executed
    · exact inv.move place (by simp) ok rfl id
    · refine inv.move place (by simp) ?_ ?_ ?_
      · split <;> exact ok
      · split <;> rfl
      · intro covers
        split <;> exact covers
  | register call =>
    cases command <;> cases executed
    refine inv.enroll place ?_
    by_contra full
    exact room ⟨by rw [place]; rfl, Nat.le_of_not_lt full⟩
  | park | parked | unregister => cases free
  | _ => cases inside

/-- `Wait` between its `fetch_add` and its `fetch_sub`. -/
theorem Inv.exec_registered (place : state.threads me = current)
    (inside : current.isRegistered = true)
    (executed : AtomicEvent.exec me state.memory current command =
      some (memory, pc)) :
    Inv (state.become me memory pc) := by
  have ok := inv.ok me
  rw [place] at ok
  cases current with
  | park call expected =>
    cases command with
    | run =>
      rw [AtomicEvent.exec] at executed
      split at executed <;> cases executed
      · next same =>
        subst same
        exact inv.sleep place
      · exact inv.move place (by simp) ok.1 rfl id
    | _ => cases executed
  | parked call =>
    cases command with
    | run =>
      obtain ⟨awake, ⟨⟩⟩ := Option.ite_none_left_eq_some.mp executed
      exact inv.quiet place ok rfl awake inv.ledger.returned
        fun _ covers => covers.1
    | interrupt =>
      obtain ⟨asleep, ⟨⟩⟩ := Option.ite_none_right_eq_some.mp executed
      exact inv.leave true place asleep
    | timeout =>
      obtain ⟨asleep, ⟨⟩⟩ := Option.ite_none_right_eq_some.mp executed
      exact inv.leave false place asleep.1
    | _ => cases executed
  | unregister call woken =>
    cases woken <;> cases command <;> cases executed
    · exact inv.withdraw place trivial rfl
        (outcomes_cons inv.ledger fun _ => ok) False.elim
    · exact inv.withdraw place ok rfl inv.ledger.returned id
  | _ => cases inside

theorem Inv.exec (room : ¬crowded state (me, command))
    (executed : AtomicEvent.exec me state.memory (state.threads me) command =
      some (memory, pc)) :
    Inv (state.become me memory pc) := by
  cases place : state.threads me with
  | idle =>
    rw [place] at executed
    cases command <;> cases executed
    · exact inv.move place (by simp) trivial rfl False.elim
    · exact inv.move place (by simp) trivial rfl False.elim
    · exact inv.move place (by simp) rfl rfl False.elim
  | signalLoad | signalCas | signalWake | allLoad | allCas | allWake =>
    exact inv.exec_signals place rfl (place ▸ executed)
  | waitLoad | waitCas | clock | spin | register =>
    exact inv.exec_waits place rfl rfl room (place ▸ executed)
  | park | parked | unregister =>
    exact inv.exec_registered place rfl (place ▸ executed)

end Step

/-! ## Runs -/

omit [DecidableEq Thread] in
theorem Inv.initial : Inv (State.initial : State Thread) where
  ok _ := trivial
  queued _ member := by cases member
  nodup := List.nodup_nil
  registered _ := iff_of_false List.not_mem_nil Bool.false_ne_true
  waiters := rfl
  few := Nat.two_pow_pos 30
  ledger := ⟨by simp [State.initial], List.nodup_nil, by simp [State.initial],
    by simp [State.initial]⟩
  covered bits := by cases bits

theorem Inv.step {state next : State Thread}
    {action : Thread × Command Thread} (inv : Inv state)
    (room : ¬crowded state action)
    (stepped : AtomicEvent.step state action = some next) : Inv next := by
  obtain ⟨memory, pc, executed, rfl⟩ := Threads.step_eq_some stepped
  exact inv.exec room executed

omit [DecidableEq Thread] in
theorem Covers.awake {memory : Memory Thread} {thread : Thread} {pc : Pc}
    (covers : Covers memory thread pc) (quiet : pc.signals = false) :
    pc.waits = true ∧ (thread ∈ memory.queue → ∀ call, pc ≠ .parked call) := by
  cases pc with
  | signalWake => cases quiet
  | allWake => cases quiet
  | waitLoad call => exact ⟨rfl, by simp⟩
  | waitCas call cur => exact ⟨rfl, by simp⟩
  | spin call left => exact ⟨rfl, by simp⟩
  | register call => exact ⟨rfl, by simp⟩
  | park call expected => exact ⟨rfl, by simp⟩
  | parked call => exact ⟨rfl, fun asleep => absurd asleep covers.2⟩
  | unregister call woken => exact ⟨rfl, by simp⟩
  | _ => cases covers

/-- In every run with fewer than 2^30 waiters: a token is consumed once, and
only a token that has been set; a call that returns false has consumed none;
and while nobody signals, no thread sleeps at a set bit with nobody awake
inside a wait. -/
theorem event_keeps_tokens {actions : List (Thread × Command Thread)}
    {state : State Thread}
    (performed : perform step State.initial actions = some state)
    (room : Avoids step crowded State.initial actions) :
    (state.memory.consumed.Nodup ∧
      ∀ token ∈ state.memory.consumed, token < state.memory.granted) ∧
    (∀ outcome ∈ state.memory.returned,
      outcome.result = false → outcome.tokens = 0) ∧
    ((∀ thread, (state.threads thread).signals = false) →
      state.memory.word.hasBits = true → state.memory.queue ≠ [] →
      ∃ thread, thread ∉ state.memory.queue ∧
        (state.threads thread).waits = true) := by
  have inv : Inv state :=
    perform_avoiding Inv.step performed room Inv.initial
  refine ⟨⟨inv.ledger.once, inv.ledger.below⟩, inv.ledger.returned, ?_⟩
  intro quiet hasBits sleepers
  obtain ⟨thread, covers⟩ := inv.covered hasBits sleepers
  obtain ⟨waits, notParked⟩ := covers.awake (quiet thread)
  refine ⟨thread, fun asleep => ?_, waits⟩
  obtain ⟨call, parked⟩ := inv.queued thread asleep
  exact notParked asleep call parked

/-- A call of `Wait` up to its sleep. -/
def fallAsleep (me : Thread) : List (Thread × Command Thread) :=
  (me, .wait false) :: List.replicate (spinBeforeParkLoads + 4) (me, .run)

/-- Two threads sleep; a token is set and one of them is woken. -/
def oneWoken : List (Option Bool × Command (Option Bool)) :=
  fallAsleep (some true) ++ fallAsleep (some false) ++
    [(none, .signal), (none, .run), (none, .exchange false),
      (none, .wake (some (some true)))]

theorem event_keeps_tokens_woken :
    ∃ state, perform step State.initial oneWoken = some state ∧
      state.memory.word.hasBits = true ∧
      state.memory.queue = [some false] ∧
      ∃ thread, thread ∉ state.memory.queue ∧
        (state.threads thread).waits = true := by
  have ran : perform step State.initial oneWoken =
      some ((perform step State.initial oneWoken).getD State.initial) := rfl
  have asleep : ((perform step State.initial oneWoken).getD
      State.initial).memory.queue = [some false] := by decide +kernel
  have hasBits : ((perform step State.initial oneWoken).getD
      State.initial).memory.word.hasBits = true := by decide +kernel
  refine ⟨_, ran, hasBits, asleep, ?_⟩
  refine (event_keeps_tokens ran (by decide +kernel)).2.2
    (by decide +kernel) hasBits ?_
  rw [asleep]
  exact List.cons_ne_nil _ _

end Libnei.Sync.AtomicEvent
