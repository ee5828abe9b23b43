import Libnei.Lib.Actions

/-!
# Connecting a socket

`Connect`, `DoConnect` and the connect part of
`OnFileCanWriteWithoutBlocking` (`tcp_client_socket_posix.cpp`), for a socket
that is not orphaned or closed.  `phase` says where `DoConnect` is; the
handshake may end between two of its system calls.  `getsockopt` returns the
pending error and clears it; there is none before the handshake has failed.
-/

namespace Libnei.Net

open Lib

def EINPROGRESS : Nat := 115

inductive Handshake
  | notStarted
  | inProgress
  | succeeded
  | failed
deriving DecidableEq

inductive ConnectPhase
  | notCalled
  /-- `DoConnect` is posted to the I/O thread. -/
  | posted
  | called
  | created
  | prepared
  /-- `connect` has returned `EINPROGRESS`. -/
  | connecting
  | registered
  | returned (result : Bool)
deriving DecidableEq

inductive ConnectTask
  | doConnect
  | callback (success : Bool)
deriving DecidableEq

structure TcpSocket where
  phase : ConnectPhase := .notCalled
  tasks : List ConnectTask := []
  connectCallback : Bool := false
  connected : Bool := false
  watching : Bool := false
  handshake : Handshake := .notStarted
  pendingError : Nat := 0
  calls : List Bool := []
deriving DecidableEq

inductive ConnectResult
  | done
  | inProgress
  | failure
deriving DecidableEq

inductive ConnectAction
  | connect (onIoThread : Bool)
  | runTask
  | createSocket (ok : Bool)
  | endPointToSockAddr (ok : Bool)
  | callConnect (result : ConnectResult)
  | startWatching
  | recheck
  | endHandshake (error : Nat)
  | canWrite
deriving DecidableEq

namespace TcpSocket

variable (socket : TcpSocket)

/-- The I/O thread is not inside of `DoConnect`. -/
def idle : Bool :=
  match socket.phase with
  | .notCalled | .posted | .returned _ => true
  | _ => false

def postConnectResult (success : Bool) : TcpSocket :=
  if socket.connectCallback then
    { socket with
      connectCallback := false
      tasks := socket.tasks ++ [.callback success] }
  else socket

def callConnect : ConnectResult → TcpSocket
  | .done =>
      { socket with
        handshake := .succeeded
        connected := true
        phase := .returned true }.postConnectResult true
  | .failure =>
      { socket with
        handshake := .failed
        phase := .returned false }.postConnectResult false
  | .inProgress =>
      { socket with handshake := .inProgress, phase := .connecting }

/-- The check behind the registration. -/
def recheck : TcpSocket :=
  let err := socket.pendingError
  let socket := { socket with pendingError := 0, phase := .returned true }
  if err = 0 then
    { socket with connected := true, watching := false }.postConnectResult true
  else if err ≠ EINPROGRESS then
    { socket with watching := false }.postConnectResult false
  else socket

def onFileCanWrite : TcpSocket :=
  if !socket.connected then
    let connected := socket.pendingError = 0
    { socket with connected, pendingError := 0, watching := false
      }.postConnectResult connected
  else { socket with watching := false }

def step (socket : TcpSocket) : ConnectAction → Option TcpSocket
  | .connect onIoThread =>
      if socket.phase ≠ .notCalled then none
      else if onIoThread then some { socket with phase := .called }
      else
        some { socket with
          phase := .posted
          tasks := socket.tasks ++ [.doConnect] }
  | .runTask =>
      match socket.tasks with
      | [] => none
      | task :: later =>
          if !socket.idle then none
          else
            match task with
            | .doConnect =>
                some { socket with phase := .called, tasks := later }
            | .callback success =>
                some { socket with
                  tasks := later
                  calls := socket.calls ++ [success] }
  | .createSocket ok =>
      if socket.phase ≠ .called then none
      else
        some { socket with phase := if ok then .created else .returned false }
  | .endPointToSockAddr ok =>
      if socket.phase ≠ .created then none
      else if ok then
        some { socket with phase := .prepared, connectCallback := true }
      else some { socket with phase := .returned false }
  | .callConnect result =>
      if socket.phase ≠ .prepared then none
      else some (socket.callConnect result)
  | .startWatching =>
      if socket.phase ≠ .connecting then none
      else some { socket with phase := .registered, watching := true }
  | .recheck =>
      if socket.phase ≠ .registered then none else some socket.recheck
  | .endHandshake error =>
      if socket.handshake ≠ .inProgress ∨ error = EINPROGRESS then none
      else
        some { socket with
          handshake := if error = 0 then .succeeded else .failed
          pendingError := error }
  | .canWrite =>
      if socket.idle ∧ socket.watching ∧ socket.handshake ≠ .inProgress then
        some socket.onFileCanWrite
      else none

/-- Nothing is left to do. -/
def AtRest : Prop :=
  (∃ result, socket.phase = .returned result) ∧ socket.tasks = []

end TcpSocket

/-- A step that leads to a wrong result: the socket or its address cannot be
made, or the handshake is still in progress at the check. -/
def Misleads (socket : TcpSocket) : ConnectAction → Prop
  | .createSocket ok | .endPointToSockAddr ok => ok = false
  | .recheck => socket.handshake = .inProgress
  | _ => False

instance (socket : TcpSocket) (action : ConnectAction) :
    Decidable (Misleads socket action) := by
  cases action <;> unfold Misleads <;> infer_instance

/-! ## One result -/

/-- `connect` has not been called; `tasks` are to be run. -/
def TcpSocket.Fresh (socket : TcpSocket) (tasks : List ConnectTask) : Prop :=
  socket.tasks = tasks ∧ socket.calls = [] ∧ socket.watching = false ∧
    socket.handshake = .notStarted ∧ socket.pendingError = 0

/-- What holds in each phase: the callback is set while `connect` runs, and
behind `DoConnect` it has been called or is about to be. -/
def Sound (socket : TcpSocket) : Prop :=
  match socket.phase with
  | .notCalled | .called | .created => socket.Fresh []
  | .posted => socket.Fresh [.doConnect]
  | .prepared => socket.Fresh [] ∧ socket.connectCallback = true
  | .connecting | .registered =>
      socket.tasks = [] ∧ socket.calls = [] ∧
      socket.connectCallback = true ∧ socket.pendingError ≠ EINPROGRESS ∧
      (socket.handshake = .inProgress ∨
        (socket.pendingError = 0 ↔ socket.handshake = .succeeded))
  | .returned _ =>
      socket.watching = false ∧ ∃ success : Bool,
        (socket.tasks = [.callback success] ∧ socket.calls = [] ∨
          socket.tasks = [] ∧ socket.calls = [success]) ∧
        (success = true → socket.handshake = .succeeded)

variable {action : ConnectAction}

namespace Sound

variable {socket next : TcpSocket}

variable (sound : Sound socket)

include sound

theorem callConnect (phase : socket.phase = .prepared)
    (result : ConnectResult) :
    Sound (socket.callConnect result) := by
  simp only [Sound, phase] at sound
  obtain ⟨⟨tasks, calls, quiet, -, error⟩, callback⟩ := sound
  cases result with
  | done | failure =>
    simp [TcpSocket.callConnect, TcpSocket.postConnectResult, Sound, tasks,
      calls, quiet, callback]
  | inProgress =>
    simp [TcpSocket.callConnect, Sound, tasks, calls, callback, error,
      EINPROGRESS]

theorem recheck (phase : socket.phase = .registered)
    (ended : socket.handshake ≠ .inProgress) : Sound socket.recheck := by
  simp only [Sound, phase] at sound
  obtain ⟨tasks, calls, callback, error, handshake⟩ := sound
  have succeeded := handshake.resolve_left ended
  unfold TcpSocket.recheck
  by_cases none : socket.pendingError = 0
  · simp [TcpSocket.postConnectResult, Sound, tasks, calls, callback, none,
      succeeded.mp none]
  · simp [TcpSocket.postConnectResult, Sound, tasks, calls, callback, none,
      error]

/-- A task is the posted `DoConnect` or the call of the callback. -/
theorem runTask_cases (taken : socket.step .runTask = some next) :
    (socket.phase = .posted ∧ socket.Fresh [.doConnect] ∧
      next = { socket with phase := .called, tasks := [] }) ∨
    ∃ result success, socket.phase = .returned result ∧
      socket.tasks = [.callback success] ∧ socket.calls = [] ∧
      next = { socket with tasks := [], calls := [success] } := by
  unfold TcpSocket.step at taken
  dsimp only at taken
  split at taken
  case h_1 => cases taken
  case h_2 task later tasks =>
    obtain ⟨idle, taken⟩ := Option.ite_none_left_eq_some.mp taken
    cases phase : socket.phase with
    | notCalled =>
      simp only [Sound, phase] at sound
      exact nomatch tasks.symm.trans sound.1
    | posted =>
      simp only [Sound, phase] at sound
      cases tasks.symm.trans sound.1
      cases taken
      exact .inl ⟨rfl, sound, rfl⟩
    | returned result =>
      simp only [Sound, phase] at sound
      obtain ⟨-, success, ⟨one, calls⟩ | ⟨none, -⟩, -⟩ := sound
      · cases tasks.symm.trans one
        cases taken
        exact .inr ⟨result, success, rfl, one, calls, by
          rw [calls, phase]; rfl⟩
      · exact nomatch tasks.symm.trans none
    | called | created | prepared | connecting | registered =>
      simp [TcpSocket.idle, phase] at idle

theorem runTask (taken : socket.step .runTask = some next) : Sound next := by
  obtain ⟨phase, fresh, rfl⟩ | ⟨result, success, phase, one, calls, rfl⟩ :=
    sound.runTask_cases taken
  · exact ⟨rfl, fresh.2⟩
  · simp only [Sound, phase] at sound ⊢
    obtain ⟨quiet, posted, ⟨same, -⟩ | ⟨none, -⟩, honest⟩ := sound
    · cases one.symm.trans same
      exact ⟨quiet, success, .inr ⟨trivial, rfl⟩, honest⟩
    · exact nomatch one.symm.trans none

theorem endHandshake {error : Nat}
    (taken : socket.step (.endHandshake error) = some next) : Sound next := by
  obtain ⟨running, ⟨⟩⟩ := Option.ite_none_left_eq_some.mp taken
  rw [not_or, Decidable.not_not] at running
  cases phase : socket.phase with
  | notCalled | called | created | posted =>
    simp only [Sound, phase] at sound
    exact nomatch running.1.symm.trans sound.2.2.2.1
  | prepared =>
    simp only [Sound, phase] at sound
    exact nomatch running.1.symm.trans sound.1.2.2.2.1
  | connecting | registered =>
    simp only [Sound, phase] at sound ⊢
    obtain ⟨tasks, calls, callback, -⟩ := sound
    refine ⟨tasks, calls, callback, running.2, .inr ?_⟩
    split <;> simp_all
  | returned result =>
    simp only [Sound, phase] at sound ⊢
    obtain ⟨quiet, success, once, honest⟩ := sound
    refine ⟨quiet, success, once, fun isTrue => ?_⟩
    exact nomatch running.1.symm.trans (honest isTrue)

/-- The descriptor is watched inside of `DoConnect` only. -/
theorem watching_eq (idle : socket.idle = true) : socket.watching = false := by
  cases phase : socket.phase with
  | notCalled | posted =>
    simp only [Sound, phase] at sound
    exact sound.2.2.1
  | returned result =>
    simp only [Sound, phase] at sound
    exact sound.1
  | called | created | prepared | connecting | registered =>
    simp [TcpSocket.idle, phase] at idle

theorem step (leads : ¬Misleads socket action)
    (taken : socket.step action = some next) : Sound next := by
  cases action with
  | runTask => exact sound.runTask taken
  | endHandshake error => exact sound.endHandshake taken
  | connect onIoThread =>
    obtain ⟨phase, taken⟩ := Option.ite_none_left_eq_some.mp taken
    simp only [Sound, Decidable.not_not.mp phase] at sound
    split at taken
    · cases taken
      exact sound
    · cases taken
      exact ⟨by rw [sound.1]; rfl, sound.2⟩
  | createSocket ok =>
    obtain ⟨phase, ⟨⟩⟩ := Option.ite_none_left_eq_some.mp taken
    simp only [Sound, Decidable.not_not.mp phase] at sound
    obtain rfl : ok = true := by simpa [Misleads] using leads
    exact sound
  | endPointToSockAddr ok =>
    obtain ⟨phase, taken⟩ := Option.ite_none_left_eq_some.mp taken
    simp only [Sound, Decidable.not_not.mp phase] at sound
    obtain rfl : ok = true := by simpa [Misleads] using leads
    cases taken
    exact ⟨sound, rfl⟩
  | callConnect result =>
    obtain ⟨phase, ⟨⟩⟩ := Option.ite_none_left_eq_some.mp taken
    exact sound.callConnect (Decidable.not_not.mp phase) result
  | startWatching =>
    obtain ⟨phase, ⟨⟩⟩ := Option.ite_none_left_eq_some.mp taken
    simp only [Sound, Decidable.not_not.mp phase] at sound
    exact sound
  | recheck =>
    obtain ⟨phase, ⟨⟩⟩ := Option.ite_none_left_eq_some.mp taken
    exact sound.recheck (Decidable.not_not.mp phase) leads
  | canWrite =>
    obtain ⟨⟨idle, watching, -⟩, -⟩ := Option.ite_none_right_eq_some.mp taken
    exact nomatch watching.symm.trans (sound.watching_eq idle)

/-- A state that is not at rest can go on without a misleading step. -/
theorem goes_on : socket.AtRest ∨ ∃ action,
    ¬Misleads socket action ∧ (socket.step action).isSome = true := by
  cases phase : socket.phase with
  | notCalled => exact .inr ⟨.connect true, id, by simp [TcpSocket.step, phase]⟩
  | posted =>
    simp only [Sound, phase] at sound
    exact .inr ⟨.runTask, id, by
      simp [TcpSocket.step, TcpSocket.idle, phase, sound.1]⟩
  | called =>
    exact .inr ⟨.createSocket true, nofun, by simp [TcpSocket.step, phase]⟩
  | created =>
    exact .inr ⟨.endPointToSockAddr true, nofun, by
      simp [TcpSocket.step, phase]⟩
  | prepared =>
    exact .inr ⟨.callConnect .done, id, by simp [TcpSocket.step, phase]⟩
  | connecting =>
    exact .inr ⟨.startWatching, id, by simp [TcpSocket.step, phase]⟩
  | registered =>
    by_cases going : socket.handshake = .inProgress
    · exact .inr ⟨.endHandshake 0, id, by
        simp [TcpSocket.step, going, EINPROGRESS]⟩
    · exact .inr ⟨.recheck, going, by simp [TcpSocket.step, phase]⟩
  | returned result =>
    simp only [Sound, phase] at sound
    obtain ⟨-, success, ⟨one, -⟩ | ⟨none, -⟩, -⟩ := sound
    · exact .inr ⟨.runTask, id, by
        simp [TcpSocket.step, TcpSocket.idle, phase, one]⟩
    · exact .inl ⟨⟨result, phase⟩, none⟩

theorem calls_le_one : socket.calls.length ≤ 1 ∧
    (true ∈ socket.calls → socket.handshake = .succeeded) ∧
    (socket.AtRest → socket.calls.length = 1) := by
  have none : (∀ result, socket.phase ≠ .returned result) →
      socket.calls = [] → socket.calls.length ≤ 1 ∧
      (true ∈ socket.calls → socket.handshake = .succeeded) ∧
      (socket.AtRest → socket.calls.length = 1) := by
    intro going calls
    simp only [calls, List.length_nil]
    exact ⟨Nat.zero_le 1, nofun, fun ⟨⟨result, phase⟩, _⟩ =>
      absurd phase (going result)⟩
  cases phase : socket.phase with
  | notCalled | called | created | posted | connecting | registered =>
    simp only [Sound, phase] at sound
    exact none (by simp [phase]) sound.2.1
  | prepared =>
    simp only [Sound, phase] at sound
    exact none (by simp [phase]) sound.1.2.1
  | returned result =>
    simp only [Sound, phase] at sound
    obtain ⟨-, success, ⟨one, calls⟩ | ⟨empty, calls⟩, honest⟩ := sound
    · simp [calls, TcpSocket.AtRest, one]
    · simpa [calls] using honest

end Sound

/-! ## Termination -/

def ConnectPhase.rank : ConnectPhase → Nat
  | .notCalled => 7
  | .posted => 6
  | .called => 5
  | .created => 4
  | .prepared => 3
  | .connecting => 2
  | .registered => 1
  | .returned _ => 0

/-- Every step uses up some of this. -/
def TcpSocket.remaining (socket : TcpSocket) : Nat :=
  3 * socket.phase.rank + socket.tasks.length +
    (if socket.handshake = .inProgress then 1 else 0) +
    if socket.watching then 2 else 0

theorem remaining_postConnectResult (socket : TcpSocket) (success : Bool) :
    (socket.postConnectResult success).remaining ≤ socket.remaining + 1 := by
  unfold TcpSocket.postConnectResult TcpSocket.remaining
  split
  · simp only [List.length_append, List.length_singleton]
    omega
  · omega

theorem remaining_callConnect {socket : TcpSocket} (sound : Sound socket)
    (phase : socket.phase = .prepared) (result : ConnectResult) :
    (socket.callConnect result).remaining < socket.remaining := by
  simp only [Sound, phase] at sound
  obtain ⟨⟨tasks, -, quiet, fresh, -⟩, callback⟩ := sound
  cases result <;>
    simp [TcpSocket.callConnect, TcpSocket.postConnectResult,
      TcpSocket.remaining, ConnectPhase.rank, phase, tasks, quiet, fresh,
      callback]

theorem remaining_recheck {socket : TcpSocket}
    (phase : socket.phase = .registered) :
    socket.recheck.remaining < socket.remaining := by
  have posted := remaining_postConnectResult
  have less (watching connected : Bool) (_ : watching = true →
      socket.watching = true) : ({ socket with
        pendingError := 0
        phase := .returned true
        watching
        connected } : TcpSocket).remaining + 2 < socket.remaining := by
    simp only [TcpSocket.remaining, ConnectPhase.rank, phase]
    grind
  unfold TcpSocket.recheck
  dsimp only
  split
  · exact Nat.lt_of_le_of_lt (posted _ _)
      (Nat.lt_of_succ_lt (less false true nofun))
  · split
    · exact Nat.lt_of_le_of_lt (posted _ _)
        (Nat.lt_of_succ_lt (less false socket.connected nofun))
    · exact Nat.lt_of_le_of_lt (Nat.le_add_right _ 2)
        (less socket.watching socket.connected id)

theorem remaining_runTask {socket next : TcpSocket} (sound : Sound socket)
    (taken : socket.step .runTask = some next) :
    next.remaining < socket.remaining := by
  obtain ⟨phase, fresh, rfl⟩ | ⟨result, success, phase, one, -, rfl⟩ :=
    sound.runTask_cases taken
  · simp [TcpSocket.remaining, ConnectPhase.rank, phase, fresh.1]
  · simp [TcpSocket.remaining, one]

theorem remaining_step {socket next : TcpSocket} (sound : Sound socket)
    (taken : socket.step action = some next) :
    next.remaining < socket.remaining := by
  cases action with
  | runTask => exact remaining_runTask sound taken
  | connect onIoThread =>
    obtain ⟨phase, taken⟩ := Option.ite_none_left_eq_some.mp taken
    split at taken
    · cases taken
      simp [TcpSocket.remaining, ConnectPhase.rank, Decidable.not_not.mp phase]
    · cases taken
      simp only [TcpSocket.remaining, ConnectPhase.rank,
        Decidable.not_not.mp phase, List.length_append,
        List.length_singleton]
      omega
  | createSocket ok =>
    obtain ⟨phase, ⟨⟩⟩ := Option.ite_none_left_eq_some.mp taken
    cases ok <;>
      simp [TcpSocket.remaining, ConnectPhase.rank, Decidable.not_not.mp phase]
  | endPointToSockAddr ok =>
    obtain ⟨phase, taken⟩ := Option.ite_none_left_eq_some.mp taken
    split at taken
    all_goals
      cases taken
      simp [TcpSocket.remaining, ConnectPhase.rank, Decidable.not_not.mp phase]
  | callConnect result =>
    obtain ⟨phase, ⟨⟩⟩ := Option.ite_none_left_eq_some.mp taken
    exact remaining_callConnect sound (Decidable.not_not.mp phase) result
  | startWatching =>
    obtain ⟨phase, ⟨⟩⟩ := Option.ite_none_left_eq_some.mp taken
    simp only [TcpSocket.remaining, ConnectPhase.rank,
      Decidable.not_not.mp phase]
    split <;> split <;> omega
  | recheck =>
    obtain ⟨phase, ⟨⟩⟩ := Option.ite_none_left_eq_some.mp taken
    exact remaining_recheck (Decidable.not_not.mp phase)
  | endHandshake error =>
    obtain ⟨running, ⟨⟩⟩ := Option.ite_none_left_eq_some.mp taken
    rw [not_or, Decidable.not_not] at running
    simp only [TcpSocket.remaining, running.1]
    split <;> simp
  | canWrite =>
    obtain ⟨⟨idle, watching, -⟩, -⟩ := Option.ite_none_right_eq_some.mp taken
    exact nomatch watching.symm.trans (sound.watching_eq idle)

theorem length_le_remaining {socket final : TcpSocket}
    {actions : List ConnectAction}
    (performed : perform TcpSocket.step socket actions = some final)
    (avoids : Avoids TcpSocket.step Misleads socket actions)
    (sound : Sound socket) : actions.length ≤ socket.remaining := by
  induction actions generalizing socket with
  | nil => exact Nat.zero_le _
  | cons action actions ih =>
    obtain ⟨next, taken, performed⟩ := perform_cons performed
    have less := remaining_step sound taken
    have rest := ih performed (avoids.2 next taken)
      (sound.step avoids.1 taken)
    rw [List.length_cons]
    omega

/-- In every run without a misleading step the callback is called once at
most, with `true` only if the handshake has succeeded.  The run cannot go on
for ever; it can go on until nothing is left to do, and then the callback has
been called. -/
theorem connect_result_once {actions : List ConnectAction}
    {socket : TcpSocket}
    (performed : perform TcpSocket.step {} actions = some socket)
    (avoids : Avoids TcpSocket.step Misleads {} actions) :
    socket.calls.length ≤ 1 ∧
    (true ∈ socket.calls → socket.handshake = .succeeded) ∧
    (socket.AtRest → socket.calls.length = 1) ∧
    (socket.AtRest ∨ ∃ action, ¬Misleads socket action ∧
      (socket.step action).isSome = true) ∧
    actions.length ≤ 21 := by
  have initially : Sound {} := ⟨rfl, rfl, rfl, rfl, rfl⟩
  have sound : Sound socket := perform_avoiding
    (fun sound leads taken => sound.step leads taken) performed avoids
      initially
  obtain ⟨few, honest, once⟩ := sound.calls_le_one
  exact ⟨few, honest, once, sound.goes_on,
    length_le_remaining performed avoids initially⟩

/-- The handshake fails before the check. -/
def refusedConnect : List ConnectAction :=
  [.connect false, .runTask, .createSocket true, .endPointToSockAddr true,
    .callConnect .inProgress, .startWatching, .endHandshake 111, .recheck,
    .runTask]

theorem connect_result_once_refused :
    ∃ socket, perform TcpSocket.step {} refusedConnect = some socket ∧
      socket.calls.length = 1 :=
  ⟨_, rfl, (@connect_result_once refusedConnect _ rfl
    (by decide +kernel)).2.2.1 ⟨⟨_, rfl⟩, rfl⟩⟩

/-- A handshake that fails behind the check is reported as a success, and
without a socket nothing is reported. -/
theorem connect_reports_unfinished_handshake :
    (perform TcpSocket.step {} [.connect true, .createSocket true,
        .endPointToSockAddr true, .callConnect .inProgress, .startWatching,
        .recheck, .endHandshake 111, .runTask]).map
      (fun socket => (socket.calls, socket.handshake)) =
      some ([true], .failed) ∧
    (perform TcpSocket.step {} [.connect false, .runTask,
        .createSocket false]).map
      (fun socket => (socket.phase, socket.tasks, socket.calls)) =
      some (.returned false, [], []) := by
  decide +kernel

end Libnei.Net
