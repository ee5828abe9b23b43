import Libnei.Lib.Actions

/-!
# Shutdown and the accept callbacks

`HttpServer::Shutdown` and the accept callbacks (`http_server.cpp`,
`http2_engine.cpp`) in their atomic steps: an access to `accepting`, or what
is done under `conn_mutex_`.  Connections are numbered by their accept
callbacks; those that are registered already have other numbers.
-/

namespace Libnei.Http.Shutdown

open Lib

/-- What ALPN has negotiated, as `OnTlsAcceptMux` distinguishes it. -/
inductive Protocol
  | h2 | http11
  /-- Nothing was negotiated and the server does not serve HTTP/1. -/
  | refused
deriving DecidableEq

/-- The next step of an accept callback. -/
inductive AcceptStep
  /-- The check of `OnTlsAcceptMux`. -/
  | muxCheck (protocol : Protocol)
  /-- The first check of `OnTcpAccept` and `OnTlsAccept`. -/
  | check
  /-- `new Http1Connection`, which registers itself. -/
  | construct
  /-- `IsAccepting`. -/
  | recheck
  | close
  | startRead
  /-- `accepting.store(true)` of `AdoptHttp2Connection`. -/
  | adopt
  | registerHttp2
  | start
  | done
deriving DecidableEq

/-- A callback that has not begun, or that was called for an accept that
failed. -/
def AcceptStep.begins : AcceptStep → Bool
  | .muxCheck _ | .check | .done => true
  | _ => false

inductive ShutdownStep
  /-- `accepting.store(false)`. -/
  | clear
  /-- `ForEachHttp1Connection`. -/
  | snapshot
  /-- `Close` of the connections of the snapshot. -/
  | closing (connections : List Nat)
  /-- `StartCloseAllHttp2`. -/
  | walk
  | done
deriving DecidableEq

structure Server where
  accepting : Bool
  h1Connections : List Nat
  h2Connections : List Nat
  /-- The connections whose `Close` or `StartClose` has been called. -/
  told : List Nat
  callbacks : List AcceptStep
  shutdown : ShutdownStep
deriving DecidableEq

inductive Action
  /-- The next step of an accept callback. -/
  | accept (connection : Nat)
  /-- The next step of `Shutdown`. -/
  | shutdown
  /-- A connection has closed and leaves its registry. -/
  | unregisterConnection (connection : Nat)
  | unregisterHttp2 (connection : Nat)
deriving DecidableEq

namespace Server

def goTo (server : Server) (connection : Nat) (next : AcceptStep) : Server :=
  { server with callbacks := server.callbacks.set connection next }

/-- One step of the accept callback of a connection. -/
def accept (server : Server) (connection : Nat) (step : AcceptStep) :
    Option Server :=
  match step with
  | .muxCheck protocol =>
      if server.accepting then
        match protocol with
        | .h2 => some (server.goTo connection .adopt)
        | .http11 => some (server.goTo connection .check)
        | .refused => some (server.goTo connection .done)
      else some (server.goTo connection .done)
  | .check =>
      if server.accepting then some (server.goTo connection .construct)
      else some (server.goTo connection .done)
  | .construct =>
      some { server.goTo connection .recheck with
        h1Connections := connection :: server.h1Connections }
  | .recheck =>
      if server.accepting then some (server.goTo connection .startRead)
      else some (server.goTo connection .close)
  | .close =>
      some { server.goTo connection .done with
        told := connection :: server.told }
  | .startRead => some (server.goTo connection .done)
  | .adopt =>
      some { server.goTo connection .registerHttp2 with accepting := true }
  | .registerHttp2 =>
      if server.accepting then
        some { server.goTo connection .start with
          h2Connections := connection :: server.h2Connections }
      else some (server.goTo connection .done)
  | .start => some (server.goTo connection .done)
  | .done => none

/-- One step of `HttpServer::Shutdown`. -/
def shutDown (server : Server) : Option Server :=
  match server.shutdown with
  | .clear => some { server with accepting := false, shutdown := .snapshot }
  | .snapshot =>
      some { server with shutdown := .closing server.h1Connections }
  | .closing (connection :: rest) =>
      some { server with
        told := connection :: server.told
        shutdown := .closing rest }
  | .closing [] => some { server with shutdown := .walk }
  | .walk =>
      some { server with
        told := server.h2Connections ++ server.told
        shutdown := .done }
  | .done => none

def step (server : Server) : Action → Option Server
  | .accept connection =>
      match server.callbacks[connection]? with
      | some step => server.accept connection step
      | none => none
  | .shutdown => server.shutDown
  | .unregisterConnection connection =>
      some { server with
        h1Connections := server.h1Connections.erase connection }
  | .unregisterHttp2 connection =>
      some { server with
        h2Connections := server.h2Connections.erase connection }

/-- The server listens and its accept callbacks are still to run. -/
structure Listening (server : Server) : Prop where
  accepting : server.accepting = true
  shutdown : server.shutdown = .clear
  callbacks : ∀ step ∈ server.callbacks, step.begins = true

/-- `Shutdown` has finished and the accept callbacks have run. -/
structure Finished (server : Server) : Prop where
  shutdown : server.shutdown = .done
  callbacks : ∀ step ∈ server.callbacks, step = .done

/-- Nothing is accepted, and every registered connection has been told to
close. -/
structure Closed (server : Server) : Prop where
  accepting : server.accepting = false
  h1Connections : ∀ connection ∈ server.h1Connections, connection ∈ server.told
  h2Connections : ∀ connection ∈ server.h2Connections, connection ∈ server.told

/-- `AdoptHttp2Connection` stores `accepting` behind `Shutdown`. -/
def LateAdoption (server : Server) : Action → Prop
  | .accept connection =>
      server.callbacks[connection]? = some .adopt ∧ server.shutdown ≠ .clear
  | _ => False

instance decidableLateAdoption (server : Server) (action : Action) :
    Decidable (server.LateAdoption action) := by
  cases action <;> unfold LateAdoption <;> infer_instance

end Server

/-- The rest of `Shutdown` tells the HTTP/1 connection to close. -/
def ShutdownStep.Reaches : ShutdownStep → Nat → Prop
  | .clear, _ | .snapshot, _ => True
  | .closing connections, connection => connection ∈ connections
  | .walk, _ | .done, _ => False

namespace Server

/-- `Shutdown` or the accept callback of the HTTP/1 connection is going to
tell it. -/
def Awaits (server : Server) (connection : Nat) : Prop :=
  server.shutdown.Reaches connection ∨
    server.callbacks[connection]? = some .recheck ∨
    server.callbacks[connection]? = some .close

/-- What holds as long as no adoption is late. -/
structure Orderly (server : Server) : Prop where
  accepting : server.shutdown = .clear ∨ server.accepting = false
  h1Connections : ∀ connection ∈ server.h1Connections,
    connection ∈ server.told ∨ server.Awaits connection
  h2Connections : ∀ connection ∈ server.h2Connections,
    connection ∈ server.told ∨ server.shutdown ≠ .done

/-- What a late adoption leaves behind. -/
def Reopened (server : Server) : Prop :=
  server.accepting = true ∧ server.shutdown ≠ .clear

variable {server next final : Server} {connection other : Nat}
  {action : Action} {actions : List Action} {target : AcceptStep}

theorem callbacks_goTo_self {step : AcceptStep} (target : AcceptStep)
    (current : server.callbacks[connection]? = some step) :
    (server.goTo connection target).callbacks[connection]? = some target := by
  obtain ⟨bound, _⟩ := List.getElem?_eq_some_iff.mp current
  exact List.getElem?_set_self bound

theorem callbacks_goTo_ne (target : AcceptStep) (differs : connection ≠ other) :
    (server.goTo connection target).callbacks[other]? =
      server.callbacks[other]? :=
  List.getElem?_set_ne differs

/-- The callback of a connection that it would have told goes on to do so,
or `Shutdown` has not begun. -/
def Harmless (server : Server) (step target : AcceptStep) : Prop :=
  server.shutdown = .clear ∨ target = .close ∨ (step ≠ .recheck ∧ step ≠ .close)

theorem awaits_goTo_ne (differs : connection ≠ other)
    (awaits : server.Awaits other) :
    (server.goTo connection target).Awaits other := by
  have kept : (server.goTo connection target).callbacks[other]? =
      server.callbacks[other]? := callbacks_goTo_ne target differs
  rcases awaits with reaches | rechecks | closes
  · exact .inl reaches
  · exact .inr (.inl (kept.trans rechecks))
  · exact .inr (.inr (kept.trans closes))

theorem awaits_goTo {step : AcceptStep}
    (current : server.callbacks[connection]? = some step)
    (harmless : server.Harmless step target) (awaits : server.Awaits other) :
    (server.goTo connection target).Awaits other := by
  by_cases same : connection = other
  · subst same
    rcases harmless with clear | rfl | ⟨notRecheck, notClose⟩
    · have reaches : server.shutdown.Reaches connection := by
        rw [clear]; trivial
      exact .inl reaches
    · exact .inr (.inr (callbacks_goTo_self _ current))
    · rcases awaits with reaches | rechecks | closes
      · exact .inl reaches
      · exact absurd (Option.some.inj (current.symm.trans rechecks))
          notRecheck
      · exact absurd (Option.some.inj (current.symm.trans closes)) notClose
  · exact awaits_goTo_ne same awaits

theorem orderly_goTo {step : AcceptStep} (orderly : server.Orderly)
    (current : server.callbacks[connection]? = some step)
    (harmless : server.Harmless step target) :
    (server.goTo connection target).Orderly where
  accepting := orderly.accepting
  h1Connections other registered :=
    (orderly.h1Connections other registered).imp_right
      (awaits_goTo current harmless)
  h2Connections := orderly.h2Connections

theorem harmless_of_ne {step : AcceptStep} (notRecheck : step ≠ .recheck)
    (notClose : step ≠ .close) :
    server.Harmless step target :=
  .inr (.inr ⟨notRecheck, notClose⟩)

section

variable (orderly : server.Orderly)

include orderly

/-- `Shutdown` has not begun as long as something is accepted. -/
theorem Orderly.clear (accepting : server.accepting = true) :
    server.shutdown = .clear := by
  rcases orderly.accepting with clear | stopped
  · exact clear
  · rw [accepting] at stopped; cases stopped

theorem orderly_construct
    (current : server.callbacks[connection]? = some .construct) :
    Orderly { server.goTo connection .recheck with
      h1Connections := connection :: server.h1Connections } := by
  have moved : (server.goTo connection .recheck).Orderly :=
    orderly_goTo orderly current (harmless_of_ne nofun nofun)
  refine ⟨moved.accepting, fun other registered => ?_, moved.h2Connections⟩
  rcases List.mem_cons.mp registered with rfl | registered
  · exact .inr (.inr (.inl (callbacks_goTo_self _ current)))
  · exact moved.h1Connections other registered

/-- The connection needs no other to tell it. -/
theorem orderly_close : Orderly { server.goTo connection .done with
      told := connection :: server.told } := by
  refine ⟨orderly.accepting, fun other registered => ?_,
    fun other registered =>
      (orderly.h2Connections other registered).imp_left
        (List.mem_cons_of_mem connection)⟩
  by_cases same : connection = other
  · exact .inl (same ▸ List.mem_cons_self)
  rcases orderly.h1Connections other registered with told | awaits
  · exact .inl (List.mem_cons_of_mem connection told)
  · have kept : (server.goTo connection .done).Awaits other :=
      awaits_goTo_ne same awaits
    exact .inr kept

theorem orderly_registerHttp2
    (current : server.callbacks[connection]? = some .registerHttp2)
    (accepting : server.accepting = true) :
    Orderly { server.goTo connection .start with
      h2Connections := connection :: server.h2Connections } := by
  have clear := orderly.clear accepting
  have moved : (server.goTo connection .start).Orderly :=
    orderly_goTo orderly current (.inl clear)
  have running : server.shutdown ≠ .done := by
    rw [clear]; exact nofun
  exact ⟨moved.accepting, moved.h1Connections, fun _ _ => .inr running⟩

/-- A step of an accept callback that is not a late adoption. -/
theorem orderly_accept {step : AcceptStep}
    (current : server.callbacks[connection]? = some step)
    (timely : step = .adopt → server.shutdown = .clear)
    (taken : server.accept connection step = some next) : next.Orderly := by
  cases step with
  | muxCheck protocol =>
    have moved (target) : (server.goTo connection target).Orderly :=
      orderly_goTo orderly current (harmless_of_ne nofun nofun)
    rw [accept.eq_def] at taken
    dsimp only at taken
    split at taken
    · cases protocol <;> exact Option.some.inj taken ▸ moved _
    · exact Option.some.inj taken ▸ moved _
  | check =>
    have moved (target) : (server.goTo connection target).Orderly :=
      orderly_goTo orderly current (harmless_of_ne nofun nofun)
    rw [accept] at taken
    split at taken <;> exact Option.some.inj taken ▸ moved _
  | construct =>
    exact Option.some.inj taken ▸ orderly_construct orderly current
  | recheck =>
    rw [accept] at taken
    split at taken
    next accepting =>
      exact Option.some.inj taken ▸
        orderly_goTo orderly current (.inl (orderly.clear accepting))
    next =>
      exact Option.some.inj taken ▸
        orderly_goTo orderly current (.inr (.inl rfl))
  | close => exact Option.some.inj taken ▸ orderly_close orderly
  | startRead | start =>
    exact Option.some.inj taken ▸
      orderly_goTo orderly current (harmless_of_ne nofun nofun)
  | adopt =>
    have moved : (server.goTo connection .registerHttp2).Orderly :=
      orderly_goTo orderly current (harmless_of_ne nofun nofun)
    exact Option.some.inj taken ▸
      ⟨.inl (timely rfl), moved.h1Connections, moved.h2Connections⟩
  | registerHttp2 =>
    rw [accept] at taken
    split at taken
    next accepting =>
      exact Option.some.inj taken ▸
        orderly_registerHttp2 orderly current accepting
    next =>
      exact Option.some.inj taken ▸
        orderly_goTo orderly current (harmless_of_ne nofun nofun)
  | done => cases taken

end

theorem orderly_clear :
    Orderly { server with accepting := false, shutdown := .snapshot } where
  accepting := .inr rfl
  h1Connections _ _ := .inr (.inl trivial)
  h2Connections _ _ := .inr nofun

theorem orderly_snapshot (stopped : server.accepting = false) :
    Orderly { server with shutdown := .closing server.h1Connections } where
  accepting := .inr stopped
  h1Connections _ registered := .inr (.inl registered)
  h2Connections _ _ := .inr nofun

section

variable (orderly : server.Orderly)

include orderly

section

variable (stopped : server.accepting = false)

include stopped

theorem orderly_closing {rest : List Nat}
    (current : server.shutdown = .closing (connection :: rest)) :
    Orderly { server with
      told := connection :: server.told
      shutdown := .closing rest } where
  accepting := .inr stopped
  h1Connections other registered := by
    rcases orderly.h1Connections other registered with told | awaits
    · exact .inl (List.mem_cons_of_mem connection told)
    rcases awaits with reaches | waits
    · rw [current] at reaches
      rcases List.mem_cons.mp reaches with rfl | remains
      · exact .inl List.mem_cons_self
      · exact .inr (.inl remains)
    · exact .inr (.inr waits)
  h2Connections _ _ := .inr nofun

theorem orderly_closed (current : server.shutdown = .closing []) :
    Orderly { server with shutdown := .walk } where
  accepting := .inr stopped
  h1Connections other registered := by
    refine (orderly.h1Connections other registered).imp_right ?_
    rintro (reaches | waits)
    · rw [current] at reaches
      cases reaches
    · exact .inr waits
  h2Connections _ _ := .inr nofun

theorem orderly_walk (current : server.shutdown = .walk) : Orderly { server with
      told := server.h2Connections ++ server.told
      shutdown := .done } where
  accepting := .inr stopped
  h1Connections other registered := by
    rcases orderly.h1Connections other registered with told | awaits
    · exact .inl (List.mem_append_right _ told)
    rcases awaits with reaches | waits
    · rw [current] at reaches
      cases reaches
    · exact .inr (.inr waits)
  h2Connections _ registered := .inl (List.mem_append_left _ registered)

end

theorem Orderly.stopped (begun : server.shutdown ≠ .clear) :
    server.accepting = false :=
  orderly.accepting.resolve_left begun

theorem orderly_shutDown (taken : server.shutDown = some next) :
    next.Orderly := by
  rw [shutDown] at taken
  split at taken
  next => exact Option.some.inj taken ▸ orderly_clear
  next current =>
    have stopped := orderly.stopped (by simp [current])
    exact Option.some.inj taken ▸ orderly_snapshot stopped
  next current =>
    have stopped := orderly.stopped (by simp [current])
    exact Option.some.inj taken ▸ orderly_closing orderly stopped current
  next current =>
    have stopped := orderly.stopped (by simp [current])
    exact Option.some.inj taken ▸ orderly_closed orderly stopped current
  next current =>
    have stopped := orderly.stopped (by simp [current])
    exact Option.some.inj taken ▸ orderly_walk orderly stopped current
  next => cases taken

theorem orderly_unregisterConnection (connection : Nat) : Orderly { server with
      h1Connections := server.h1Connections.erase connection } where
  accepting := orderly.accepting
  h1Connections other registered :=
    orderly.h1Connections other (List.mem_of_mem_erase registered)
  h2Connections := orderly.h2Connections

theorem orderly_unregisterHttp2 (connection : Nat) : Orderly { server with
      h2Connections := server.h2Connections.erase connection } where
  accepting := orderly.accepting
  h1Connections := orderly.h1Connections
  h2Connections other registered :=
    orderly.h2Connections other (List.mem_of_mem_erase registered)

theorem orderly_step (timely : ¬server.LateAdoption action)
    (taken : server.step action = some next) : next.Orderly := by
  cases action with
  | accept connection =>
    rw [step] at taken
    split at taken
    next step current =>
      refine orderly_accept orderly current (fun adopts => ?_) taken
      exact Decidable.byContradiction fun begun =>
        timely ⟨adopts ▸ current, begun⟩
    next => cases taken
  | shutdown => exact orderly_shutDown orderly taken
  | unregisterConnection connection =>
    exact Option.some.inj taken ▸
      orderly_unregisterConnection orderly connection
  | unregisterHttp2 connection =>
    exact Option.some.inj taken ▸
      orderly_unregisterHttp2 orderly connection

end

theorem accepting_accept {step : AcceptStep}
    (taken : server.accept connection step = some next) :
    (server.accepting = true → next.accepting = true) ∧
      next.shutdown = server.shutdown := by
  rw [accept.eq_def] at taken
  repeat' split at taken
  all_goals cases taken
  all_goals first
    | exact ⟨id, rfl⟩
    | exact ⟨fun _ => rfl, rfl⟩

/-- Past its first step `Shutdown` no longer stores `accepting`. -/
theorem reopened_shutDown (reopened : server.Reopened)
    (taken : server.shutDown = some next) : next.Reopened := by
  obtain ⟨accepting, begun⟩ := reopened
  rw [shutDown] at taken
  split at taken
  next current => exact absurd current begun
  all_goals cases taken
  all_goals exact ⟨accepting, nofun⟩

theorem reopened_step (reopened : server.Reopened)
    (taken : server.step action = some next) : next.Reopened := by
  cases action with
  | accept connection =>
    rw [step] at taken
    split at taken
    next step current =>
      obtain ⟨accepting, same⟩ := accepting_accept taken
      exact ⟨accepting reopened.1, same ▸ reopened.2⟩
    next => cases taken
  | shutdown => exact reopened_shutDown reopened taken
  | unregisterConnection connection | unregisterHttp2 connection =>
    exact Option.some.inj taken ▸ reopened

theorem reopened_lateAdoption (late : server.LateAdoption action)
    (taken : server.step action = some next) : next.Reopened := by
  cases action with
  | accept connection =>
    obtain ⟨current, begun⟩ := late
    rw [step, current] at taken
    exact Option.some.inj taken ▸ ⟨rfl, begun⟩
  | shutdown | unregisterConnection _ | unregisterHttp2 _ => cases late

theorem orderly_of_listening (listening : server.Listening) :
    server.Orderly where
  accepting := .inl listening.shutdown
  h1Connections connection _ := by
    refine .inr (.inl ?_)
    rw [listening.shutdown]
    trivial
  h2Connections connection _ := by
    refine .inr ?_
    rw [listening.shutdown]
    exact nofun

theorem closed_of_orderly (orderly : server.Orderly)
    (finished : server.Finished) : server.Closed where
  accepting := by
    refine orderly.stopped ?_
    rw [finished.shutdown]
    exact nofun
  h1Connections connection registered := by
    have ran (step : AcceptStep)
        (current : server.callbacks[connection]? = some step) :
        step = .done :=
      finished.callbacks step (List.mem_of_getElem? current)
    rcases orderly.h1Connections connection registered with told | awaits
    · exact told
    rcases awaits with reaches | rechecks | closes
    · rw [finished.shutdown] at reaches
      cases reaches
    · cases ran _ rechecks
    · cases ran _ closes
  h2Connections connection registered :=
    (orderly.h2Connections connection registered).resolve_right
      fun running => running finished.shutdown

/-- `Shutdown` leaves no connection unnoticed, unless an HTTP/2 connection is
adopted behind its first step. -/
theorem closed_iff_avoids_lateAdoption (listening : server.Listening)
    (performed : perform step server actions = some final)
    (finished : final.Finished) :
    final.Closed ↔ Avoids step LateAdoption server actions := by
  constructor
  · intro closed
    by_contra late
    have reopened : final.Reopened :=
      perform_not_avoiding reopened_lateAdoption reopened_step performed late
    exact Bool.false_ne_true (closed.accepting.symm.trans reopened.1)
  · intro timely
    have orderly : final.Orderly :=
      perform_avoiding orderly_step performed timely
        (orderly_of_listening listening)
    exact closed_of_orderly orderly finished

/-- A listening server with one HTTP/1 and one HTTP/2 connection, and an
accept callback for each way in. -/
def sample : Server where
  accepting := true
  h1Connections := [7]
  h2Connections := [8]
  told := []
  callbacks := [.check, .muxCheck .http11, .muxCheck .h2]
  shutdown := .clear

theorem sample_listening : sample.Listening :=
  ⟨rfl, rfl, by decide⟩

/-- The TCP connection is constructed behind the snapshot, and `Shutdown`
finds the adopted connection in its registry. -/
def sampleRun : List Action :=
  [.accept 2, .accept 2, .accept 0, .accept 2, .accept 1, .shutdown,
    .accept 1, .shutdown, .accept 0, .shutdown, .accept 0, .accept 0,
    .shutdown, .shutdown, .accept 2]

def sampleFinal : Server where
  accepting := false
  h1Connections := [0, 7]
  h2Connections := [2, 8]
  told := [2, 8, 0, 7]
  callbacks := [.done, .done, .done]
  shutdown := .done

theorem sampleRun_closed : sampleFinal.Closed :=
  (closed_iff_avoids_lateAdoption sample_listening
    (show perform step sample sampleRun = some sampleFinal from rfl)
    ⟨rfl, by decide⟩).mpr (by decide)

/-- A TLS server whose I/O thread runs two accept callbacks. -/
def tlsSample : Server where
  accepting := true
  h1Connections := [7]
  h2Connections := [8]
  told := []
  callbacks := [.muxCheck .h2, .muxCheck .http11]
  shutdown := .clear

/-- All of `Shutdown` runs between the check of the first callback and its
`accepting.store(true)`. -/
def lateRun : List Action :=
  [.accept 0, .shutdown, .shutdown, .shutdown, .shutdown, .shutdown,
    .accept 0, .accept 0, .accept 0,
    .accept 1, .accept 1, .accept 1, .accept 1, .accept 1]

def lateFinal : Server where
  accepting := true
  h1Connections := [1, 7]
  h2Connections := [0, 8]
  told := [8, 7]
  callbacks := [.done, .done]
  shutdown := .done

/-- The server accepts again, and the connections of both callbacks stay
open. -/
theorem lateAdoption_not_closed :
    tlsSample.Listening ∧
      perform step tlsSample lateRun = some lateFinal ∧
      lateFinal.Finished ∧ ¬lateFinal.Closed ∧
      0 ∈ lateFinal.h2Connections ∧ 0 ∉ lateFinal.told ∧
      1 ∈ lateFinal.h1Connections ∧ 1 ∉ lateFinal.told := by
  refine ⟨⟨rfl, rfl, by decide⟩, rfl, ⟨rfl, by decide⟩, fun closed => ?_,
    by decide⟩
  have accepting : true = false := closed.accepting
  cases accepting

end Server

end Libnei.Http.Shutdown
