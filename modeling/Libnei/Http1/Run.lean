import Libnei.Http1.Connection
import Libnei.Lib.System

/-!
# Runs of an HTTP/1 server connection

The I/O thread processes reads, completions of writes, calls that handlers
make later and tasks that were posted, one after the other; other threads may
close the connection at any time.
-/

namespace Libnei.Http1

open Libnei.Lib

variable {llhttp : Llhttp} {Handler World : Type}

def readBufferSize : Nat := 4096

inductive Action (World : Type)
  | advance
  | read (result : Option Bytes)
  | written (success : Bool)
  | call (program : Program World)
  | close
  | closeElsewhere
  | closePosted
  | watchdog

/-- What can happen to a connection.  Handlers have got hold of it once the
mode is no longer `http`. -/
inductive Step (server : Server Handler World) :
    Running llhttp Handler World → Action World →
      Running llhttp Handler World → Prop
  | advance {state state' : Running llhttp Handler World} :
      server.next state = some state' →
      Step server state .advance state'
  | read {conn : Http1Connection llhttp Handler World}
      (result : Option Bytes) :
      conn.readInFlight = true →
      (result.getD []).length ≤ readBufferSize →
      Step server ⟨.idle, conn⟩ (.read result) (Server.onRead conn result)
  | written {conn : Http1Connection llhttp Handler World}
      (success : Bool) :
      conn.writeInFlight = true →
      Step server ⟨.idle, conn⟩ (.written success)
        ⟨.idle, conn.via (.onWritten · success)⟩
  | call {conn : Http1Connection llhttp Handler World}
      (program : Program World) :
      conn.mode ≠ .http →
      Step server ⟨.idle, conn⟩ (.call program)
        ⟨.idle, conn.via (.run program)⟩
  | close {conn : Http1Connection llhttp Handler World} :
      Step server ⟨.idle, conn⟩ .close ⟨.idle, conn.via .close⟩
  | closeElsewhere {state : Running llhttp Handler World} :
      Step server state .closeElsewhere
        ⟨state.control, state.conn.via .closeElsewhere⟩
  | closePosted {conn : Http1Connection llhttp Handler World} :
      conn.closePosted = true →
      Step server ⟨.idle, conn⟩ .closePosted ⟨.idle, conn.via .closeHere⟩
  | watchdog {conn : Http1Connection llhttp Handler World} :
      conn.drainAfterClose = true →
      Step server ⟨.idle, conn⟩ .watchdog
        ⟨.idle, conn.via .finalTeardown⟩

/-- The runs in which every action meets a condition on the state before
it. -/
def runs (llhttp : Llhttp) (server : Server Handler World)
    (condition : Running llhttp Handler World → Action World → Prop) :
    System (Running llhttp Handler World) where
  initial state := ∃ tls world,
    state = ⟨.idle, .accepted llhttp Handler tls world⟩
  step state state' := ∃ action, condition state action ∧
    Step server state action state'

/-- `count` steps of `OnRead`. -/
def Server.advance (server : Server Handler World)
    (state : Running llhttp Handler World) :
    Nat → Running llhttp Handler World
  | 0 => state
  | count + 1 =>
      let state' := server.advance state count
      (server.next state').getD state'

theorem reachable_advance {server : Server Handler World}
    {condition : Running llhttp Handler World → Action World → Prop}
    {state : Running llhttp Handler World} {count : Nat}
    (reachable : (runs llhttp server condition).Reachable state)
    (allowed : ∀ earlier < count,
      condition (server.advance state earlier) .advance) :
    (runs llhttp server condition).Reachable
      (server.advance state count) := by
  induction count with
  | zero => exact reachable
  | succ count ih =>
    have before := ih fun earlier less =>
      allowed earlier (Nat.lt_succ_of_lt less)
    rw [Server.advance]
    cases stepped : server.next (server.advance state count) with
    | none => exact before
    | some state' =>
      exact before.next
        ⟨.advance, allowed count (Nat.lt_succ_self count), .advance stepped⟩

end Libnei.Http1
