import Arale.Net.ServedSteps

/-!
# `connectionDestroyed` and the server's destructor

A connection is destroyed after a close, by the functor `removeConnectionInLoop` posts,
or by `~TcpServer` at any moment of its life: at once if the connection lives on the
server's own loop, else by a posted functor. `connectionDestroyed` finishes what it
finds connected and trusts a close to have finished the rest; a connection that is
half-way between the two is left as it is.
-/

namespace Arale

/-- A served connection and whether its server is gone. -/
structure Teardown where
  served : ServedConnection
  serverGone : Bool

namespace Teardown

inductive Act where
  | act (a : ServedConnection.Act)
  /-- `~TcpServer`, on the server's loop -/
  | destroyServer

def start (sockfd : Int) (options : ConnOptions) (memory : Nat → UInt8) (sameLoop : Bool) :
    Teardown where
  served := .start sockfd options memory sameLoop
  serverGone := false

/-- The loop of `~TcpServer` over `connections_`, for this connection. -/
def destroyServer (w : ServedConnection) : ServedConnection :=
  if w.registered then
    { w with registered := false
             conn := if w.sameLoop then w.conn.connectionDestroyed
               else w.conn.post false .connectionDestroyed }
  else w

/-- A server that is gone runs none of its functors. -/
def step (s : Teardown) : Act → Option Teardown
  | .act a =>
    match s.serverGone, a with
    | true, .removeConnectionInLoop => none
    | _, a => (s.served.step a).map fun w => { s with served := w }
  | .destroyServer =>
    if s.serverGone then none
    else some { served := destroyServer s.served, serverGone := true }

/-- The action runs `connectionDestroyed`. -/
def destroys (s : Teardown) : Act → Bool
  | .act a =>
    match s.served.deed a with
    | .connectionDestroyed => true
    | _ => false
  | .destroyServer => s.served.registered && s.served.sameLoop

/-- Closed, removed from the poller without an event, and told so exactly once. -/
structure Finished (c : TcpConnection) : Prop where
  state : c.state = .kDisconnected
  removed : c.notices.getLast? = some (.removeChannel true)
  down : c.notices.count (.connectionCallback false) = 1

theorem step_act {s t : Teardown} {a : ServedConnection.Act} (next : s.step (.act a) = some t) :
    ∃ w, s.served.step a = some w ∧ t = { s with served := w } := by
  simp only [step] at next
  split at next
  · cases next
  · obtain ⟨w, stepped, rfl⟩ := Option.map_eq_some_iff.mp next
    exact ⟨w, stepped, rfl⟩

end Teardown
end Arale
