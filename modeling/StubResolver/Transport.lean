/-
Transports: what carries a query to a server and a response back.

A session sends at most one datagram and then waits at most once, so a transport is given
by how it answers these two requests.
-/
import StubResolver.Address
import StubResolver.Bytes
import StubResolver.Duration

namespace StubResolver

/-- What comes of waiting for a datagram. -/
inductive Reception where
  /-- A datagram arrived. -/
  | packet (bytes : Bytes)
  /-- None arrived in time. -/
  | timedOut
  /-- The network failed, in the words of the system. -/
  | failed (text : String)
deriving DecidableEq, Repr

/-- What carries datagrams. -/
structure Transport where
  /-- Sends a datagram to an endpoint, or says in the words of the system why not. -/
  send : Bytes → Endpoint → Except String Unit
  /-- Waits for a datagram of at most so many bytes, for at most so long. -/
  receive : Nat → Duration → Reception

/-- A request that was made of a transport. -/
inductive TransportCall where
  | send (bytes : Bytes) (destination : Endpoint)
  | receive (capacity : Nat) (timeout : Duration)
deriving DecidableEq, Repr

namespace Transport

/-- The transport of a datagram socket on which `arrival` is about to happen: of a datagram
with more bytes than there is room for, the first ones are kept. -/
def datagrams (send : Except String Unit) (arrival : Reception) : Transport where
  send _ _ := send
  receive capacity _ :=
    match arrival with
    | .packet bytes => .packet (bytes.take capacity)
    | other => other

end Transport

end StubResolver
