/-
What a resolver is told before it asks: the server, how long to wait, how large a response
may be, and whether the server should ask on.

Servers may send up to `minBufferSize` bytes in one datagram without being told that more
are welcome, so no setting makes the buffer for a response smaller than that.
-/
import StubResolver.Address
import StubResolver.Duration

namespace StubResolver

/-- The least size of the buffer for a response. -/
def minBufferSize : Nat := 512

/-- The settings of a resolver. -/
structure Config where
  server : Endpoint
  /-- How long to wait for a response. -/
  timeout : Duration
  /-- The most bytes of a response that are taken. -/
  bufferSize : Nat
  /-- Whether the server should ask other servers on our behalf. -/
  recursionDesired : Bool
  /-- The buffer holds whatever a server may send unasked. -/
  min_le_bufferSize : minBufferSize ≤ bufferSize := by decide
deriving DecidableEq, Repr

namespace Config

/-- The port at which servers answer unless told otherwise. -/
def defaultPort : UInt16 := 53

/-- The time to wait unless told otherwise. -/
def defaultTimeout : Duration := .ofParts 5 0

/-- The size of the buffer unless told otherwise. -/
def defaultBufferSize : Nat := 4096

/-- The settings for a server, everything else as it is by default. -/
def ofEndpoint (server : Endpoint) : Config where
  server := server
  timeout := defaultTimeout
  bufferSize := defaultBufferSize
  recursionDesired := false

/-- The settings for a server at the default port. -/
def ofHost (server : HostAddress) : Config :=
  ofEndpoint ⟨server, defaultPort⟩

/-- A new value for one of the settings. -/
inductive Setting where
  | port (port : UInt16)
  | timeout (timeout : Duration)
  | bufferSize (bufferSize : Nat)
  | recursionDesired (on : Bool)
deriving DecidableEq, Repr

/-- The settings with one of them changed. -/
def set (config : Config) : Setting → Config
  | .port port => { config with server := { config.server with port := port } }
  | .timeout timeout => { config with timeout := timeout }
  | .bufferSize bufferSize =>
    { config with
      bufferSize := max bufferSize minBufferSize
      min_le_bufferSize := Nat.le_max_right .. }
  | .recursionDesired on => { config with recursionDesired := on }

end Config

end StubResolver
