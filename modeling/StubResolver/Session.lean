/-
Sessions: one attempt to have a name resolved by one server.

A session holds a transport until it is used for the first time.  That call builds the
query, sends it, waits for the response and takes the answer from it; it gives the
transport up, however it ends.  Every later call is refused and changes nothing.

All that a call does is in its `Transcript`: the result, the requests made of the
transport, the events reported, and the states passed through.
-/
import StubResolver.Answer
import StubResolver.Config
import StubResolver.Query
import StubResolver.ResolveError
import StubResolver.Transport

namespace StubResolver

/-- How far a session has come. -/
inductive SessionState where
  | idle
  | querySent
  | responseReceived
  | timedOut
  | done
  | failed
deriving DecidableEq, Repr

/-! ## Events -/

/-- How much an event matters. -/
inductive EventLevel where
  | debug
  | warn
deriving DecidableEq, Repr

/-- What a session reports while it works. -/
inductive Event where
  | querySent (id : UInt16) (server : Endpoint) (hostname : String) (type : QueryType)
      (length : Nat)
  | queryTimedOut (id : UInt16) (server : Endpoint) (timeout : Duration)
  | responseReceived (id : UInt16) (length : Nat)
  | resolved (id : UInt16) (answer : Answer)
  | responseDropped (expected found : UInt16) (server : Endpoint)
deriving DecidableEq, Repr

namespace Event

/-- How much an event matters. -/
def level : Event → EventLevel
  | querySent .. => .debug
  | queryTimedOut .. => .warn
  | responseReceived .. => .debug
  | resolved .. => .debug
  | responseDropped .. => .warn

/-- The wording of an event. -/
def message : Event → String
  | querySent .. => "sent query"
  | queryTimedOut .. => "query timed out"
  | responseReceived .. => "received response"
  | resolved .. => "resolved"
  | responseDropped .. => "dropping response to another query"

end Event

/-! ## The course of one call -/

/-- All that one call of a session does. -/
structure Transcript where
  result : Except ResolveError Answer
  /-- The requests made of the transport, in order. -/
  calls : List TransportCall
  /-- The events reported, in order. -/
  events : List Event
  /-- The states passed through before the final one, in order. -/
  passed : List SessionState

/-- The state in which a result leaves a session. -/
def SessionState.ofResult : Except ResolveError Answer → SessionState
  | .ok _ => .done
  | .error (.timeout _) => .timedOut
  | .error _ => .failed

/-- The event that a session reports about its result, if there is one. -/
def Event.ofResult? (id : UInt16) (server : Endpoint) : Except WireError Answer → Option Event
  | .ok answer => some (.resolved id answer)
  | .error (.idMismatch expected found) => some (.responseDropped expected found server)
  | .error _ => none

/-- A session with a server. -/
structure Session where
  id : UInt16
  config : Config
  /-- The transport, until the session is used. -/
  transport : Option Transport
  state : SessionState

namespace Session

/-- A session that was not used yet. -/
def new (id : UInt16) (config : Config) (transport : Transport) : Session :=
  ⟨id, config, some transport, .idle⟩

/-- The query that a session sends. -/
def query (session : Session) (hostname : String) (type : QueryType) : Query where
  hostname := hostname
  type := type.recordType
  id := session.id
  recursionDesired := session.config.recursionDesired

/-- Sends the query of a session and takes the answer from the response to it. -/
def exchange (session : Session) (transport : Transport) (hostname : String)
    (type : QueryType) : Transcript :=
  let id := session.id
  let config := session.config
  match (session.query hostname type).message with
  | .error error => ⟨.error (.wire error), [], [], []⟩
  | .ok query =>
    let send := TransportCall.send query config.server
    match transport.send query config.server with
    | .error text => ⟨.error (.transport text), [send], [], []⟩
    | .ok () =>
      let receive := TransportCall.receive config.bufferSize config.timeout
      let sent := Event.querySent id config.server hostname type query.length
      match transport.receive config.bufferSize config.timeout with
      | .failed text => ⟨.error (.transport text), [send, receive], [sent], [.querySent]⟩
      | .timedOut =>
        ⟨.error (.timeout config.timeout), [send, receive],
          [sent, .queryTimedOut id config.server config.timeout], [.querySent]⟩
      | .packet response =>
        let result := Answer.ofMessage response id type
        ⟨result.mapError .wire, [send, receive],
          [sent, .responseReceived id response.length] ++
            (Event.ofResult? id config.server result).toList,
          [.querySent, .responseReceived]⟩

/-- Has a name resolved, if the session was not used before. -/
def resolve (session : Session) (hostname : String) (type : QueryType) :
    Transcript × Session :=
  match session.transport with
  | none => (⟨.error .sessionSpent, [], [], []⟩, session)
  | some transport =>
    let transcript := session.exchange transport hostname type
    (transcript, { session with transport := none, state := .ofResult transcript.result })

/-- Has several names resolved one after the other; the transcripts are in the order of the
names, each with the session after it. -/
def resolveAll (session : Session) : List (String × QueryType) → List (Transcript × Session)
  | [] => []
  | (hostname, type) :: others =>
    let (transcript, after) := session.resolve hostname type
    (transcript, after) :: after.resolveAll others

end Session

/-! ## Who owns the transport -/

/-- How a session came by its transport. -/
inductive Holding where
  /-- The transport is the session's own, directly or behind a reference of its own. -/
  | owned
  /-- The transport belongs to the caller. -/
  | borrowed
deriving DecidableEq, Repr

/-- Whether the transport itself is gone: what is borrowed outlives the session's use. -/
def Session.released (session : Session) (holding : Holding) : Bool :=
  holding = .owned && session.transport.isNone

/-! ## Without keeping a session -/

/-- Has a name resolved in a session of its own, over a transport that first has to be
opened. -/
def resolve (opened : Except String Transport) (id : UInt16) (config : Config)
    (hostname : String) (type : QueryType) : Transcript :=
  match opened with
  | .error text => ⟨.error (.transport text), [], [], []⟩
  | .ok transport => ((Session.new id config transport).resolve hostname type).1

end StubResolver
