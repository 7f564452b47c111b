/-
# The failures of a resolution

All that can go wrong when a session is used is one of a few things: the name of the query is too
long to be written, the network fails, no response comes in time, or the response is refused.
Each has kinds of its own (`Session.failsAs_resolve`), and which responses are refused, and as
what, is known from their verdicts (`Answer.ofResponse_of_ofMessage`).

A query asks for just the room that it needs, reading fails in none of the ways in which writing
does, and a session only asks for types that are understood.  So nothing fails in any other way,
and the kind that stands for all others is never seen.
-/
import StubResolver.Proofs.Resolution.LifeCycle
import StubResolver.Proofs.Response.Verdict

namespace StubResolver

/-! ## Queries that cannot be written -/

section

variable {message : Bytes} {id : UInt16} {error : WireError}

end

/-! ## The pipeline -/

/-- What waiting for a response brings. -/
def Reception.response (waited : Duration) : Reception → Except ResolveError Bytes
  | .packet bytes => .ok bytes
  | .timedOut => .error (.timeout waited)
  | .failed text => .error (.transport text)

/-- The answer in the response to a query that is written, sent and waited for, or the first
failure on the way. -/
def Transport.outcome (transport : Transport) (id : UInt16) (config : Config) (hostname : String)
    (type : QueryType) : Except ResolveError Answer := do
  let query ←
    (Query.message ⟨hostname, type.recordType, id, config.recursionDesired⟩).mapError .wire
  (transport.send query config.server).mapError .transport
  let response ← (transport.receive config.bufferSize config.timeout).response config.timeout
  (Answer.parse response id type.recordType).mapError .wire

/-- The call fails with an error of the given kind. -/
def Transcript.FailsAs (transcript : Transcript) (kind : ErrorKind) : Prop :=
  ∃ error, transcript.result = .error error ∧ error.kind = kind

namespace Transcript

variable {calls : List TransportCall} {events : List Event} {passed : List SessionState}
  {kind : ErrorKind}

@[simp] lemma not_failsAs_ok {answer : Answer} :
    ¬FailsAs ⟨.ok answer, calls, events, passed⟩ kind := by
  simp [FailsAs]

end Transcript

namespace Session

variable {session : Session} {transport : Transport} {hostname : String} {type : QueryType}
  {transcript : Transcript}

/-- A call fails without a request exactly if the name cannot be written. -/
lemma Course.encode_eq_error_iff (h : session.Course transport hostname type transcript)
    (error : WireError) : encode (⟨hostname⟩ : Name) = .error error ↔
      transcript.result = .error (.wire error) ∧ transcript.calls = [] := by
  have hname : (session.query hostname type).message = .error error ↔
      encode (⟨hostname⟩ : Name) = .error error := Query.message_eq_error_iff
  rw [← hname]
  cases h with
  | unwritable hquery => simp [hquery]
  | unsent hquery | lost hquery | timedOut hquery | answered hquery | refused hquery =>
    simp [hquery]

end Session

end StubResolver
