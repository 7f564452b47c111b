/-
# Queries and their delivery

The query of a session can be sent exactly when its name can be written, and then consists
of the wire forms of its header and its question (`Query.message_eq_ok_iff`); otherwise it is
refused as its name is (`Query.message_eq_error_iff`).  A transport that delivers it and brings
something back leaves the result of the session to what was brought
(`Session.resolve_of_delivers`).
-/
import StubResolver.Proofs.Response.WireForm
import StubResolver.Session

namespace StubResolver

namespace Query

lemma message_eq_ok_iff {query : Query} {bytes : Bytes} : query.message = .ok bytes ↔
    query.question.name.WithinLimits ∧ bytes = query.header.wire ++ query.question.wire := by
  have hputs := (Writer.puts_header query.header).append query.question.puts_write
  have hsize : size query.header + size query.question =
      (query.header.wire ++ query.question.wire).length := by
    rw [Question.size_eq, List.length_append, Header.length_wire]
    rfl
  rw [message, hputs, hsize]
  simp only [true_and, Nat.le_refl]

/-- A query whose name is too long is refused for that, after its header was written. -/
lemma message_of_tooLong {query : Query} {error : WireError}
    (h : query.question.name.TooLong error) : query.message = .error error := by
  have hsize : size query.header = query.header.wire.length := (Header.length_wire _).symm
  have hheader : write query.header (size query.header + size query.question) =
      .ok query.header.wire :=
    (Writer.puts_header query.header _ _).2 ⟨trivial, by omega, rfl⟩
  have hquestion : ∀ room, write query.question room = .error error := by
    intro room
    show (Name.write query.question.name ++ write query.question.qtype ++
      write query.question.qclass) room = _
    rw [h.write_eq]
    rfl
  rw [message, Writer.append_apply, hheader]
  simp only [hquestion]

/-- A query cannot be written for the same reason as its name. -/
lemma message_eq_error_iff {query : Query} {error : WireError} :
    query.message = .error error ↔ encode query.question.name = .error error := by
  rcases query.question.name.withinLimits_or_tooLong with hlimits | ⟨found, hlong⟩
  · rw [message_eq_ok_iff.2 ⟨hlimits, rfl⟩, Name.encode_eq_ok_iff.2 ⟨hlimits, rfl⟩]
    exact iff_of_false nofun nofun
  · rw [message_of_tooLong hlong, Name.encode_eq_error_iff.2 hlong]

end Query

/-- The transport sends the query to the server of the session and hands a response back. -/
structure Transport.Delivers (transport : Transport) (config : Config) (query response : Bytes) :
    Prop where
  send : transport.send query config.server = .ok ()
  receive : transport.receive config.bufferSize config.timeout = .packet response

namespace Session

lemma new_transport (id : UInt16) (config : Config) (transport : Transport) :
    (new id config transport).transport = some transport := rfl

variable {session : Session} {transport : Transport} {hostname : String} {type : QueryType}
  {query response : Bytes}

lemma exchange_of_delivers (hquery : (session.query hostname type).message = .ok query)
    (h : transport.Delivers session.config query response) :
    (session.exchange transport hostname type).calls = [.send query session.config.server,
        .receive session.config.bufferSize session.config.timeout] ∧
      (session.exchange transport hostname type).result =
        (Answer.ofMessage response session.id type).mapError .wire := by
  unfold exchange
  rw [hquery]
  simp only [h.send, h.receive, and_self]

/-- A session whose query and response are delivered takes its result from the response. -/
lemma resolve_of_delivers (hfresh : session.transport = some transport)
    (hquery : (session.query hostname type).message = .ok query)
    (h : transport.Delivers session.config query response) :
    ∃ transcript after, session.resolve hostname type = (transcript, after) ∧
      transcript.calls = [.send query session.config.server,
        .receive session.config.bufferSize session.config.timeout] ∧
      (∀ answer, Answer.ofMessage response session.id type = .ok answer →
        transcript.result = .ok answer ∧ after.state = .done) ∧
      (∀ error, Answer.ofMessage response session.id type = .error error →
        transcript.result = .error (.wire error) ∧ after.state = .failed) := by
  obtain ⟨hcalls, hresult⟩ := exchange_of_delivers hquery h
  unfold resolve
  rw [hfresh]
  simp only
  generalize session.exchange transport hostname type = transcript at hcalls hresult
  refine ⟨transcript, _, rfl, hcalls, ?_, ?_⟩
  · intro answer hanswer
    rw [hanswer] at hresult
    exact ⟨hresult, congrArg SessionState.ofResult hresult⟩
  · intro error herror
    rw [herror] at hresult
    exact ⟨hresult, congrArg SessionState.ofResult hresult⟩

end Session

end StubResolver
