/-
# The life of a session

A session is used once.  What a call of an unused session can come to is laid out as a
relation, `Session.Course`, with one case for each point at which the call can end.  The
requests made of the transport and the states passed through are read off the cases, and
nothing below looks into `Session.exchange` again.

A session that was used has no transport any more, and from then on nothing happens
(`Session.resolveAll_of_spent`).  The main result follows the session over any number of
calls: `Session.resolveAll_new`.
-/
import StubResolver.Proofs.Resolution.Delivery

namespace StubResolver

/-- The states that may follow one another while a session is in use. -/
inductive SessionState.LeadsTo : SessionState → SessionState → Prop
  | send : LeadsTo .idle .querySent
  | giveUp : LeadsTo .idle .failed
  | receive : LeadsTo .querySent .responseReceived
  | timeOut : LeadsTo .querySent .timedOut
  | lose : LeadsTo .querySent .failed
  | accept : LeadsTo .responseReceived .done
  | refuse : LeadsTo .responseReceived .failed

namespace Transcript

/-- The call leaves its session in the state that goes with its result. -/
structure EndsIn (transcript : Transcript) (state : SessionState) : Prop where
  done : ∀ answer, transcript.result = .ok answer → state = .done
  timedOut : ∀ waited, transcript.result = .error (.timeout waited) → state = .timedOut
  failed : ∀ error, transcript.result = .error error → (∀ waited, error ≠ .timeout waited) →
    state = .failed

/-- The call of a session that was used before. -/
def refusal : Transcript :=
  ⟨.error .sessionSpent, [], [], []⟩

lemma endsIn_ofResult (transcript : Transcript) :
    transcript.EndsIn (.ofResult transcript.result) where
  done answer h := by
    rw [h]
    rfl
  timedOut waited h := by
    rw [h]
    rfl
  failed error h hother := by
    rw [h]
    cases error with
    | timeout waited => exact absurd rfl (hother waited)
    | wire _ | transport _ | sessionSpent => rfl

end Transcript

namespace Session

/-! ## One call -/

/-- The ways in which a call of an unused session goes: the query cannot be written; it
cannot be sent; the network fails before a response is there; none comes in time; the
response holds the answer; the response is refused. -/
inductive Course (session : Session) (transport : Transport) (hostname : String)
    (type : QueryType) : Transcript → Prop
  | unwritable {error : WireError}
      (hquery : (session.query hostname type).message = .error error) :
      Course session transport hostname type ⟨.error (.wire error), [], [], []⟩
  | unsent {query : Bytes} {text : String}
      (hquery : (session.query hostname type).message = .ok query)
      (hsend : transport.send query session.config.server = .error text) :
      Course session transport hostname type
        ⟨.error (.transport text), [.send query session.config.server], [], []⟩
  | lost {query : Bytes} {text : String}
      (hquery : (session.query hostname type).message = .ok query)
      (hsend : transport.send query session.config.server = .ok ())
      (hreceive : transport.receive session.config.bufferSize session.config.timeout =
        .failed text) :
      Course session transport hostname type
        ⟨.error (.transport text),
          [.send query session.config.server,
            .receive session.config.bufferSize session.config.timeout],
          [.querySent session.id session.config.server hostname type query.length],
          [.querySent]⟩
  | timedOut {query : Bytes}
      (hquery : (session.query hostname type).message = .ok query)
      (hsend : transport.send query session.config.server = .ok ())
      (hreceive : transport.receive session.config.bufferSize session.config.timeout =
        .timedOut) :
      Course session transport hostname type
        ⟨.error (.timeout session.config.timeout),
          [.send query session.config.server,
            .receive session.config.bufferSize session.config.timeout],
          [.querySent session.id session.config.server hostname type query.length,
            .queryTimedOut session.id session.config.server session.config.timeout],
          [.querySent]⟩
  | answered {query response : Bytes} {answer : Answer}
      (hquery : (session.query hostname type).message = .ok query)
      (hsend : transport.send query session.config.server = .ok ())
      (hreceive : transport.receive session.config.bufferSize session.config.timeout =
        .packet response)
      (hanswer : Answer.ofMessage response session.id type = .ok answer) :
      Course session transport hostname type
        ⟨.ok answer,
          [.send query session.config.server,
            .receive session.config.bufferSize session.config.timeout],
          [.querySent session.id session.config.server hostname type query.length,
            .responseReceived session.id response.length, .resolved session.id answer],
          [.querySent, .responseReceived]⟩
  | refused {query response : Bytes} {error : WireError}
      (hquery : (session.query hostname type).message = .ok query)
      (hsend : transport.send query session.config.server = .ok ())
      (hreceive : transport.receive session.config.bufferSize session.config.timeout =
        .packet response)
      (herror : Answer.ofMessage response session.id type = .error error) :
      Course session transport hostname type
        ⟨.error (.wire error),
          [.send query session.config.server,
            .receive session.config.bufferSize session.config.timeout],
          [.querySent session.id session.config.server hostname type query.length,
              .responseReceived session.id response.length] ++
            (Event.ofResult? session.id session.config.server (.error error)).toList,
          [.querySent, .responseReceived]⟩

variable {session : Session} {transport : Transport} {hostname : String} {type : QueryType}
  {transcript : Transcript}

lemma exchange_course (session : Session) (transport : Transport) (hostname : String)
    (type : QueryType) :
    session.Course transport hostname type (session.exchange transport hostname type) := by
  unfold exchange
  cases hquery : (session.query hostname type).message with
  | error error => exact .unwritable hquery
  | ok query =>
    cases hsend : transport.send query session.config.server with
    | error text =>
      simp only [hsend]
      exact .unsent hquery hsend
    | ok _ =>
      cases hreceive : transport.receive session.config.bufferSize session.config.timeout with
      | failed text =>
        simp only [hsend, hreceive]
        exact .lost hquery hsend hreceive
      | timedOut =>
        simp only [hsend, hreceive]
        exact .timedOut hquery hsend hreceive
      | packet response =>
        simp only [hsend, hreceive]
        cases hresult : Answer.ofMessage response session.id type with
        | ok answer => exact .answered hquery hsend hreceive hresult
        | error error => exact .refused hquery hsend hreceive hresult

/-- What a session asks of its transport when the requests are made of it: nothing before
the first of them and nothing if the query for that one cannot be written; otherwise the
query is sent to the server, and a response is waited for if it could be sent. -/
inductive Traffic (id : UInt16) (config : Config) (transport : Transport) :
    List (String × QueryType) → List TransportCall → Prop
  | unused : Traffic id config transport [] []
  | unwritable {hostname : String} {type : QueryType} {others : List (String × QueryType)}
      {error : WireError}
      (hquery : (⟨hostname, type.recordType, id, config.recursionDesired⟩ : Query).message =
        .error error) :
      Traffic id config transport ((hostname, type) :: others) []
  | unsent {hostname : String} {type : QueryType} {others : List (String × QueryType)}
      {query : Bytes} {text : String}
      (hquery : (⟨hostname, type.recordType, id, config.recursionDesired⟩ : Query).message =
        .ok query)
      (hsend : transport.send query config.server = .error text) :
      Traffic id config transport ((hostname, type) :: others) [.send query config.server]
  | sent {hostname : String} {type : QueryType} {others : List (String × QueryType)}
      {query : Bytes}
      (hquery : (⟨hostname, type.recordType, id, config.recursionDesired⟩ : Query).message =
        .ok query)
      (hsend : transport.send query config.server = .ok ()) :
      Traffic id config transport ((hostname, type) :: others)
        [.send query config.server, .receive config.bufferSize config.timeout]

lemma Course.traffic (h : session.Course transport hostname type transcript)
    (others : List (String × QueryType)) :
    Traffic session.id session.config transport ((hostname, type) :: others)
      transcript.calls := by
  cases h with
  | unwritable hquery => exact .unwritable hquery
  | unsent hquery hsend => exact .unsent hquery hsend
  | lost hquery hsend | timedOut hquery hsend | answered hquery hsend
  | refused hquery hsend => exact .sent hquery hsend

/-- The states that a call passes through lead from the start to the one that goes with
its result. -/
lemma Course.isChain (h : session.Course transport hostname type transcript) :
    List.IsChain SessionState.LeadsTo
      (.idle :: transcript.passed ++ [.ofResult transcript.result]) := by
  cases h with
  | unwritable | unsent => exact .cons_cons .giveUp (.singleton _)
  | lost => exact .cons_cons .send (.cons_cons .lose (.singleton _))
  | timedOut => exact .cons_cons .send (.cons_cons .timeOut (.singleton _))
  | answered => exact .cons_cons .send (.cons_cons .receive (.cons_cons .accept (.singleton _)))
  | refused => exact .cons_cons .send (.cons_cons .receive (.cons_cons .refuse (.singleton _)))

/-! ## Any number of calls -/

/-- A session is idle as long as it has its transport, and no longer. -/
def Coherent (session : Session) : Prop :=
  session.state = .idle ↔ session.transport.isSome

lemma coherent_new (id : UInt16) (config : Config) (transport : Transport) :
    (new id config transport).Coherent :=
  iff_of_true rfl rfl

lemma resolve_of_spent (h : session.transport = none) (hostname : String) (type : QueryType) :
    session.resolve hostname type = (.refusal, session) := by
  unfold resolve
  rw [h]
  rfl

lemma resolve_of_unused (h : session.transport = some transport) (hostname : String)
    (type : QueryType) :
    ∃ transcript, session.Course transport hostname type transcript ∧
      session.resolve hostname type =
        (transcript, ⟨session.id, session.config, none, .ofResult transcript.result⟩) := by
  refine ⟨_, session.exchange_course transport hostname type, ?_⟩
  unfold resolve
  rw [h]

/-- One call keeps a session coherent. -/
lemma Coherent.resolve (h : session.Coherent) (hostname : String) (type : QueryType) :
    (session.resolve hostname type).2.Coherent := by
  cases htransport : session.transport with
  | none =>
    rw [resolve_of_spent htransport]
    exact h
  | some transport =>
    obtain ⟨transcript, -, hresolve⟩ := resolve_of_unused htransport hostname type
    have hused : SessionState.ofResult transcript.result ≠ .idle := by
      unfold SessionState.ofResult
      split <;> exact nofun
    rw [hresolve]
    exact iff_of_false hused nofun

/-- However many calls are made, a session is coherent after each of them. -/
lemma Coherent.resolveAll (h : session.Coherent) (requests : List (String × QueryType)) :
    ∀ run ∈ session.resolveAll requests, run.2.Coherent := by
  intro run hrun
  induction requests generalizing session with
  | nil => cases hrun
  | cons request others ih =>
    obtain ⟨hostname, type⟩ := request
    have hafter := h.resolve hostname type
    rcases List.mem_cons.mp hrun with rfl | hrun
    · exact hafter
    · exact ih hafter hrun

/-- Nothing happens to a session that was used before, and it makes nothing happen. -/
lemma resolveAll_of_spent (h : session.transport = none) (requests : List (String × QueryType)) :
    session.resolveAll requests = requests.map fun _ => (.refusal, session) := by
  induction requests with
  | nil => rfl
  | cons request others ih =>
    obtain ⟨hostname, type⟩ := request
    simp only [resolveAll, resolve_of_spent h, ih, List.map_cons]

lemma flatMap_calls_refusal (session : Session) (requests : List (String × QueryType)) :
    (requests.map fun _ => (Transcript.refusal, session)).flatMap (·.1.calls) = [] := by
  rw [List.flatMap_map]
  exact List.flatMap_eq_nil_iff.mpr fun _ _ => rfl

/-- The first call of a session is the only one that does anything. -/
lemma resolveAll_cons_of_unused (h : session.transport = some transport) (hostname : String)
    (type : QueryType) (others : List (String × QueryType)) :
    ∃ transcript after, session.Course transport hostname type transcript ∧
      after = ⟨session.id, session.config, none, .ofResult transcript.result⟩ ∧
      session.resolveAll ((hostname, type) :: others) =
        (transcript, after) :: others.map fun _ => (.refusal, after) := by
  obtain ⟨transcript, hcourse, hresolve⟩ := resolve_of_unused h hostname type
  refine ⟨transcript, _, hcourse, rfl, ?_⟩
  simp only [resolveAll, hresolve]
  rw [resolveAll_of_spent rfl]

lemma traffic_resolveAll_new (id : UInt16) (config : Config) (transport : Transport)
    (requests : List (String × QueryType)) :
    Traffic id config transport requests
      (((new id config transport).resolveAll requests).flatMap (·.1.calls)) := by
  cases requests with
  | nil => exact .unused
  | cons request others =>
    obtain ⟨hostname, type⟩ := request
    obtain ⟨transcript, after, hcourse, -, hruns⟩ :=
      resolveAll_cons_of_unused (new_transport id config transport) hostname type others
    rw [hruns, List.flatMap_cons, flatMap_calls_refusal, List.append_nil]
    exact hcourse.traffic others

/-- **A session is used once.**  Over any number of calls, all that a session asks of its
transport is to send the query for the first of them and, once it is sent, to wait for a
response.  Between calls the session is idle exactly as long as it has its transport.  The
first call gives the transport up and leaves the session in the state that goes with the
result, through states that lead to one another; each later call is refused and leaves the
session as it is. -/
theorem resolveAll_new (id : UInt16) (config : Config) (transport : Transport)
    (requests : List (String × QueryType)) :
    let runs := (new id config transport).resolveAll requests
    Traffic id config transport requests (runs.flatMap (·.1.calls)) ∧
      (∀ session ∈ new id config transport :: runs.map (·.2), session.Coherent) ∧
      ∀ hostname type others, requests = (hostname, type) :: others →
        ∃ transcript state, transcript.EndsIn state ∧
          List.IsChain SessionState.LeadsTo (.idle :: transcript.passed ++ [state]) ∧
          runs = (transcript, ⟨id, config, none, state⟩) ::
            others.map fun _ =>
              (⟨.error .sessionSpent, [], [], []⟩, ⟨id, config, none, state⟩) := by
  intro runs
  have hnew := coherent_new id config transport
  refine ⟨traffic_resolveAll_new id config transport requests, ?_, ?_⟩
  · intro session hsession
    rcases List.mem_cons.mp hsession with rfl | hsession
    · exact hnew
    · obtain ⟨run, hrun, rfl⟩ := List.mem_map.mp hsession
      exact hnew.resolveAll requests run hrun
  · rintro hostname type others rfl
    obtain ⟨transcript, after, hcourse, rfl, hruns⟩ :=
      resolveAll_cons_of_unused (new_transport id config transport) hostname type others
    exact ⟨transcript, _, transcript.endsIn_ofResult, hcourse.isChain, hruns⟩

/-- The case of two calls, of the first of which the server does not answer the query. -/
theorem resolveAll_new_unanswered :
    let config := Config.ofHost (.v4 ⟨192, 0, 2, 53⟩)
    let runs := (new 7 config (.datagrams (.ok ()) .timedOut)).resolveAll [("", .a), ("b", .mx)]
    runs.flatMap (·.1.calls) =
        [.send [0, 7, 0, 0, 0, 1, 0, 0, 0, 0, 0, 0, 0, 0, 1, 0, 1] config.server,
          .receive 4096 Config.defaultTimeout] ∧
      ∃ transcript state, transcript.EndsIn state ∧
        List.IsChain SessionState.LeadsTo (.idle :: transcript.passed ++ [state]) ∧
        runs = [(transcript, ⟨7, config, none, state⟩),
          (⟨.error .sessionSpent, [], [], []⟩, ⟨7, config, none, state⟩)] := by
  intro config runs
  have hmessage : (⟨"", QueryType.a.recordType, 7, config.recursionDesired⟩ : Query).message =
      .ok [0, 7, 0, 0, 0, 1, 0, 0, 0, 0, 0, 0, 0, 0, 1, 0, 1] :=
    Query.message_eq_ok_iff.2 ⟨⟨by decide, by decide⟩, by decide⟩
  obtain ⟨htraffic, -, hfirst⟩ :=
    resolveAll_new 7 config (.datagrams (.ok ()) .timedOut) [("", .a), ("b", .mx)]
  refine ⟨?_, hfirst "" .a [("b", .mx)] rfl⟩
  generalize runs.flatMap (·.1.calls) = calls at htraffic ⊢
  cases htraffic with
  | unwritable hquery => exact absurd (hmessage.symm.trans hquery) nofun
  | unsent _ hsend => exact absurd hsend nofun
  | sent hquery =>
    obtain rfl := Except.ok.inj (hmessage.symm.trans hquery)
    rfl

end Session

end StubResolver
