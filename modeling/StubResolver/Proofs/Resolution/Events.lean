/-
# What a session reports

The events of a call tell three things, one after the other: that the query was sent, what came
of waiting for a response, and how the response was taken.  `Session.Account` says for each of
them exactly when it is told and what is told then, in terms of the requests that were made of the
transport and of the result of the call.  Whichever way a call goes, its events are accounted for
(`Session.Course.account`).

A session that was used reports nothing, so over any number of calls the account is that of the
first one (`Session.account_resolveAll_new`).  A response is dropped as one to another query only
for the number in its first two bytes (`Answer.first_bytes_of_idMismatch`).
-/
import StubResolver.Proofs.Resolution.LifeCycle
import StubResolver.Proofs.Response.Verdict

namespace StubResolver

/-! ## Reports -/

/-- An event as it is reported: how much it matters, its wording, and what it tells. -/
structure Report where
  level : EventLevel
  message : String
  event : Event
deriving DecidableEq, Repr

/-- The report of an event. -/
def Event.report (event : Event) : Report where
  level := event.level
  message := event.message
  event := event

/-- What a call reports, in order. -/
def Transcript.reports (transcript : Transcript) : List Report :=
  transcript.events.map Event.report

/-! ## Responses to other queries -/

section

variable {message : Bytes} {id expected found : UInt16}

lemma EntryFlaw.not_idMismatch {widths : Nat → List Nat} {start : Nat} :
    ¬EntryFlaw message widths start (.idMismatch expected found) := by
  intro h
  obtain ⟨_, _, herror⟩ | ⟨_, _, herror⟩ := h.exists_eq
  · cases herror
  · cases herror

/-- Of all that can be wrong with a response, only its number makes it one to another query. -/
lemma Refusal.idMismatch (h : Refusal message id (.idMismatch expected found)) :
    expected = id ∧ found ≠ id ∧ message.take 2 = Bytes.toBigEndian 2 found.toNat := by
  cases h with
  | question _ _ _ hflaw | record _ _ _ _ hflaw => exact absurd hflaw EntryFlaw.not_idMismatch
  | header hflaw =>
    cases hflaw with
    | idMismatch hle hne =>
      have hat : Holds message 0 (Bytes.toBigEndian 2 (UInt16.ofNat (wordAt message 0)).toNat) :=
        holds_wordAt (by omega)
      refine ⟨rfl, ?_, ?_⟩
      · rintro rfl
        exact hne (wordAt_of_holds hat)
      · rw [holds_iff_take, List.drop_zero, Bytes.length_toBigEndian] at hat
        exact hat

lemma Answer.first_bytes_of_idMismatch {type : QueryType}
    (h : ofMessage message id type = .error (.idMismatch expected found)) :
    expected = id ∧ found ≠ id ∧ message.take 2 = Bytes.toBigEndian 2 found.toNat := by
  have hverdict := verdict_parse message id type.recordType
  rw [parse_recordType, h] at hverdict
  generalize type.recordType = wanted at hverdict
  cases hverdict with
  | refused hrefusal => exact hrefusal.idMismatch
  | firstMatch _ _ _ _ _ hyields => cases hyields

/-- A query that cannot be written is not taken for a response. -/
lemma Query.message_ne_idMismatch (query : Query) :
    query.message ≠ .error (.idMismatch expected found) := by
  intro h
  cases Name.encode_eq_error_iff.1 (message_eq_error_iff.1 h)

end

/-! ## The account of a call -/

namespace Transcript

/-- The call has the transport send a query to the server, and it is sent. -/
def Sends (transcript : Transcript) (transport : Transport) (config : Config)
    (query : Bytes) : Prop :=
  .send query config.server ∈ transcript.calls ∧ transport.send query config.server = .ok ()

/-- The call has the transport wait for a response, and one comes. -/
def Receives (transcript : Transcript) (transport : Transport) (config : Config)
    (response : Bytes) : Prop :=
  .receive config.bufferSize config.timeout ∈ transcript.calls ∧
    transport.receive config.bufferSize config.timeout = .packet response

end Transcript

namespace Session

/-- What a call reports is accounted for by what was sent, what was received and what the result
is. -/
structure Account (id : UInt16) (config : Config) (transport : Transport) (hostname : String)
    (type : QueryType) (transcript : Transcript) : Prop where
  length_le : transcript.reports.length ≤ 3
  /-- A query that was sent is reported first. -/
  first_iff : ∀ report, transcript.reports[0]? = some report ↔
    ∃ query, transcript.Sends transport config query ∧ report =
      ⟨.debug, "sent query", .querySent id config.server hostname type query.length⟩
  /-- Then it is reported that no response came in time, or that one came. -/
  second_iff : ∀ report, transcript.reports[1]? = some report ↔
    (∃ waited, transcript.result = .error (.timeout waited) ∧ report =
      ⟨.warn, "query timed out", .queryTimedOut id config.server waited⟩) ∨
    ∃ response, transcript.Receives transport config response ∧ report =
      ⟨.debug, "received response", .responseReceived id response.length⟩
  /-- Last the answer is reported, or that the response was one to another query. -/
  third_iff : ∀ report, transcript.reports[2]? = some report ↔
    (∃ answer, transcript.result = .ok answer ∧ report =
      ⟨.debug, "resolved", .resolved id answer⟩) ∨
    ∃ expected found, transcript.result = .error (.wire (.idMismatch expected found)) ∧ report =
      ⟨.warn, "dropping response to another query",
        .responseDropped expected found config.server⟩
  /-- Nothing is reported unless a query was sent. -/
  silent : (∀ query, ¬transcript.Sends transport config query) → transcript.reports = []
  /-- A response to another query carries the number of that one. -/
  mismatch : ∀ expected found, transcript.result = .error (.wire (.idMismatch expected found)) →
    expected = id ∧ found ≠ id ∧ ∃ response, transcript.Receives transport config response ∧
      response.take 2 = Bytes.toBigEndian 2 found.toNat

namespace Course

variable {session : Session} {transport : Transport} {hostname : String} {type : QueryType}
  {transcript : Transcript}

lemma length_reports_le (h : session.Course transport hostname type transcript) :
    transcript.reports.length ≤ 3 := by
  cases h with
  | unwritable | unsent | lost | timedOut | answered => simp [Transcript.reports]
  | @refused _ _ error =>
    have hle := Option.length_toList_le (o :=
      Event.ofResult? session.id session.config.server (.error error))
    rw [Transcript.reports, List.length_map, List.length_append, List.length_cons,
      List.length_singleton]
    omega

lemma first_iff (h : session.Course transport hostname type transcript) (report : Report) :
    transcript.reports[0]? = some report ↔
      ∃ query, transcript.Sends transport session.config query ∧ report =
        ⟨.debug, "sent query",
          .querySent session.id session.config.server hostname type query.length⟩ := by
  cases h with
  | unwritable => simp [Transcript.reports, Transcript.Sends]
  | unsent _ hsend => simp [Transcript.reports, Transcript.Sends, hsend]
  | lost _ hsend | timedOut _ hsend | answered _ hsend | refused _ hsend =>
    simp [Transcript.reports, Event.report, Event.level, Event.message, Transcript.Sends, hsend,
      eq_comm]

lemma second_iff (h : session.Course transport hostname type transcript) (report : Report) :
    transcript.reports[1]? = some report ↔
      (∃ waited, transcript.result = .error (.timeout waited) ∧ report =
        ⟨.warn, "query timed out", .queryTimedOut session.id session.config.server waited⟩) ∨
      ∃ response, transcript.Receives transport session.config response ∧ report =
        ⟨.debug, "received response", .responseReceived session.id response.length⟩ := by
  cases h with
  | unwritable | unsent => simp [Transcript.reports, Transcript.Receives]
  | lost _ _ hreceive => simp [Transcript.reports, Transcript.Receives, hreceive]
  | timedOut _ _ hreceive | answered _ _ hreceive | refused _ _ hreceive =>
    simp [Transcript.reports, Event.report, Event.level, Event.message, Transcript.Receives,
      hreceive, eq_comm]

lemma third_iff (h : session.Course transport hostname type transcript) (report : Report) :
    transcript.reports[2]? = some report ↔
      (∃ answer, transcript.result = .ok answer ∧ report =
        ⟨.debug, "resolved", .resolved session.id answer⟩) ∨
      ∃ expected found, transcript.result = .error (.wire (.idMismatch expected found)) ∧
        report = ⟨.warn, "dropping response to another query",
          .responseDropped expected found session.config.server⟩ := by
  cases h with
  | @unwritable error hquery =>
    have hother : ∀ expected found, error ≠ .idMismatch expected found := by
      rintro _ _ rfl
      exact Query.message_ne_idMismatch _ hquery
    simp [Transcript.reports, hother]
  | unsent | lost | timedOut => simp [Transcript.reports]
  | answered => simp [Transcript.reports, Event.report, Event.level, Event.message, eq_comm]
  | @refused _ _ error =>
    -- of all errors only one is an event
    cases error with
    | idMismatch expected found =>
      simp [Transcript.reports, Event.ofResult?, Event.report, Event.level, Event.message, eq_comm]
    | _ => simp [Transcript.reports, Event.ofResult?]

lemma mismatch (h : session.Course transport hostname type transcript) {expected found : UInt16}
    (hresult : transcript.result = .error (.wire (.idMismatch expected found))) :
    expected = session.id ∧ found ≠ session.id ∧
      ∃ response, transcript.Receives transport session.config response ∧
        response.take 2 = Bytes.toBigEndian 2 found.toNat := by
  cases h with
  | unwritable hquery =>
    cases hresult
    exact absurd hquery (Query.message_ne_idMismatch _)
  | refused _ _ hreceive herror =>
    cases hresult
    obtain ⟨hexpected, hfound, hbytes⟩ := Answer.first_bytes_of_idMismatch herror
    exact ⟨hexpected, hfound, _, ⟨by simp, hreceive⟩, hbytes⟩
  | unsent | lost | timedOut | answered => cases hresult

/-- Whichever way a call goes, what it reports is accounted for. -/
lemma account (h : session.Course transport hostname type transcript) :
    Account session.id session.config transport hostname type transcript where
  length_le := h.length_reports_le
  first_iff := h.first_iff
  second_iff := h.second_iff
  third_iff := h.third_iff
  mismatch _ _ := h.mismatch
  silent hunsent := by
    rw [← List.head?_eq_none_iff, List.head?_eq_getElem?, Option.eq_none_iff_forall_ne_some]
    intro report hreport
    obtain ⟨query, hsent, -⟩ := (h.first_iff report).1 hreport
    exact hunsent query hsent

end Course

/-! ## Any number of calls -/

lemma flatMap_reports_refusal (session : Session) (requests : List (String × QueryType)) :
    (requests.map fun _ => (Transcript.refusal, session)).flatMap (·.1.reports) = [] := by
  rw [List.flatMap_map]
  exact List.flatMap_eq_nil_iff.2 fun _ _ => rfl

/-- **A session reports what happens, and nothing else.**  Over any number of calls, all that is
reported is what the first of them reports: that the query was sent, if it was; then that no
response came in time, or that one came; then the answer, or that the response was one to another
query. -/
theorem account_resolveAll_new (id : UInt16) (config : Config) (transport : Transport)
    (requests : List (String × QueryType)) :
    let runs := (new id config transport).resolveAll requests
    (requests = [] → runs.flatMap (·.1.reports) = []) ∧
      ∀ hostname type others, requests = (hostname, type) :: others →
        ∃ transcript after spent, runs = (transcript, after) :: spent ∧
          runs.flatMap (·.1.reports) = transcript.reports ∧
          (∀ run ∈ spent, run.1.result = .error .sessionSpent ∧ run.1.reports = []) ∧
          Account id config transport hostname type transcript := by
  intro runs
  refine ⟨?_, ?_⟩
  · rintro rfl
    rfl
  · rintro hostname type others rfl
    obtain ⟨transcript, after, hcourse, -, hruns⟩ :=
      resolveAll_cons_of_unused (new_transport id config transport) hostname type others
    refine ⟨transcript, after, _, hruns, ?_, ?_, hcourse.account⟩
    · show List.flatMap _ ((new id config transport).resolveAll _) = _
      rw [hruns, List.flatMap_cons, flatMap_reports_refusal, List.append_nil]
    · intro run hrun
      obtain ⟨_, -, rfl⟩ := List.mem_map.1 hrun
      exact ⟨rfl, rfl⟩

/-- The case of two calls, the first of which is given the response to query 8. -/
theorem account_resolveAll_new_stray :
    let config := Config.ofHost (.v4 ⟨192, 0, 2, 53⟩)
    let stray : Transport := .datagrams (.ok ()) (.packet [0, 8, 128, 0, 0, 0, 0, 0, 0, 0, 0, 0])
    let runs := (new 7 config stray).resolveAll [("", .a), ("b", .mx)]
    runs.flatMap (·.1.reports) =
        [⟨.debug, "sent query", .querySent 7 config.server "" .a 17⟩,
          ⟨.debug, "received response", .responseReceived 7 12⟩,
          ⟨.warn, "dropping response to another query",
            .responseDropped 7 8 config.server⟩] ∧
      ∃ transcript after spent, runs = (transcript, after) :: spent ∧
        runs.flatMap (·.1.reports) = transcript.reports ∧
        (∀ run ∈ spent, run.1.result = .error .sessionSpent ∧ run.1.reports = []) ∧
        Account 7 config stray "" .a transcript := by
  intro config stray runs
  obtain ⟨-, hfirst⟩ := account_resolveAll_new 7 config stray [("", .a), ("b", .mx)]
  exact ⟨by decide +kernel, hfirst "" .a [("b", .mx)] rfl⟩

end Session

end StubResolver
