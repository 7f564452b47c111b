/-
# From the settings of a resolver to its requests

The settings of a resolver are put together one by one, and of each kind the last one counts
(`Config.Overridden`).  The size of the buffer is raised to the least size as soon as it is set, so
no order of settings leads below that.

A session is made with the settings and uses nothing else.  All that it asks of its transport is
governed by them (`Config.Governs`), over any number of calls: the query goes to the server that is
set and says whether recursion is desired, and the response is waited for as long as is set and with
a buffer of the size that is set (`Config.overridden_and_governs`).
-/
import StubResolver.Proofs.LastSetting
import StubResolver.Proofs.Resolution.LifeCycle
import StubResolver.Proofs.Resolution.Reflected

namespace StubResolver

namespace Config

/-! ## The last settings -/

namespace Setting

/-- The port that is set, if one is. -/
def port? : Setting → Option UInt16
  | .port value => some value
  | _ => none

/-- The time to wait that is set, if one is. -/
def timeout? : Setting → Option Duration
  | .timeout value => some value
  | _ => none

/-- The size of the buffer that is asked for, if one is. -/
def bufferSize? : Setting → Option Nat
  | .bufferSize value => some value
  | _ => none

/-- Whether recursion is desired, if that is set. -/
def recursionDesired? : Setting → Option Bool
  | .recursionDesired on => some on
  | _ => none

end Setting

/-- A configuration has the host of the initial one, and of all else the last that was set, or what
was there initially. -/
structure Overridden (initial : Config) (settings : List Setting) (config : Config) : Prop where
  host_eq : config.server.host = initial.server.host
  port_eq : config.server.port = (settings.filterMap Setting.port?).getLastD initial.server.port
  timeout_eq : config.timeout = (settings.filterMap Setting.timeout?).getLastD initial.timeout
  /-- The buffer is larger than what was asked for, if that is too small. -/
  bufferSize_eq : config.bufferSize =
    ((settings.filterMap Setting.bufferSize?).map (max · 512)).getLastD initial.bufferSize
  recursionDesired_eq : config.recursionDesired =
    (settings.filterMap Setting.recursionDesired?).getLastD initial.recursionDesired

lemma overridden_foldl_set (initial : Config) (settings : List Setting) :
    Overridden initial settings (settings.foldl set initial) where
  host_eq := by
    refine view_foldl_eq (·.server.host) ?_ initial settings
    intro config setting
    cases setting <;> rfl
  port_eq := by
    have h : Overwrites set (·.server.port) Setting.port? := by
      intro config setting
      cases setting <;> rfl
    exact h.foldl initial settings
  timeout_eq := by
    have h : Overwrites set timeout Setting.timeout? := by
      intro config setting
      cases setting <;> rfl
    exact h.foldl initial settings
  bufferSize_eq := by
    have h : Overwrites set bufferSize fun setting => setting.bufferSize?.map (max · 512) := by
      intro config setting
      cases setting <;> rfl
    rw [h.foldl initial settings, List.map_filterMap]
  recursionDesired_eq := by
    have h : Overwrites set recursionDesired Setting.recursionDesired? := by
      intro config setting
      cases setting <;> rfl
    exact h.foldl initial settings

/-! ## Requests -/

/-- A request of the transport uses what is configured.  In a query the lowest bit of the third byte
tells whether recursion is desired. -/
inductive Governs (config : Config) : TransportCall → Prop
  | send {bytes : Bytes} {header : Header} : Header.ofMessage bytes = .ok header →
      header.flags.recursionDesired = config.recursionDesired →
      bytes[2]? = some (if config.recursionDesired then 1 else 0) →
      Governs config (.send bytes config.server)
  | receive : 512 ≤ config.bufferSize → Governs config (.receive config.bufferSize config.timeout)

end Config

/-- No bit of the third byte of a query is set but the one for recursion. -/
lemma Query.third_byte {query : Query} {bytes : Bytes} (h : query.message = .ok bytes) :
    bytes[2]? = some (if query.recursionDesired then 1 else 0) := by
  obtain ⟨-, hflags, -⟩ := Header.holds_wire.1 (holds_of_message h).1
  have hbyte : (Bytes.toBigEndian 2 query.header.flags.word.toNat)[0]? =
      some (if query.recursionDesired then 1 else 0) := by
    rw [query.word_flags]
    cases query.recursionDesired <;> rfl
  exact hflags.getElem?_eq_some hbyte

namespace Session

variable {id : UInt16} {config : Config} {transport : Transport} {hostname : String}
  {type : QueryType} {requests others : List (String × QueryType)} {calls : List TransportCall}

lemma governs_send {query : Bytes}
    (hquery : (⟨hostname, type.recordType, id, config.recursionDesired⟩ : Query).message =
      .ok query) : config.Governs (.send query config.server) :=
  .send (Header.ofMessage_of_holds (Query.holds_of_message hquery).1) rfl (Query.third_byte hquery)

lemma Traffic.governs (h : Traffic id config transport requests calls) :
    ∀ call ∈ calls, config.Governs call := by
  cases h with
  | unused | unwritable => simp
  | unsent hquery => simpa using governs_send hquery
  | sent hquery => simpa using ⟨governs_send hquery, .receive config.min_le_bufferSize⟩

/-- The query for the first name is sent if it can be written, and once it is sent a response is
waited for. -/
lemma Traffic.exists_send (h : Traffic id config transport ((hostname, type) :: others) calls)
    {name : Bytes} (hname : encode (⟨hostname⟩ : Name) = .ok name) :
    ∃ bytes, .send bytes config.server ∈ calls ∧ (transport.send bytes config.server = .ok () →
      .receive config.bufferSize config.timeout ∈ calls) := by
  cases h with
  | unwritable hquery =>
    have herror := Query.message_eq_error_iff.1 hquery
    cases hname.symm.trans herror
  | unsent hquery hsend =>
    refine ⟨_, List.mem_cons_self, fun hsent => ?_⟩
    cases hsend.symm.trans hsent
  | sent => exact ⟨_, List.mem_cons_self, fun _ => by simp⟩

end Session

/-- **What is configured last is what the transport is asked for.**  Settings keep the host, and of
the port, the time to wait, the buffer and the desire for recursion the last one counts, where a
buffer has at least 512 bytes.  Each request that a session with this configuration makes of its
transport, over any number of calls, uses just these values.  The query for the first name is
made whenever its name can be written. -/
theorem Config.overridden_and_governs (initial : Config) (settings : List Setting) :
    let config := settings.foldl set initial
    Overridden initial settings config ∧ ∀ id transport requests,
      let calls := ((Session.new id config transport).resolveAll requests).flatMap (·.1.calls)
      (∀ call ∈ calls, config.Governs call) ∧
      ∀ hostname type others name, requests = (hostname, type) :: others →
        encode (⟨hostname⟩ : Name) = .ok name →
        ∃ bytes, .send bytes config.server ∈ calls ∧ (transport.send bytes config.server = .ok () →
          .receive config.bufferSize config.timeout ∈ calls) := by
  intro config
  refine ⟨overridden_foldl_set initial settings, ?_⟩
  intro id transport requests calls
  have htraffic : Session.Traffic id config transport requests calls :=
    Session.traffic_resolveAll_new id config transport requests
  refine ⟨htraffic.governs, ?_⟩
  rintro hostname type others name rfl hname
  exact htraffic.exists_send hname

/-- The case of a buffer that is asked to be too small, a port that is set twice, and two calls. -/
theorem Config.overridden_and_governs_twice :
    let settings : List Setting :=
      [.bufferSize 100, .port 5353, .recursionDesired true, .timeout (.ofParts 2 0), .port 54]
    let config := settings.foldl set (ofHost (.v4 ⟨192, 0, 2, 53⟩))
    let calls := ((Session.new 7 config (.datagrams (.ok ()) .timedOut)).resolveAll
      [("", .a), ("b", .mx)]).flatMap (·.1.calls)
    config.server = ⟨.v4 ⟨192, 0, 2, 53⟩, 54⟩ ∧ config.timeout = .ofParts 2 0 ∧
      config.bufferSize = 512 ∧ config.recursionDesired = true ∧
      ∃ bytes, .send bytes ⟨.v4 ⟨192, 0, 2, 53⟩, 54⟩ ∈ calls ∧ bytes[2]? = some 1 ∧
        .receive 512 (.ofParts 2 0) ∈ calls := by
  intro settings config calls
  obtain ⟨hover, htraffic⟩ := overridden_and_governs (ofHost (.v4 ⟨192, 0, 2, 53⟩)) settings
  obtain ⟨hgoverns, hfirst⟩ :=
    htraffic 7 (.datagrams (.ok ()) .timedOut) [("", .a), ("b", .mx)]
  obtain ⟨bytes, hsend, hreceive⟩ := hfirst "" .a [("b", .mx)] [0] rfl (by decide)
  refine ⟨rfl, hover.timeout_eq, hover.bufferSize_eq, hover.recursionDesired_eq, bytes, hsend, ?_,
    hreceive rfl⟩
  cases hgoverns _ hsend with
  | send _ _ hbyte => exact hbyte

end StubResolver
