import HardwareTest.Agent.Transfer
import HardwareTest.Python.Shortest
import HardwareTest.Transport.Pairing

/-!
# The serial port behind the client

The client and the agent put together: each line that the client sends is a line of the agent's loop,
and what the agent writes for it comes back over the link, in any chunks.

* `agentRemote` — the agent as the other side of the link;
* `returned_handled` — a request that returns was handled by the agent, with the response that is
  returned;
* `Opened` — an owned port and what has been written to it and read from it;
* `transparent` — over every sequence of calls that return, the port is written the payloads and the
  client receives the bytes that were read, in order.
-/

namespace HardwareTest.Transport.SerialAgentChannel

open HardwareTest.Lib HardwareTest.Lib.Json HardwareTest.Python

/-- How deeply the readers of both sides nest: every message has at most two levels. -/
structure Nesting where
  depth : ℕ
  two_le : 2 ≤ depth

/-- The agent as the other side. -/
def agentRemote (env : Agent.Env) (n : Nesting) : Remote := fun earlier line =>
  ((Agent.serving env n.depth earlier).pass env n.depth line).2

/-! ## Messages on both sides -/

theorem requestLine_eq (operation : Str) (values : List (Str × JsonValue)) :
    requestLine operation values = encodeAscii (dumps (.dict (Agent.envelope operation ++ values)) ++ [10]) :=
  rfl

/-- A request that survives being written and read. -/
structure Sendable (operation : Str) (values : List (Str × JsonValue)) : Prop where
  regular : (Json.Value.dict (Agent.envelope operation ++ values)).Regular
  depth : (Json.Value.dict (Agent.envelope operation ++ values)).depth ≤ 2

/-- The agent reads what the client has written. -/
theorem decodeRequest_requestLine (n : Nesting) {operation : Str} {values : List (Str × JsonValue)}
    (h : Sendable operation values) :
    Agent.decodeRequest n.depth (requestLine operation values) = .ok (Agent.envelope operation ++ values) := by
  rw [requestLine_eq, Agent.decodeRequest, loadsBytes_dumps h.regular (h.depth.trans n.two_le) (.inr rfl)]

/-- The client reads what the agent has written. -/
theorem decodeResponse_dumps (n : Nesting) {response : Response}
    (hregular : (Json.Value.dict response).Regular) (hdepth : (Json.Value.dict response).depth ≤ 2) :
    decodeResponse n.depth (encodeAscii (dumps (.dict response))) = .ok response := by
  have hloads := loadsBytes_dumps hregular (hdepth.trans n.two_le) (.inl rfl)
  rw [List.append_nil] at hloads
  rw [decodeResponse, hloads]

theorem base64_joined (s : Bytes) : Joined (Base64.encode s) :=
  joined_of_lt fun _ hc => (Base64.encode_ascii hc).2.trans (by decide)

theorem int_regular {k : ℤ} (h : k.natAbs ≤ 1000000) : (Json.Value.int (F := PyFloat) k).Regular := by
  have hpow : (10 : ℕ) ^ 7 ≤ 10 ^ Json.maxStrDigits := Nat.pow_le_pow_right (by decide) (by decide)
  show k.natAbs < 10 ^ Json.maxStrDigits
  omega

theorem sendable_write (s : Bytes) : Sendable (codes "write") [(codes "data", .str (Base64.encode s))] where
  regular := ⟨⟨joined_codes (by decide), int_regular (by decide), joined_codes (by decide),
      joined_codes (by decide), joined_codes (by decide), base64_joined s, trivial⟩,
    (by decide : [codes "version", codes "operation", codes "data"].Nodup)⟩
  depth := by simp [Agent.envelope, Json.Value.depth, Json.depthMembers]

/-- The timeout of a read is read back. -/
theorem readTimeout_readsBack : ReadsBack readTimeout := PyFloat.readsBack_of_isDouble (PyFloat.isDouble_ofText _)

theorem sendable_read : Sendable (codes "read")
    [(codes "size", .int readSize), (codes "timeout", .float readTimeout)] where
  regular := ⟨⟨joined_codes (by decide), int_regular (by decide), joined_codes (by decide),
      joined_codes (by decide), joined_codes (by decide), int_regular (by decide),
      joined_codes (by decide), readTimeout_readsBack, trivial⟩,
    (by decide : [codes "version", codes "operation", codes "size", codes "timeout"].Nodup)⟩
  depth := by simp [Agent.envelope, Json.Value.depth, Json.depthMembers]

theorem success_regular {values : List (Str × JsonValue)} (hvalues : RegularMembers values)
    (hnodup : ((Agent.success values).map Prod.fst).Nodup) :
    (Json.Value.dict (Agent.success values)).Regular :=
  ⟨⟨joined_codes (by decide), int_regular (by decide),
    joined_codes (by decide), trivial, hvalues⟩, hnodup⟩

/-- The text of a failure is the text of one whose strings are joined. -/
theorem failure_text (code message : Str) : ∃ code' message',
    dumps (F := PyFloat) (.dict (Agent.failure code message))
      = dumps (F := PyFloat) (.dict (Agent.failure code' message')) ∧
      (Json.Value.dict (Agent.failure code' message')).Regular := by
  obtain ⟨code', hcode, hcodeText⟩ := exists_joined code
  obtain ⟨message', hmessage, hmessageText⟩ := exists_joined message
  refine ⟨code', message', ?_, ?_⟩
  · simp only [dumps, Agent.failure, dumpsMembers, dumpsString, hcodeText, hmessageText]
  · exact ⟨⟨joined_codes (by decide), int_regular (by decide),
      joined_codes (by decide), trivial, joined_codes (by decide),
      ⟨⟨joined_codes (by decide), hcode, joined_codes (by decide), hmessage, trivial⟩,
        (by decide : [codes "code", codes "message"].Nodup)⟩,
      trivial⟩, (by decide : [codes "version", codes "ok", codes "error"].Nodup)⟩

/-- **A failure is not accepted.** -/
theorem failure_refused (n : Nesting) (operation code message : Str) :
    ∃ e, (decodeResponse n.depth (encodeAscii (dumps (.dict (Agent.failure code message)))) >>=
      accept operation) = .error e := by
  obtain ⟨code', message', htext, hregular⟩ := failure_text code message
  rw [htext, decodeResponse_dumps n hregular (by simp [Agent.failure, Json.Value.depth, Json.depthMembers])]
  exact ⟨_, rfl⟩

/-! ## A request that returns -/

section Returned

variable {weather : Weather} {env : Agent.Env} {n : Nesting}

/-- The agent behind a link: what its loop has become after the lines that were sent. -/
def Link.agent (env : Agent.Env) (n : Nesting) (w : Link) : Agent.Serving :=
  Agent.serving env n.depth w.sent

/-- The request line of a call. -/
theorem requestLine_isLine (operation : Str) (values : List (Str × JsonValue)) :
    Agent.IsLine (requestLine operation values) := by
  obtain ⟨body, hbody, hclean⟩ := Agent.encodeResponse_line (Agent.envelope operation ++ values)
  exact ⟨body, hbody, hclean⟩

/-- What a request leaves when it returns. -/
structure Returned (env : Agent.Env) (n : Nesting) (operation : Str) (values : List (Str × JsonValue))
    (response : Response) (w w' : Link) : Prop where
  settled : Settled w'
  serial : w'.buffers.serial = w.buffers.serial
  sent : w'.sent = w.sent ++ [requestLine operation values]
  handled : ∃ answered stop,
    (Agent.handled env (Agent.envelope operation ++ values) (w.agent env n).bench).1
      = .ok (answered, stop) ∧
    w'.agent env n = ⟨(Agent.handled env (Agent.envelope operation ++ values)
      (w.agent env n).bench).2.emitted answered, !stop⟩ ∧
    decodeResponse n.depth (encodeAscii (dumps (.dict answered))) >>= accept operation = .ok response

/-- The line of a request that is answered by a response other than a failure was handled. -/
theorem respondLine_handled {operation : Str} {values : List (Str × JsonValue)} {b b' : Agent.Bench}
    {answered : Response} {stop : Bool} (hsendable : Sendable operation values)
    (h : (Agent.respondLine n.depth (requestLine operation values)).eval (Agent.answer env) b
      = (.ok (answered, stop), b'))
    (hnot : ∀ code message, answered ≠ Agent.failure code message) :
    Agent.handled env (Agent.envelope operation ++ values) b = (.ok (answered, stop), b') := by
  unfold Agent.respondLine at h
  split_ifs at h with hlong
  · cases h
    exact absurd rfl (hnot _ _)
  · rw [Agent.respond_decoded (decodeRequest_requestLine n hsendable)] at h
    rcases hhandled : Agent.handled env (Agent.envelope operation ++ values) b with ⟨r, t⟩
    rw [hhandled] at h
    cases r with
    | ok a => exact h
    | error e =>
      cases e with
      | agentError code message =>
        cases h
        exact absurd rfl (hnot code message)
      | _ => cases h

/-- **A request that returns was handled by the agent**, with the response that is returned. -/
theorem returned_handled {operation : Str} {values : List (Str × JsonValue)} {response : Response}
    {w w' : Link} (hsettled : Settled w) (hsendable : Sendable operation values)
    (h : (request n.depth operation values).eval (answer weather (agentRemote env n)) w
      = (.ok response, w')) :
    Returned env n operation values response w w' := by
  have hcases := request_cases weather (agentRemote env n) n.depth operation values w
  rw [h] at hcases
  cases hcases with
  | @answered line _ _ hserial hexchanges hline houtstanding hr =>
    have hsent : w'.sent = w.sent ++ [requestLine operation values] := by
      rw [Link.sent, hexchanges]
      simp [Link.deliver, Link.sent]
    rw [outstanding_deliver, hsettled, List.nil_append] at houtstanding
    have hagent : w'.agent env n
        = ((w.agent env n).pass env n.depth (requestLine operation values)).1 := by
      rw [Link.agent, hsent, Agent.serving_append]
      rfl
    have hpass : agentRemote env n w.sent (requestLine operation values)
        = ((w.agent env n).pass env n.depth (requestLine operation values)).2 := rfl
    rw [hpass] at houtstanding
    unfold Agent.Serving.pass at houtstanding hagent
    cases halive : (w.agent env n).alive with
    | false =>
      simp only [halive, Bool.false_eq_true, if_false] at houtstanding
      exact absurd houtstanding.symm (by simp)
    | true =>
      simp only [halive, if_true] at houtstanding hagent
      rcases hrespond : (Agent.respondLine n.depth (requestLine operation values)).eval
        (Agent.answer env) (w.agent env n).bench with ⟨r, b'⟩
      cases r with
      | error e =>
        simp only [hrespond] at houtstanding
        exact absurd houtstanding.symm (by simp)
      | ok a =>
        obtain ⟨answered, stop⟩ := a
        simp only [hrespond] at houtstanding hagent
        rw [Agent.encodeResponse, encodeAscii_append] at houtstanding
        have hclean : (10 : UInt8) ∉ encodeAscii (dumps (.dict answered)) := by
          obtain ⟨body, hbody, hclean⟩ := Agent.encodeResponse_line answered
          rw [Agent.encodeResponse, encodeAscii_append] at hbody
          rwa [(List.append_inj' hbody rfl).1]
        obtain ⟨rfl, hrest⟩ := line_unique hline hclean houtstanding
        have hnot : ∀ code message, answered ≠ Agent.failure code message := by
          rintro code message rfl
          obtain ⟨e, he⟩ := failure_refused n operation code message
          rw [he] at hr
          cases hr
        have hhandled := respondLine_handled hsendable hrespond hnot
        exact ⟨hrest, hserial, hsent, answered, stop, by rw [hhandled], by rw [hhandled]; exact hagent,
          hr.symm⟩

/-- A request that returns was not answered by a failure. -/
theorem Returned.not_fails {operation : Str} {values : List (Str × JsonValue)} {response : Response}
    {w w' : Link} (h : Returned env n operation values response w w') :
    ¬Agent.Fails (Agent.handled env (Agent.envelope operation ++ values) (w.agent env n).bench).1 := by
  rintro ⟨code, message, hfails⟩
  obtain ⟨answered, stop, hhandled, -, hr⟩ := h.handled
  rw [hhandled] at hfails
  cases hfails
  obtain ⟨e, he⟩ := failure_refused n operation code message
  rw [he] at hr
  cases hr

/-- What is returned is the response of the agent, when it can be read back. -/
theorem returned_eq {operation : Str} {answered response : Response}
    (hregular : (Json.Value.dict answered).Regular) (hdepth : (Json.Value.dict answered).depth ≤ 2)
    (h : decodeResponse n.depth (encodeAscii (dumps (.dict answered))) >>= accept operation
      = .ok response) : response = answered := by
  rw [decodeResponse_dumps n hregular hdepth] at h
  exact (accept_ok h).1

end Returned

/-! ## The owned port -/

/-- The agent owns a port, with these bytes written to it and read from it, and nothing is
outstanding. -/
structure Opened (env : Agent.Env) (n : Nesting) (port : ℕ) (written received : Bytes) (w : Link) :
    Prop where
  settled : Settled w
  lines : ∀ line ∈ w.sent, Agent.IsLine line
  alive : (w.agent env n).alive = true
  connection : (w.agent env n).bench.connection = some port
  bytes : ∃ p, (w.agent env n).bench.ports[port]? = some p ∧ p.written = written ∧ p.received = received

section Steps

variable {weather : Weather} {env : Agent.Env} {n : Nesting} {port : ℕ} {written received : Bytes}
  {w w' : Link}

/-- Only the lines that were sent and the outstanding bytes count. -/
theorem Opened.congr (h : Opened env n port written received w) (hsent : w'.sent = w.sent)
    (houtstanding : w'.outstanding = w.outstanding) : Opened env n port written received w' := by
  have hagent : w'.agent env n = w.agent env n := congrArg (Agent.serving env n.depth) hsent
  constructor
  · exact houtstanding.trans h.settled
  · rw [hsent]
    exact h.lines
  · rw [hagent]
    exact h.alive
  · rw [hagent]
    exact h.connection
  · rw [hagent]
    exact h.bytes

theorem lines_append {operation : Str} {values : List (Str × JsonValue)}
    (hlines : ∀ line ∈ w.sent, Agent.IsLine line) (hsent : w'.sent = w.sent ++ [requestLine operation values]) :
    ∀ line ∈ w'.sent, Agent.IsLine line := by
  intro line hline
  rw [hsent, List.mem_append, List.mem_singleton] at hline
  rcases hline with hline | rfl
  · exact hlines line hline
  · exact requestLine_isLine _ _

theorem checkWritten_written (s : Bytes) (count : ℕ) :
    checkWritten s (Agent.SerialAgent.written count)
      = if (count : ℤ) = s.length then .ok () else .error (.partialWrite s.length (some (.int count))) :=
  rfl

/-- **A `sendall` that returns** has written its payload. -/
theorem sendall_opened {s : Bytes} (h : Opened env n port written received w)
    (hreturned : (sendall n.depth s).eval (answer weather (agentRemote env n)) w = (.ok (), w')) :
    Opened env n port (written ++ s) received w' ∧ w'.buffers.serial = w.buffers.serial := by
  rw [sendall, Program.eval_bind] at hreturned
  rcases hrequest : (request n.depth (codes "write") [(codes "data", .str (Base64.encode s))]).eval
    (answer weather (agentRemote env n)) w with ⟨r, w₁⟩
  rw [hrequest] at hreturned
  cases r with
  | error e => cases hreturned
  | ok response =>
    simp only [Program.eval_ofExcept, Prod.mk.injEq] at hreturned
    obtain ⟨hcheck, rfl⟩ := hreturned
    have hret := returned_handled h.settled (sendable_write s) hrequest
    obtain ⟨answered, stop, hhandled, hagent, hr⟩ := hret.handled
    obtain ⟨count, hok, hcount, hbench, htaken⟩ :=
      (Agent.handled_write h.connection s).resolve_left hret.not_fails
    have hsame : (Except.ok (answered, stop) : Except Agent.Raised _)
        = .ok (Agent.SerialAgent.written count, false) := hhandled.symm.trans hok
    cases hsame
    have hresponse : response = Agent.SerialAgent.written count := by
      refine returned_eq ?_ ?_ hr
      · refine success_regular ⟨joined_codes (by decide), int_regular ?_, trivial⟩
          (by decide : [codes "version", codes "ok", codes "written"].Nodup)
        have hmax : Agent.maxPayloadBytes = 262144 := rfl
        omega
      · simp [Agent.SerialAgent.written, Agent.success, Json.Value.depth, Json.depthMembers]
    -- the check of the count passes, so the port has taken everything
    have hlength : count = s.length := by
      rw [hresponse, checkWritten_written] at hcheck
      split_ifs at hcheck with hequal
      exact_mod_cast hequal
    have hrequestEq : Agent.envelope (codes "write") ++ [(codes "data", .str (Base64.encode s))]
        = Agent.writeRequest s := rfl
    obtain ⟨p, hp, hwritten, hreceived⟩ := h.bytes
    refine ⟨⟨hret.settled, lines_append h.lines hret.sent, by rw [hagent]; rfl, ?_, ?_⟩, hret.serial⟩
    · rw [hagent, hrequestEq, hbench]
      exact h.connection
    · refine ⟨{ p with written := p.written ++ s }, ?_, by rw [hwritten], hreceived⟩
      rw [hagent, hrequestEq, hbench]
      show (List.modify _ port _)[port]? = _
      rw [List.getElem?_modify_eq, Agent.Bench.record_ports, hp, htaken hlength]
      rfl

/-- The bytes that a poll takes from the response of the agent. -/
theorem readData_encoded (bytes : Bytes) :
    readData (Agent.success [(codes "data", .str (Agent.encodePayload bytes))]) = .ok bytes := by
  have hget : get (Agent.success [(codes "data", .str (Agent.encodePayload bytes))]) (codes "data")
      = some (.str (Base64.encode bytes)) := rfl
  rw [readData, hget]
  simp only [Base64.decode_encode]

/-- **A poll that returns** has put the bytes that were read from the port behind the serial buffer. -/
theorem poll_opened {ready : Bool} (h : Opened env n port written received w)
    (hreturned : (poll n.depth).eval (answer weather (agentRemote env n)) w = (.ok ready, w')) :
    ∃ bytes, Opened env n port written (received ++ bytes) w' ∧
      w'.buffers.serial = w.buffers.serial ++ bytes := by
  rw [poll, Program.eval_bind] at hreturned
  rcases hrequest : (request n.depth (codes "read")
      [(codes "size", .int readSize), (codes "timeout", .float readTimeout)]).eval
    (answer weather (agentRemote env n)) w with ⟨r, w₁⟩
  rw [hrequest] at hreturned
  cases r with
  | error e => cases hreturned
  | ok response =>
    have hret := returned_handled h.settled sendable_read hrequest
    obtain ⟨answered, stop, hhandled, hagent, hr⟩ := hret.handled
    obtain ⟨bytes, hok, hbench⟩ :=
      (Agent.handled_read h.connection readSize readTimeout).resolve_left hret.not_fails
    have hsame : (Except.ok (answered, stop) : Except Agent.Raised _)
        = .ok (Agent.success [(codes "data", .str (Agent.encodePayload bytes))], false) :=
      hhandled.symm.trans hok
    cases hsame
    have hresponse : response = Agent.success [(codes "data", .str (Agent.encodePayload bytes))] := by
      refine returned_eq ?_ ?_ hr
      · exact success_regular ⟨joined_codes (by decide), base64_joined bytes, trivial⟩
          (by decide : [codes "version", codes "ok", codes "data"].Nodup)
      · simp [Agent.success, Json.Value.depth, Json.depthMembers]
    simp only [Program.eval_bind, Program.eval_ofExcept, hresponse, readData_encoded] at hreturned
    cases hreturned
    have hrequestEq : Agent.envelope (codes "read")
        ++ [(codes "size", .int readSize), (codes "timeout", .float readTimeout)]
        = Agent.readRequest readSize readTimeout := rfl
    obtain ⟨p, hp, hwritten, hreceived⟩ := h.bytes
    refine ⟨bytes, Opened.congr (w := w₁) ?_ rfl rfl, by rw [← hret.serial]; rfl⟩
    refine ⟨hret.settled, lines_append h.lines hret.sent, by rw [hagent]; rfl, ?_, ?_⟩
    · rw [hagent, hrequestEq, hbench]
      exact h.connection
    · refine ⟨{ p with timeout := readTimeout, received := p.received ++ bytes }, ?_, hwritten,
        by rw [hreceived]⟩
      rw [hagent, hrequestEq, hbench]
      show (List.modify (List.modify _ port _) port _)[port]? = _
      rw [List.getElem?_modify_eq, List.getElem?_modify_eq, Agent.Bench.record_ports, hp]
      rfl

/-- **A `recv_ready` that returns** leaves the serial buffer, or puts what was read behind it. -/
theorem recvReady_opened {ready : Bool} (h : Opened env n port written received w)
    (hreturned : (recvReady n.depth).eval (answer weather (agentRemote env n)) w = (.ok ready, w')) :
    ∃ bytes, Opened env n port written (received ++ bytes) w' ∧
      w'.buffers.serial = w.buffers.serial ++ bytes := by
  rw [recvReady, Program.eval_call] at hreturned
  simp only [answer] at hreturned
  cases hserial : w.buffers.serial with
  | cons c s =>
    simp only [hserial] at hreturned
    cases hreturned
    exact ⟨[], by rwa [List.append_nil], by rw [hserial, List.append_nil]⟩
  | nil =>
    obtain ⟨b, w₁, hclosed, hkept, hout⟩ := closed_cases weather (agentRemote env n) w
    simp only [hserial, Program.eval_bind, hclosed] at hreturned
    have hw₁ : Opened env n port written received w₁ :=
      h.congr (congrArg (List.map Prod.fst) hkept.exchanges) hout
    cases b with
    | true =>
      cases hreturned
      exact ⟨[], by rwa [List.append_nil], by rw [hkept.serial, hserial]; rfl⟩
    | false =>
      obtain ⟨bytes, hopened, hbytes⟩ := poll_opened hw₁ hreturned
      exact ⟨bytes, hopened, by rw [hbytes, hkept.serial, hserial]⟩

/-- **A `recv`** takes its result from the front of the serial buffer. -/
theorem recv_opened {nbytes : ℤ} {result : Bytes} (h : Opened env n port written received w)
    (hreturned : (recv nbytes).eval (answer weather (agentRemote env n)) w = (.ok result, w')) :
    Opened env n port written received w' ∧ result ++ w'.buffers.serial = w.buffers.serial := by
  cases hreturned
  refine ⟨h.congr rfl rfl, ?_⟩
  show sliceTo _ _ ++ sliceFrom _ _ = _
  unfold sliceTo sliceFrom
  split_ifs
  · exact List.take_append_drop _ _
  · exact List.take_append_drop _ _

end Steps

/-! ## Opening -/

/-- A device and a rate that a document can carry. -/
structure Target where
  device : Str
  baudrate : ℤ
  joined : Joined device
  short : baudrate.natAbs < 10 ^ Json.maxStrDigits

theorem sendable_open (t : Target) :
    Sendable (codes "open") [(codes "device", .str t.device), (codes "baudrate", .int t.baudrate)] where
  regular := ⟨⟨joined_codes (by decide), int_regular (by decide), joined_codes (by decide),
      joined_codes (by decide), joined_codes (by decide), t.joined, joined_codes (by decide), t.short,
      trivial⟩,
    (by decide : [codes "version", codes "operation", codes "device", codes "baudrate"].Nodup)⟩
  depth := by simp [Agent.envelope, Json.Value.depth, Json.depthMembers]

/-- A channel before its device is opened: nothing is outstanding and no serial byte is buffered. -/
structure Fresh (w : Link) : Prop where
  settled : Settled w
  lines : ∀ line ∈ w.sent, Agent.IsLine line
  empty : w.buffers.serial = []

theorem fresh_initial : Fresh .initial where
  settled := rfl
  lines := by simp [Link.initial, Link.sent]
  empty := rfl

section Session

variable {weather : Weather} {env : Agent.Env} {n : Nesting} {w w' : Link}

/-- **An `open` that returns** leaves an owned port without bytes. -/
theorem opened_of_open {t : Target} (h : Fresh w)
    (hreturned : («open» n.depth t.device t.baudrate).eval (answer weather (agentRemote env n)) w
      = (.ok (), w')) : (∃ port, Opened env n port [] [] w') ∧ w'.buffers.serial = [] := by
  rw [SerialAgentChannel.open, Program.eval_bind] at hreturned
  rcases hrequest : (request n.depth (codes "open")
      [(codes "device", .str t.device), (codes "baudrate", .int t.baudrate)]).eval
    (answer weather (agentRemote env n)) w with ⟨r, w₁⟩
  rw [hrequest] at hreturned
  cases r with
  | error e => cases hreturned
  | ok response =>
    cases hreturned
    have hret := returned_handled h.settled (sendable_open t) hrequest
    obtain ⟨answered, stop, hhandled, hagent, -⟩ := hret.handled
    have hopen : (Agent.handled env (Agent.openRequest t.device t.baudrate) (w.agent env n).bench).1
        = .ok (Agent.success [], false) ∧ Agent.Created (w.agent env n).bench
          (Agent.handled env (Agent.openRequest t.device t.baudrate) (w.agent env n).bench).2 :=
      Agent.handled_open.resolve_left hret.not_fails
    obtain ⟨hok, hconnection, p, hports⟩ := hopen
    have hsame : (Except.ok (answered, stop) : Except Agent.Raised _) = .ok (Agent.success [], false) :=
      hhandled.symm.trans hok
    cases hsame
    have hrequestEq : Agent.envelope (codes "open")
        ++ [(codes "device", .str t.device), (codes "baudrate", .int t.baudrate)]
        = Agent.openRequest t.device t.baudrate := rfl
    rw [hrequestEq] at hagent
    refine ⟨⟨(w.agent env n).bench.ports.length, hret.settled, lines_append h.lines hret.sent,
      by rw [hagent]; rfl, ?_, ⟨p, p.timeout, [], []⟩, ?_, rfl, rfl⟩, hret.serial.trans h.empty⟩
    · rw [hagent]
      exact hconnection
    · rw [hagent]
      show (Agent.handled env (Agent.openRequest t.device t.baudrate) _).2.ports[_]? = _
      rw [hports, List.getElem?_concat_length]

end Session

/-! ## Transparency -/

/-- A call on an open channel. -/
inductive ChannelCall
  | sendall (s : Bytes)
  | recvReady
  | recv (nbytes : ℤ)

/-- The call, with the bytes that it returns. -/
def ChannelCall.perform (n : Nesting) : ChannelCall → Client Bytes
  | .sendall s => do
    SerialAgentChannel.sendall n.depth s
    pure []
  | .recvReady => do
    let _ ← SerialAgentChannel.recvReady n.depth
    pure []
  | .recv nbytes => SerialAgentChannel.recv nbytes

/-- The bytes that a call writes. -/
def ChannelCall.payload : ChannelCall → Bytes
  | .sendall s => s
  | .recvReady => []
  | .recv _ => []

/-- Calls one after the other, if every one of them returns: the bytes that they return, and the link
they leave. -/
def transcript (weather : Weather) (remote : Remote) (n : Nesting) :
    List ChannelCall → Link → Option (Bytes × Link)
  | [], w => some ([], w)
  | c :: calls, w =>
    match (c.perform n).eval (answer weather remote) w with
    | (.ok bytes, w') => (transcript weather remote n calls w').map fun p => (bytes ++ p.1, p.2)
    | (.error _, _) => none

section Transparency

variable {weather : Weather} {env : Agent.Env} {n : Nesting} {port : ℕ} {written received : Bytes}
  {w w' : Link}

/-- **One call that returns** writes its payload, and what it returns and leaves in the serial buffer is
what was there and what it has read. -/
theorem perform_opened {c : ChannelCall} {result : Bytes} (h : Opened env n port written received w)
    (hreturned : (c.perform n).eval (answer weather (agentRemote env n)) w = (.ok result, w')) :
    ∃ bytes, Opened env n port (written ++ c.payload) (received ++ bytes) w' ∧
      result ++ w'.buffers.serial = w.buffers.serial ++ bytes := by
  cases c with
  | sendall s =>
    rw [ChannelCall.perform, Program.eval_bind] at hreturned
    rcases hsend : (sendall n.depth s).eval (answer weather (agentRemote env n)) w with ⟨r, w₁⟩
    rw [hsend] at hreturned
    cases r with
    | error e => cases hreturned
    | ok _ =>
      cases hreturned
      obtain ⟨hopened, hserial⟩ := sendall_opened h hsend
      exact ⟨[], by rwa [List.append_nil], by rw [hserial, List.append_nil]; rfl⟩
  | recvReady =>
    rw [ChannelCall.perform, Program.eval_bind] at hreturned
    rcases hready : (recvReady n.depth).eval (answer weather (agentRemote env n)) w with ⟨r, w₁⟩
    rw [hready] at hreturned
    cases r with
    | error e => cases hreturned
    | ok _ =>
      cases hreturned
      obtain ⟨bytes, hopened, hserial⟩ := recvReady_opened h hready
      exact ⟨bytes, by rwa [ChannelCall.payload, List.append_nil], hserial⟩
  | recv nbytes =>
    obtain ⟨hopened, hserial⟩ := recv_opened h hreturned
    exact ⟨[], by rwa [ChannelCall.payload, List.append_nil, List.append_nil],
      by rw [hserial, List.append_nil]⟩

/-- Calls that all return. -/
theorem transcript_opened {calls : List ChannelCall} {result : Bytes}
    (h : Opened env n port written received w)
    (hreturned : transcript weather (agentRemote env n) n calls w = some (result, w')) :
    ∃ bytes, Opened env n port (written ++ calls.flatMap ChannelCall.payload) (received ++ bytes) w' ∧
      result ++ w'.buffers.serial = w.buffers.serial ++ bytes := by
  induction calls generalizing w written received result with
  | nil =>
    cases hreturned
    exact ⟨[], by simpa using h, (List.append_nil _).symm⟩
  | cons c calls ih =>
    rw [transcript] at hreturned
    rcases hcall : (c.perform n).eval (answer weather (agentRemote env n)) w with ⟨r, w₁⟩
    rw [hcall] at hreturned
    cases r with
    | error e => cases hreturned
    | ok first =>
      obtain ⟨⟨rest, w₂⟩, hrest, heq⟩ := Option.map_eq_some_iff.mp hreturned
      cases heq
      obtain ⟨bytes, hopened, hserial⟩ := perform_opened h hcall
      obtain ⟨more, hopened', hserial'⟩ := ih hopened hrest
      refine ⟨bytes ++ more, ?_, ?_⟩
      · rw [List.flatMap_cons, ← List.append_assoc, ← List.append_assoc]
        exact hopened'
      · rw [List.append_assoc, hserial', ← List.append_assoc, hserial, List.append_assoc]

end Transparency

/-- The owned port of the agent behind a link. -/
def Link.port (env : Agent.Env) (n : Nesting) (w : Link) : Option Agent.Port :=
  (w.agent env n).bench.connection.bind fun port => (w.agent env n).bench.ports[port]?

theorem Opened.port_eq {env : Agent.Env} {n : Nesting} {port : ℕ} {written received : Bytes} {w : Link}
    (h : Opened env n port written received w) :
    ∃ p, w.port env n = some p ∧ p.written = written ∧ p.received = received := by
  obtain ⟨p, hp, hbytes⟩ := h.bytes
  refine ⟨p, ?_, hbytes⟩
  rw [Link.port, h.connection]
  exact hp

/-- **The remote channel is transparent.**  After an `open` that returns, for every sequence of calls
that return, the port has been written exactly the payloads; what the calls have returned, with the
rest in the serial buffer, is exactly what was read from the port; the port is that of the agent's loop
on the bytes that were sent; and a further `sendall` that does not write all of its payload raises. -/
theorem transparent (weather : Weather) (env : Agent.Env) (n : Nesting) (t : Target) {w₀ w : Link}
    (hfresh : Fresh w₀) {calls : List ChannelCall} {received : Bytes}
    (hopen : ((«open» n.depth t.device t.baudrate).eval (answer weather (agentRemote env n)) w₀).1.isOk)
    (hcalls : transcript weather (agentRemote env n) n calls
      ((«open» n.depth t.device t.baudrate).eval (answer weather (agentRemote env n)) w₀).2
        = some (received, w)) :
    ∃ p, w.port env n = some p ∧
      p.written = calls.flatMap ChannelCall.payload ∧
      received ++ w.buffers.serial = p.received ∧
      (w.agent env n).bench = ((Agent.serve n.depth (w.sent.flatten.length + 1) w.sent.flatten).eval
        (Agent.answer env) .initial).2 ∧
      ∀ s, let (r, w') := (sendall n.depth s).eval (answer weather (agentRemote env n)) w
        (∃ q, w'.port env n = some q ∧ q.written ≠ p.written ++ s) → ∃ e, r = .error e := by
  rcases hreturned : («open» n.depth t.device t.baudrate).eval (answer weather (agentRemote env n)) w₀
    with ⟨r, w₁⟩
  rw [hreturned] at hopen hcalls
  cases r with
  | error e => cases hopen
  | ok _ =>
    obtain ⟨⟨port, hopened⟩, hempty⟩ := opened_of_open hfresh hreturned
    obtain ⟨bytes, hafter, hserial⟩ := transcript_opened hopened hcalls
    obtain ⟨p, hp, hwritten, hreceived⟩ := hafter.port_eq
    refine ⟨p, hp, by simpa using hwritten, by rw [hserial, hempty, hreceived],
      (Agent.serving_eq env n.depth hafter.lines).symm, fun s => ?_⟩
    rcases hsend : (sendall n.depth s).eval (answer weather (agentRemote env n)) w with ⟨r, w'⟩
    rintro ⟨q, hq, hpart⟩
    cases r with
    | error e => exact ⟨e, rfl⟩
    | ok _ =>
      obtain ⟨q', hq', hall, -⟩ := (sendall_opened hafter hsend).1.port_eq
      rw [hq] at hq'
      cases hq'
      exact absurd (hall.trans (by rw [hwritten])) hpart

/-! ## A short session -/

/-- A library that never raises and reads two bytes at a time. -/
def talkative : Agent.Env := { Agent.quiet with read := fun _ => .ok [104, 105] }

theorem two_le_two : 2 ≤ 2 := le_rfl

def twoLevels : Nesting := ⟨2, two_le_two⟩

def console : Target where
  device := codes "/dev/ttyS0"
  baudrate := 115200
  joined := joined_codes (by decide)
  short := (by decide : 115200 < 10 ^ 6).trans_le (Nat.pow_le_pow_right (by decide) (by decide))

/-- The link after `open`. -/
def opened : Link :=
  ((«open» 2 console.device console.baudrate).eval (answer (clear 1000) (agentRemote talkative twoLevels))
    .initial).2

def session : List ChannelCall := [.sendall [1, 2, 3], .recvReady, .recv 1]

theorem transparent_session : ∃ (received : Bytes) (w : Link) (p : Agent.Port),
    transcript (clear 1000) (agentRemote talkative twoLevels) twoLevels session opened
      = some (received, w) ∧
    w.port talkative twoLevels = some p ∧ p.written = [1, 2, 3] ∧
    received ++ w.buffers.serial = p.received := by
  have hreturns : (transcript (clear 1000) (agentRemote talkative twoLevels) twoLevels session
      opened).isSome = true := by decide +kernel
  obtain ⟨⟨received, w⟩, hcalls⟩ := Option.isSome_iff_exists.mp hreturns
  obtain ⟨p, hp, hwritten, hreceived, -⟩ :=
    transparent (clear 1000) talkative twoLevels console fresh_initial (by decide +kernel) hcalls
  exact ⟨received, w, p, hcalls, hp, hwritten, hreceived⟩

end HardwareTest.Transport.SerialAgentChannel
