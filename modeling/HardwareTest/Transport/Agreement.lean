import HardwareTest.Lib.JsonFile
import HardwareTest.Transport.Framing
import HardwareTest.Transport.RemoteSerial

/-!
# The inventory and the agent

The device and the rate of a remote serial port are checked twice: when the inventory is read, and by
the agent that opens the port.  The rule for the device is the same on both sides.  The agent has three
bounds that the inventory and the client do not have: on the rate, on the payload of a write and on the
length of a line.

* `validateSerialDevice`, `validateBaudrate` — the checks of the inventory;
* `Reaches` — all checks of the agent have passed, up to its first call outside;
* `openLine_reaches_iff`, `writeLine_reaches_iff` — the two requests, each with its bound;
* `requests_pass_iff` — the two together.
-/

namespace HardwareTest.Transport

open HardwareTest.Lib HardwareTest.Lib.Json HardwareTest.Python SerialAgentChannel

/-! ## The checks of the inventory -/

/-- A path that `validate_serial_device` refuses. -/
def OutsideDev (path : Agent.PurePosixPath) : Prop :=
  ¬path.isAbsolute ∨ path = Agent.dev ∨ ¬path.isRelativeTo Agent.dev ∨ codes ".." ∈ path.parts

instance (path : Agent.PurePosixPath) : Decidable (OutsideDev path) :=
  inferInstanceAs (Decidable (_ ∨ _))

/-- A device path as the inventory accepts it. -/
structure SerialDevice where
  text : Str
  scalar : Scalar text
  clean : ¬∃ c ∈ [0, 13, 10], c ∈ text
  below : ¬OutsideDev (.parse text)

/-- The field `serial_device`: a string without surrogates, and `validate_serial_device`. -/
def validateSerialDevice (value : Str) : Except String SerialDevice :=
  if hscalar : Scalar value then
    if hclean : ∃ c ∈ [0, 13, 10], c ∈ value then
      .error "serial_device must not contain control characters"
    else if hbelow : OutsideDev (.parse value) then
      .error "serial_device must be an absolute path below /dev"
    else .ok ⟨value, hscalar, hclean, hbelow⟩
  else .error "Input should be a valid string, unable to parse raw data as a unicode string"

structure Baudrate where
  value : ℤ
  positive : 0 < value

/-- `Field(gt=0)`. -/
def validateBaudrate (value : ℤ) : Except String Baudrate :=
  if hpositive : 0 < value then .ok ⟨value, hpositive⟩ else .error "Input should be greater than 0"

/-- The fields that reach the agent. -/
structure PySerialOverSshTransportConfig where
  serialDevice : SerialDevice
  baudrate : Baudrate

/-- **The rule for the device is the same**: the agent accepts what the inventory accepts, and of the
strings without surrogates nothing else. -/
theorem validateDevice_ok_iff {value : Str} (hscalar : Scalar value) :
    Agent.validateDevice value = .ok value ↔ ∃ d, validateSerialDevice value = .ok d ∧ d.text = value := by
  have hagent : Agent.validateDevice value
      = if ∃ c ∈ Agent.controlCharacters, c ∈ value then
          .error (.agentError (codes "invalid_device") (codes "device must not contain control characters"))
        else if OutsideDev (.parse value) then
          .error (.agentError (codes "invalid_device") (codes "device must be an absolute path below /dev"))
        else .ok value := rfl
  rw [hagent, validateSerialDevice, dif_pos hscalar]
  unfold Agent.controlCharacters
  split_ifs
  · exact iff_of_false (by simp) (by simp)
  · exact iff_of_false (by simp) (by simp)
  · exact iff_of_true rfl ⟨_, rfl, rfl⟩

theorem validateSerialDevice_text (d : SerialDevice) : validateSerialDevice d.text = .ok d := by
  rw [validateSerialDevice, dif_pos d.scalar, dif_neg d.clean, dif_neg d.below]

theorem validateDevice_text (d : SerialDevice) : Agent.validateDevice d.text = .ok d.text :=
  (validateDevice_ok_iff d.scalar).mpr ⟨d, validateSerialDevice_text d, rfl⟩

theorem SerialDevice.text_ne_nil (d : SerialDevice) : d.text ≠ [] := by
  intro hempty
  refine d.below (.inl ?_)
  rw [hempty]
  decide

/-! ## The lines -/

/-- What `open` sends; `json.dumps` raises on a rate with too many digits. -/
def PySerialOverSshTransportConfig.openLine (config : PySerialOverSshTransportConfig) : Option Bytes :=
  if config.baudrate.value.natAbs < 10 ^ Json.maxStrDigits then
    some (requestLine (codes "open")
      [(codes "device", .str config.serialDevice.text), (codes "baudrate", .int config.baudrate.value)])
  else none

/-- What `sendall` sends. -/
def writeLine (payload : Bytes) : Bytes :=
  requestLine (codes "write") [(codes "data", .str (Base64.encode payload))]

/-- The first call to which a line leads is this one: every check before it has passed. -/
def Reaches (env : Agent.Env) (n : Nesting) (b : Agent.Bench) (line : Bytes) (op : Agent.Op) : Prop :=
  ∃ later, ((Agent.respondLine n.depth line).eval (Agent.answer env) b).2.calls = b.calls ++ op :: later

section Reaches

variable {env : Agent.Env} {n : Nesting} {b : Agent.Bench} {op : Agent.Op}

theorem not_reached {calls : List Agent.Op} : ¬∃ later, calls = calls ++ op :: later := by simp

/-- A line of acceptable length leads to the calls of its request. -/
theorem reaches_iff {operation : Str} {values : List (Str × JsonValue)} (h : Sendable operation values) :
    Reaches env n b (requestLine operation values) op ↔
      (requestLine operation values).length ≤ Agent.maxJsonLineBytes ∧
        ∃ later, (Agent.handled env (Agent.envelope operation ++ values) b).2.calls
          = b.calls ++ op :: later := by
  rw [Reaches, Agent.respondLine]
  by_cases hlong : Agent.maxJsonLineBytes < (requestLine operation values).length
  · rw [if_pos hlong]
    exact iff_of_false not_reached fun h => absurd h.1 (by omega)
  · rw [if_neg hlong, Agent.respond_decoded (decodeRequest_requestLine n h)]
    exact (and_iff_right (by omega)).symm

/-! ## Opening -/

theorem calls_create (device : Str) (baudrate : ℤ) :
    ((Agent.SerialAgent.create device baudrate).eval (Agent.answer env) b).2.calls
      = b.calls ++ [.serialFactory (Agent.SerialAgent.parameters device baudrate)] := by
  rw [Agent.SerialAgent.create, Program.eval_call]
  cases hfactory : env.serialFactory
      (b.record (.serialFactory (Agent.SerialAgent.parameters device baudrate))).calls with
  | ok _ =>
    simp only [Agent.answer, hfactory]
    rfl
  | error message =>
    simp only [Agent.answer, hfactory]
    rfl

/-- With a device of the inventory only the rate is left to check. -/
theorem openDevice_asks_iff (d : SerialDevice) (baudrate : ℤ) :
    (∃ later, ((Agent.SerialAgent.openDevice (Agent.openRequest d.text baudrate)).eval
        (Agent.answer env) b).2.calls = b.calls ++ .isCharDevice d.text :: later) ↔
      1 ≤ baudrate ∧ baudrate ≤ 10000000 := by
  have hstring : Agent.requireString (Agent.openRequest d.text baudrate) (codes "device") = .ok d.text := by
    cases htext : d.text with
    | nil => exact absurd htext d.text_ne_nil
    | cons c s => rfl
  have hint : Agent.requireInt (Agent.openRequest d.text baudrate) (codes "baudrate") 1 10000000
      = if 1 ≤ baudrate ∧ baudrate ≤ 10000000 then .ok baudrate
        else .error (Agent.invalidRequest
          (codes "baudrate must be an integer between 1 and 10000000")) := rfl
  rw [Agent.SerialAgent.openDevice, hstring]
  simp only [Program.eval_bind, Program.eval_ofExcept, validateDevice_text, hint]
  split_ifs with hrange
  · refine iff_of_true ?_ hrange
    simp only [Program.eval_call, Agent.answer]
    split
    · exact ⟨_, by rw [calls_create, Agent.Bench.record_calls, List.append_assoc]; rfl⟩
    · exact ⟨[], rfl⟩
  · exact iff_of_false not_reached hrange

theorem open_asks_iff (d : SerialDevice) (baudrate : ℤ) (hnone : b.connection = none) :
    (∃ later, (Agent.handled env (Agent.openRequest d.text baudrate) b).2.calls
        = b.calls ++ .isCharDevice d.text :: later) ↔ 1 ≤ baudrate ∧ baudrate ≤ 10000000 := by
  have hfields : Agent.validateFields (Agent.openRequest d.text baudrate)
      [codes "device", codes "baudrate"] [] = .ok () := rfl
  have heval : (Agent.SerialAgent.open (Agent.openRequest d.text baudrate)).eval (Agent.answer env) b
      = (Agent.SerialAgent.openDevice (Agent.openRequest d.text baudrate)).eval (Agent.answer env) b := by
    rw [Agent.SerialAgent.open, hfields, Program.eval_bind, Program.eval_ofExcept]
    simp only [Program.eval_call, Agent.answer, hnone]
  rw [Agent.handled_eq (codes "open") (Agent.SerialAgent.open (Agent.openRequest d.text baudrate)) rfl rfl,
    heval]
  exact openDevice_asks_iff d baudrate

/-- **An `open` passes** exactly when its rate and its line are within the agent's bounds. -/
theorem openLine_reaches_iff (config : PySerialOverSshTransportConfig) (hnone : b.connection = none) :
    (∃ line ∈ config.openLine, Reaches env n b line (.isCharDevice config.serialDevice.text)) ↔
      config.baudrate.value ≤ 10000000 ∧
        ∀ line ∈ config.openLine, line.length ≤ Agent.maxJsonLineBytes := by
  have hpositive := config.baudrate.positive
  unfold PySerialOverSshTransportConfig.openLine
  split_ifs with hshort
  · have hsendable := sendable_open
      ⟨config.serialDevice.text, config.baudrate.value, joined_of_scalar config.serialDevice.scalar, hshort⟩
    simp only [Option.mem_some, exists_eq_left', forall_eq']
    rw [reaches_iff hsendable, and_comm]
    refine and_congr_left' ((open_asks_iff _ _ hnone).trans ?_)
    exact and_iff_right hpositive
  · refine iff_of_false (by simp) fun h => hshort ?_
    have hpow : (10 : ℕ) ^ 8 ≤ 10 ^ Json.maxStrDigits := Nat.pow_le_pow_right (by decide) (by decide)
    omega

/-! ## Writing -/

theorem decodePayload_eq {payload : Bytes} (hne : payload ≠ []) :
    Agent.decodePayload (Agent.writeRequest payload)
      = if Agent.maxPayloadBytes < payload.length then
          .error (.agentError (codes "payload_too_large") (codes "Decoded data exceeds 262144 bytes"))
        else .ok payload := by
  have hstring : Agent.requireString (Agent.writeRequest payload) (codes "data")
      = .ok (Base64.encode payload) := by
    cases hencode : Base64.encode payload with
    | nil =>
      have hlength := Base64.length_encode payload
      rw [hencode, List.length_nil] at hlength
      have := List.length_pos_iff.mpr hne
      omega
    | cons c s =>
      rw [Agent.writeRequest, hencode]
      rfl
  rw [Agent.decodePayload, hstring]
  show Agent.decodeData (Base64.encode payload) = _
  rw [Agent.decodeData, Base64.decode_encode]
  rfl

theorem write_writes_iff {payload : Bytes} {port : ℕ} (hport : b.connection = some port)
    (hne : payload ≠ []) :
    (∃ later, (Agent.handled env (Agent.writeRequest payload) b).2.calls
        = b.calls ++ .write port payload :: later) ↔ payload.length ≤ Agent.maxPayloadBytes := by
  rw [Agent.handled_eq (codes "write") (Agent.SerialAgent.write (Agent.writeRequest payload)) rfl rfl]
  have hfields : Agent.validateFields (Agent.writeRequest payload) [codes "data"] [] = .ok () := rfl
  rw [Agent.SerialAgent.write, hfields, Program.eval_bind, Program.eval_ofExcept]
  simp only [Program.eval_bind, Agent.eval_requireConnection hport, Program.eval_ofExcept,
    decodePayload_eq hne]
  split_ifs with hlarge
  · exact iff_of_false not_reached (by omega)
  · refine iff_of_true ⟨[], ?_⟩ (by omega)
    simp only [Program.eval_call, Agent.answer]
    split <;> rfl

/-- A character of Base64 is not escaped. -/
theorem escapeChar_encode {payload : Bytes} {c : ℕ} (hc : c ∈ Base64.encode payload) :
    escapeChar c = [c] := by
  have hall : ∀ v < 64, escapeChar (Base64.char64 v) = [Base64.char64 v] := by decide
  obtain rfl | ⟨v, hv, rfl⟩ := Base64.mem_encode hc
  · rfl
  · exact hall v hv

theorem dumpsString_encode (payload : Bytes) :
    dumpsString (Base64.encode payload) = 34 :: Base64.encode payload ++ [34] := by
  have hplain : (Base64.encode payload).flatMap escapeChar = Base64.encode payload := by
    rw [List.flatMap_congr fun c hc => escapeChar_encode hc, List.flatMap_singleton']
  rw [dumpsString, hplain]

theorem writeLine_eq (payload : Bytes) :
    writeLine payload = encodeAscii (codes "\x7b\"version\":1,\"operation\":\"write\",\"data\":"
      ++ dumpsString (Base64.encode payload) ++ codes "\x7d\n") := by
  simp only [writeLine, requestLine, dumps, dumpsMembers, List.cons_append, List.nil_append, encodeAscii,
    List.map_append, List.append_assoc, List.map_cons]
  rfl

theorem length_writeLine (payload : Bytes) :
    (writeLine payload).length = 4 * ((payload.length + 2) / 3) + 44 := by
  rw [writeLine_eq, dumpsString_encode]
  simp [encodeAscii, Base64.length_encode, codes]

/-- **A write passes** exactly when its payload is within the agent's bound: its line is then, too. -/
theorem writeLine_reaches_iff {payload : Bytes} {port : ℕ} (hport : b.connection = some port)
    (hne : payload ≠ []) :
    Reaches env n b (writeLine payload) (.write port payload) ↔
      payload.length ≤ Agent.maxPayloadBytes := by
  rw [writeLine, reaches_iff (sendable_write payload)]
  refine (and_congr_right' (write_writes_iff hport hne)).trans (and_iff_right_of_imp fun hsize => ?_)
  show (writeLine payload).length ≤ _
  rw [length_writeLine]
  unfold Agent.maxPayloadBytes at hsize
  unfold Agent.maxJsonLineBytes
  omega

end Reaches

/-! ## The state of the agent when `open` is sent -/

theorem sendable_hello : Sendable (codes "hello") [] where
  regular := ⟨⟨joined_codes (by decide), int_regular (by decide), joined_codes (by decide),
      joined_codes (by decide), trivial⟩,
    (by decide : [codes "version", codes "operation"].Nodup)⟩
  depth := by simp [Agent.envelope, Json.Value.depth, Json.depthMembers]

theorem handled_hello (env : Agent.Env) (b : Agent.Bench) :
    (Agent.handled env (Agent.envelope (codes "hello")) b).2 = b := by
  rw [Agent.handled_eq (codes "hello") (Agent.SerialAgent.hello (Agent.envelope (codes "hello"))) rfl rfl]
  rfl

/-- **`connect` sends its `open`** to an agent that owns no port. -/
theorem connection_of_negotiate {weather : Weather} {env : Agent.Env} {n : Nesting} {version : Str} {w : Link}
    (h : (negotiate n.depth).eval (answer weather (agentRemote env n)) .initial = (.ok version, w)) :
    (w.agent env n).bench.connection = none := by
  rw [negotiate, Program.eval_bind] at h
  rcases hrequest : (request n.depth (codes "hello") []).eval (answer weather (agentRemote env n)) .initial
    with ⟨r, w₁⟩
  rw [hrequest] at h
  cases r with
  | error e => cases h
  | ok response =>
    obtain rfl : w₁ = w := by
      dsimp only at h
      split at h
      · cases h
        rfl
      · cases h
    obtain ⟨answered, stop, -, hagent, -⟩ :=
      (returned_handled fresh_initial.settled sendable_hello hrequest).handled
    rw [hagent, List.append_nil, handled_hello]
    rfl

/-! ## All requests -/

/-- **What passes the checks of the agent.**  Before there is a port, the `open` request of a
configuration asks for its device exactly when its rate and its line are within the agent's bounds; and
a payload is written to the owned port exactly when it is. -/
theorem requests_pass_iff (env : Agent.Env) (n : Nesting) :
    (∀ (config : PySerialOverSshTransportConfig) (b : Agent.Bench), b.connection = none →
      ((∃ line ∈ config.openLine, Reaches env n b line (.isCharDevice config.serialDevice.text)) ↔
        config.baudrate.value ≤ 10000000 ∧
          ∀ line ∈ config.openLine, line.length ≤ Agent.maxJsonLineBytes)) ∧
    ∀ (payload : Bytes) (b : Agent.Bench) (port : ℕ), b.connection = some port → payload ≠ [] →
      (Reaches env n b (writeLine payload) (.write port payload) ↔
        payload.length ≤ Agent.maxPayloadBytes) :=
  ⟨fun config _ hnone => openLine_reaches_iff config hnone,
    fun _ _ _ hport hne => writeLine_reaches_iff hport hne⟩

/-- A device of one small-letter name. -/
theorem parse_name {name : Str} (hne : name ≠ []) (hletters : ∀ c ∈ name, 97 ≤ c ∧ c ≤ 122) :
    Agent.PurePosixPath.parse (codes "/dev/" ++ name) = ⟨codes "/", [codes "dev", name]⟩ := by
  have hslash : 47 ∉ name := fun hc => by simpa using (hletters 47 hc).1
  have hdot : name ≠ codes "." := by
    rintro rfl
    exact absurd hletters (by decide)
  have hsplit : (codes "dev/" ++ name).splitOn 47 = [codes "dev", name] := by
    show (codes "dev" ++ 47 :: name).splitOn 47 = _
    rw [List.splitOn_append_cons_self_of_not_mem (by decide), List.splitOn_eq_singleton hslash]
  have hroot : Agent.PurePosixPath.splitroot (codes "/dev/" ++ name) = (codes "/", codes "dev/" ++ name) :=
    rfl
  rw [Agent.PurePosixPath.parse, hroot, hsplit]
  have hdev : codes "dev" ≠ [] ∧ codes "dev" ≠ codes "." := by decide
  simp [hne, hdot, hdev]

/-- A device of the inventory. -/
def letters (name : Str) (hne : name ≠ []) (hletters : ∀ c ∈ name, 97 ≤ c ∧ c ≤ 122) : SerialDevice where
  text := codes "/dev/" ++ name
  scalar := scalar_append.mpr ⟨by decide, fun c hc => .inl (by have := hletters c hc; omega)⟩
  clean := by
    rintro ⟨c, hc, hmem⟩
    have hsmall : c ≤ 13 := by
      simp only [List.mem_cons, List.not_mem_nil, or_false] at hc
      omega
    rcases List.mem_append.mp hmem with hmem | hmem
    · have : ∀ c ∈ codes "/dev/", 47 ≤ c := by decide
      have := this c hmem
      omega
    · have := hletters c hmem
      omega
  below := by
    rw [parse_name hne hletters]
    have hrelative : Agent.PurePosixPath.isRelativeTo ⟨codes "/", [codes "dev", name]⟩ Agent.dev = true :=
      decide_eq_true (.inr (List.mem_of_getElem? (show _ = some Agent.dev from rfl : _[1]? = _)))
    have hdots : codes ".." ≠ name := by
      rintro rfl
      exact absurd hletters (by decide)
    rintro (habsolute | hdev | hnot | hmem)
    · exact habsolute rfl
    · rw [Agent.dev_eq] at hdev
      cases hdev
    · exact hnot hrelative
    · have hparts : codes ".." ∈ [codes "/", codes "dev", name] := hmem
      simp only [List.mem_cons, List.not_mem_nil, or_false, hdots] at hparts
      exact absurd hparts (by decide)

/-- A device and a rate within the bounds. -/
def slow : PySerialOverSshTransportConfig where
  serialDevice := letters (codes "tty") (by decide) (by decide)
  baudrate := ⟨115200, by decide⟩

/-- An agent with an open port. -/
def owning : Agent.Bench :=
  { Agent.Bench.initial with
    connection := some 0
    ports := [⟨Agent.SerialAgent.parameters (codes "/dev/tty") 115200, .finite 0, [], []⟩] }

theorem requests_pass_slow :
    (∃ line ∈ slow.openLine, Reaches Agent.quiet twoLevels .initial line (.isCharDevice (codes "/dev/tty"))) ∧
      Reaches Agent.quiet twoLevels owning (writeLine [104, 105]) (.write 0 [104, 105]) := by
  obtain ⟨hopen, hwrite⟩ := requests_pass_iff Agent.quiet twoLevels
  refine ⟨(hopen slow .initial rfl).mpr ⟨by decide, fun line hline => ?_⟩,
    (hwrite [104, 105] owning 0 rfl (by simp)).mpr (by decide)⟩
  have hshort : (115200 : ℕ) < 10 ^ Json.maxStrDigits :=
    (by decide : 115200 < 10 ^ 6).trans_le (Nat.pow_le_pow_right (by decide) (by decide))
  cases (if_pos hshort).symm.trans hline
  decide +kernel

/-! ## Requests that are refused -/

theorem length_le_escaped (s : Str) : s.length ≤ (s.flatMap escapeChar).length := by
  induction s with
  | nil => rfl
  | cons c s ih =>
    have hpositive : 1 ≤ (escapeChar c).length := by
      unfold escapeChar
      split_ifs <;> simp [escapeUnit]
    rw [List.flatMap_cons, List.length_append, List.length_cons]
    omega

theorem length_le_openLine {config : PySerialOverSshTransportConfig} {line : Bytes}
    (h : config.openLine = some line) : config.serialDevice.text.length ≤ line.length := by
  unfold PySerialOverSshTransportConfig.openLine at h
  split_ifs at h
  cases h
  have hline : requestLine (codes "open") [(codes "device", .str config.serialDevice.text),
      (codes "baudrate", .int config.baudrate.value)]
        = encodeAscii (codes "\x7b\"version\":1,\"operation\":\"open\",\"device\":"
          ++ dumpsString config.serialDevice.text
          ++ (codes ",\"baudrate\":" ++ dumpsInt config.baudrate.value ++ codes "\x7d\n")) := by
    simp only [requestLine, dumps, dumpsMembers, List.cons_append, List.nil_append, encodeAscii,
      List.map_append, List.append_assoc, List.map_cons]
    rfl
  have hescaped := length_le_escaped config.serialDevice.text
  rw [hline, encodeAscii, List.length_map, List.length_append, List.length_append, dumpsString,
    List.cons_append, List.length_cons, List.length_append]
  omega

/-- A rate that the inventory accepts. -/
def fast : PySerialOverSshTransportConfig where
  serialDevice := letters (codes "tty") (by decide) (by decide)
  baudrate := ⟨10000001, by decide⟩

/-- A device with a name of this length. -/
def distant (length : ℕ) : PySerialOverSshTransportConfig where
  serialDevice := letters (List.replicate (length + 1) 97) (by simp)
    fun c hc => by rw [List.eq_of_mem_replicate hc]; decide
  baudrate := ⟨115200, by decide⟩

/-- A command of this length. -/
def verbose (length : ℕ) : UnixCommand where
  query := List.replicate (length + 1) 'x'
  useSudo := false
  nonInteractive := false

/-- What `execute` sends for it. -/
def verboseLine (length : ℕ) : Bytes :=
  Utf8.encode (submittedLine ['#'] (verbose length) (sampleHex 'a' a_mem_digits) (sampleHex 'b' b_mem_digits)
    ++ ['\r'])

theorem length_le_encode (s : Text) : s.length ≤ (Utf8.encode s).length := by
  induction s with
  | nil => rfl
  | cons c s ih =>
    have hpositive : 1 ≤ (String.utf8EncodeChar c).length := by
      rw [String.length_utf8EncodeChar]
      exact c.utf8Size_pos
    rw [Utf8.encode_cons, List.length_append, List.length_cons]
    omega

theorem quote_infix_submitted (prompt : Text) (command : UnixCommand) (token status : Hex) :
    quote command.text <:+: submittedLine prompt command token status := by
  unfold submittedLine
  simp only [List.append_assoc]
  exact ⟨_, _, List.append_assoc _ _ _⟩

theorem quote_verbose (length : ℕ) : quote (verbose length).text = List.replicate (length + 1) 'x' := by
  have hsafe : (List.replicate (length + 1) 'x').all isShellSafe = true := by
    rw [List.all_replicate, if_neg (by omega)]
    decide
  show quote (List.replicate (length + 1) 'x') = _
  rw [quote, if_neg (by simp), if_pos hsafe]

theorem length_verboseLine (length : ℕ) : length < (verboseLine length).length := by
  have hinfix := (quote_infix_submitted ['#'] (verbose length) (sampleHex 'a' a_mem_digits)
    (sampleHex 'b' b_mem_digits)).length_le
  rw [quote_verbose, List.length_replicate] at hinfix
  refine lt_of_lt_of_le ?_ (length_le_encode _)
  rw [List.length_append]
  omega

section Refused

variable {env : Agent.Env} {n : Nesting} {b : Agent.Bench} {length : ℕ}

theorem distant_accepted : validateSerialDevice (codes "/dev/" ++ List.replicate (length + 1) 97)
    = .ok (distant length).serialDevice :=
  validateSerialDevice_text (distant length).serialDevice

theorem distant_refused (hlong : Agent.maxJsonLineBytes ≤ length) (hnone : b.connection = none) :
    ¬∃ line ∈ (distant length).openLine,
      Reaches env n b line (.isCharDevice (distant length).serialDevice.text) := by
  intro hreaches
  obtain ⟨line, hline, -⟩ := id hreaches
  have hbound := ((openLine_reaches_iff _ hnone).mp hreaches).2 line hline
  have hlength := length_le_openLine hline
  have htext : (distant length).serialDevice.text = codes "/dev/" ++ List.replicate (length + 1) 97 := rfl
  rw [htext, List.length_append, List.length_replicate] at hlength
  omega

theorem verbose_refused {port : ℕ} (hlong : Agent.maxPayloadBytes ≤ length)
    (hport : b.connection = some port) :
    ¬Reaches env n b (writeLine (verboseLine length)) (.write port (verboseLine length)) := by
  intro hreaches
  have hlength := length_verboseLine length
  have hne : verboseLine length ≠ [] := List.length_pos_iff.mp (by omega)
  have hbound := (writeLine_reaches_iff hport hne).mp hreaches
  omega

end Refused

theorem bounds_refuse :
    (validateSerialDevice (codes "/dev/tty") = .ok fast.serialDevice ∧
      validateBaudrate 10000001 = .ok fast.baudrate ∧
      ¬∃ line ∈ fast.openLine,
        Reaches Agent.quiet twoLevels .initial line (.isCharDevice (codes "/dev/tty"))) ∧
    (validateSerialDevice (codes "/dev/" ++ List.replicate (Agent.maxJsonLineBytes + 1) 97)
        = .ok (distant Agent.maxJsonLineBytes).serialDevice ∧
      ¬∃ line ∈ (distant Agent.maxJsonLineBytes).openLine,
        Reaches Agent.quiet twoLevels .initial line
          (.isCharDevice (distant Agent.maxJsonLineBytes).serialDevice.text)) ∧
    ¬Reaches Agent.quiet twoLevels owning (writeLine (verboseLine Agent.maxPayloadBytes))
      (.write 0 (verboseLine Agent.maxPayloadBytes)) := by
  refine ⟨⟨validateSerialDevice_text fast.serialDevice, rfl, fun hreaches => ?_⟩,
    ⟨distant_accepted, distant_refused le_rfl rfl⟩, verbose_refused le_rfl rfl⟩
  have hbound := ((openLine_reaches_iff fast rfl).mp hreaches).1
  exact absurd hbound (by decide)

end HardwareTest.Transport
