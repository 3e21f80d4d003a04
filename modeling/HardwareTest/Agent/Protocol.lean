import HardwareTest.Lib.Base64
import HardwareTest.Python.Float

/-!
# The protocol of the serial agent

A request is a line of JSON; a response is one too.  The validators look at one request each, and what
they raise is an `AgentError` with a code and a message.  The reader of JSON and the conversion of
numbers can raise more than that, and `Raised` names every kind.

* `decodeRequest`, `encodeResponse` — the two ends of a line;
* `validateEnvelope`, `validateFields`, `requireString`, `requireInt`, `requireTimeout`,
  `decodePayload` — the validators;
* `encodeResponse_line` — a response is one line.
-/

namespace HardwareTest.Agent

open HardwareTest.Lib HardwareTest.Lib.Json HardwareTest.Python

abbrev Bytes := List UInt8

def protocolVersion : ℤ := 1

def maxJsonLineBytes : ℕ := 1048576

def maxPayloadBytes : ℕ := 262144

def maxReadBytes : ℕ := 262144

def maxTimeoutSeconds : ℚ := 120

/-- A decoded request, and a response: the members of an object. -/
abbrev Request := List (Str × JsonValue)

abbrev Response := List (Str × JsonValue)

/-- What a call can raise: the expected failure, `SerialException` and `OSError`, and the exceptions
of the interpreter that the validators do not expect. -/
inductive Raised
  | agentError (code message : Str)
  | serialError (message : Str)
  | valueError
  | overflowError
  | recursionError
  deriving DecidableEq

def invalidRequest (message : Str) : Raised := .agentError (codes "invalid_request") message

/-! ## Lines -/

/-- `decode_request`.  Only two of the exceptions of `json.loads` are caught. -/
def decodeRequest (depth : ℕ) (line : Bytes) : Except Raised Request :=
  match loadsBytes (F := PyFloat) depth line with
  | .ok (.dict members) => .ok members
  | .ok _ => .error (invalidRequest (codes "Request must be a JSON object with string keys"))
  | .error .unicodeDecodeError =>
    .error (.agentError (codes "invalid_json") (codes "Request must be one valid JSON object"))
  | .error .jsonDecodeError =>
    .error (.agentError (codes "invalid_json") (codes "Request must be one valid JSON object"))
  | .error .valueError => .error .valueError
  | .error .recursionError => .error .recursionError

def encodeResponse (response : Response) : Bytes := encodeAscii (dumps (.dict response) ++ [10])

def success (values : List (Str × JsonValue)) : Response :=
  [(codes "version", .int protocolVersion), (codes "ok", .bool true)] ++ values

/-- `failure` of an `AgentError`. -/
def failure (code message : Str) : Response :=
  [(codes "version", .int protocolVersion), (codes "ok", .bool false),
    (codes "error", .dict [(codes "code", .str code), (codes "message", .str message)])]

/-! ## Validators -/

/-- `value == 1`. -/
def equalsVersion (value : Option JsonValue) : Bool := equalsInt protocolVersion value

/-- `isinstance(value, str) and value`. -/
def nonEmptyString : Option JsonValue → Option Str
  | some (.str (c :: s)) => some (c :: s)
  | _ => none

def validateEnvelope (request : Request) : Except Raised Str :=
  if equalsVersion (get request (codes "version")) then
    match nonEmptyString (get request (codes "operation")) with
    | some operation => .ok operation
    | none => .error (invalidRequest (codes "operation must be a non-empty string"))
  else .error (.agentError (codes "unsupported_version")
    (codes "Supported protocol version is " ++ dumpsInt protocolVersion))

/-- `", ".join(sorted(names))`. -/
def joinSorted (names : List Str) : Str := (codes ", ").intercalate (names.insertionSort (· ≤ ·))

/-- The fields of every request. -/
def common : List Str := [codes "version", codes "operation"]

def missing (request : Request) (required : List Str) : List Str :=
  required.filter fun name => name ∉ request.map Prod.fst

def unexpected (request : Request) (required optional : List Str) : List Str :=
  (request.map Prod.fst).filter fun name => name ∉ required ∧ name ∉ optional ∧ name ∉ common

def validateFields (request : Request) (required optional : List Str) : Except Raised Unit :=
  if missing request required ≠ [] then
    .error (invalidRequest (codes "Missing required fields: " ++ joinSorted (missing request required)))
  else if unexpected request required optional ≠ [] then
    .error (invalidRequest
      (codes "Unexpected fields: " ++ joinSorted (unexpected request required optional)))
  else .ok ()

def requireString (request : Request) (name : Str) : Except Raised Str :=
  match nonEmptyString (get request name) with
  | some value => .ok value
  | none => .error (invalidRequest (name ++ codes " must be a non-empty string"))

def requireInt (request : Request) (name : Str) (minimum maximum : ℤ) : Except Raised ℤ :=
  let refused := .error (invalidRequest (name ++ codes " must be an integer between "
    ++ dumpsInt minimum ++ codes " and " ++ dumpsInt maximum))
  match get request name with
  | some (.int value) => if minimum ≤ value ∧ value ≤ maximum then .ok value else refused
  | _ => refused

/-- `0 <= timeout <= MAX_TIMEOUT_SECONDS`; no comparison with a nan holds. -/
def timeoutInRange : PyFloat → Bool
  | .finite q => 0 ≤ q ∧ q ≤ maxTimeoutSeconds
  | .infinite _ => false
  | .nan => false

def boundedTimeout (timeout : PyFloat) : Except Raised PyFloat :=
  if timeoutInRange timeout then .ok timeout
  else .error (invalidRequest (codes "timeout must be between 0 and 120.0"))

/-- `require_timeout`.  `float` of an integer that is too large raises. -/
def requireTimeout (request : Request) : Except Raised PyFloat :=
  match get request (codes "timeout") with
  | some (.int n) =>
    match PyFloat.floatOfInt n with
    | some timeout => boundedTimeout timeout
    | none => .error .overflowError
  | some (.float timeout) => boundedTimeout timeout
  | _ => .error (invalidRequest (codes "timeout must be a number"))

/-- The end of `decode_payload`. -/
def decodeData (encoded : Str) : Except Raised Bytes :=
  match Base64.decode true encoded with
  | none => .error (.agentError (codes "invalid_base64") (codes "data must contain valid Base64"))
  | some payload =>
    if maxPayloadBytes < payload.length then
      .error (.agentError (codes "payload_too_large")
        (codes "Decoded data exceeds " ++ dumpsInt maxPayloadBytes ++ codes " bytes"))
    else .ok payload

def decodePayload (request : Request) : Except Raised Bytes := do
  let encoded ← requireString request (codes "data")
  decodeData encoded

def encodePayload (payload : Bytes) : Str := Base64.encode payload

/-! ## What the validators raise -/

/-- The code of a failed call of the serial library. -/
def serialIo : Str := codes "serial_io"

/-- A result that is a value or a refusal of the request. -/
def Expected {α : Type} (r : Except Raised α) : Prop :=
  ∀ e, r = .error e → ∃ code message, e = .agentError code message ∧ code ≠ serialIo

section Expected

variable {α β : Type}

theorem expected_ok (a : α) : Expected (.ok a : Except Raised α) := by
  intro e he
  cases he

theorem expected_agentError {code : Str} (hcode : code ≠ serialIo) (message : Str) :
    Expected (.error (.agentError code message) : Except Raised α) := by
  intro e he
  cases he
  exact ⟨code, message, rfl, hcode⟩

theorem expected_invalidRequest (message : Str) :
    Expected (.error (invalidRequest message) : Except Raised α) :=
  expected_agentError (by decide) message

theorem Expected.bind {r : Except Raised α} {f : α → Except Raised β} (hr : Expected r)
    (hf : ∀ a, Expected (f a)) : Expected (r >>= f) := by
  cases r with
  | ok a => exact hf a
  | error e =>
    intro e' he'
    cases he'
    exact hr e rfl

end Expected

theorem validateEnvelope_expected (request : Request) : Expected (validateEnvelope request) := by
  unfold validateEnvelope
  split
  · split
    · exact expected_ok _
    · exact expected_invalidRequest _
  · exact expected_agentError (by decide) _

theorem validateFields_expected (request : Request) (required optional : List Str) :
    Expected (validateFields request required optional) := by
  unfold validateFields
  split_ifs
  · exact expected_invalidRequest _
  · exact expected_invalidRequest _
  · exact expected_ok _

theorem requireString_expected (request : Request) (name : Str) :
    Expected (requireString request name) := by
  unfold requireString
  split
  · exact expected_ok _
  · exact expected_invalidRequest _

theorem requireInt_expected (request : Request) (name : Str) (minimum maximum : ℤ) :
    Expected (requireInt request name minimum maximum) := by
  unfold requireInt
  dsimp only
  split
  · split_ifs
    · exact expected_ok _
    · exact expected_invalidRequest _
  · exact expected_invalidRequest _

theorem boundedTimeout_expected (timeout : PyFloat) : Expected (boundedTimeout timeout) := by
  unfold boundedTimeout
  split_ifs
  · exact expected_ok _
  · exact expected_invalidRequest _

theorem decodePayload_expected (request : Request) : Expected (decodePayload request) := by
  refine (requireString_expected request _).bind fun encoded => ?_
  unfold decodeData
  split
  · exact expected_agentError (by decide) _
  · split_ifs
    · exact expected_agentError (by decide) _
    · exact expected_ok _

/-- An integer that no double is next to. -/
def TimeoutOverflows (request : Request) : Prop :=
  ∃ n : ℤ, get request (codes "timeout") = some (.int n) ∧ PyFloat.overflowBound ≤ n.natAbs

/-- **The one validator that raises more**: `float` of an integer out of range. -/
theorem requireTimeout_raises (request : Request) :
    (TimeoutOverflows request ∧ requireTimeout request = .error .overflowError) ∨
      (¬TimeoutOverflows request ∧ Expected (requireTimeout request)) := by
  unfold requireTimeout TimeoutOverflows
  cases hget : get request (codes "timeout") with
  | none => exact .inr ⟨by simp, expected_invalidRequest _⟩
  | some v =>
    cases v with
    | int n =>
      by_cases hn : PyFloat.overflowBound ≤ n.natAbs
      · refine .inl ⟨⟨n, rfl, hn⟩, ?_⟩
        simp only [PyFloat.floatOfInt, if_pos hn]
      · refine .inr ⟨?_, ?_⟩
        · rintro ⟨m, hm, hle⟩
          cases hm
          exact hn hle
        · simp only [PyFloat.floatOfInt, if_neg hn]
          exact boundedTimeout_expected _
    | float x => exact .inr ⟨by simp, boundedTimeout_expected x⟩
    | null => exact .inr ⟨by simp, expected_invalidRequest _⟩
    | bool b => exact .inr ⟨by simp, expected_invalidRequest _⟩
    | str s => exact .inr ⟨by simp, expected_invalidRequest _⟩
    | list items => exact .inr ⟨by simp, expected_invalidRequest _⟩
    | dict members => exact .inr ⟨by simp, expected_invalidRequest _⟩

/-! ## Responses are lines -/

/-- **A response is one line**: its only line feed is its last byte. -/
theorem encodeResponse_line (response : Response) :
    ∃ body, encodeResponse response = body ++ [10] ∧ (10 : UInt8) ∉ body := by
  refine ⟨encodeAscii (dumps (.dict response)), ?_, ?_⟩
  · simp [encodeResponse, encodeAscii]
  · intro hmem
    obtain ⟨c, hc, hten⟩ := List.mem_map.mp hmem
    have hascii := dumps_ascii _ c hc
    have := congrArg UInt8.toNat hten
    rw [toNat_ofNat_ascii hascii.2] at this
    have hten' : (10 : UInt8).toNat = 10 := rfl
    omega

end HardwareTest.Agent
