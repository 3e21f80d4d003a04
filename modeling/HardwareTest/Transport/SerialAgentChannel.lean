import HardwareTest.Lib.Base64
import HardwareTest.Lib.Program
import HardwareTest.Python.Float

/-!
# The client of the serial agent

`SerialAgentChannel` sends one line of JSON for a request and reads one line back.  There are no
request identifiers: a response belongs to the request that is waiting when its line is read.

* `request`, `readResponse` — one request;
* `sendall`, `recvReady`, `recv` and the other methods of the channel;
* `Link` — the two buffers of the client, the bytes on their way to it, and what the other side has
  answered so far;
* `Weather` — every delay, every chunking and every failure of the connection.
-/

namespace HardwareTest.Transport.SerialAgentChannel

open HardwareTest.Lib HardwareTest.Lib.Json HardwareTest.Python

abbrev Bytes := List UInt8

def protocolVersion : ℤ := 1

def maxResponseBytes : ℕ := 1048576

def readSize : ℤ := 65535

/-- `0.05`. -/
def readTimeout : PyFloat := .ofText (codes "0.05")

/-- The members of a response object. -/
abbrev Response := List (Str × JsonValue)

/-- What a request raises.  A partial write quotes the two lengths: its message is
`f"Serial agent reported a partial write: expected {expected}, got {got!r}"`. -/
inductive Raised
  | transportError (message : Str)
  | transportTimeoutError (message : Str)
  | partialWrite (expected : ℕ) (got : Option JsonValue)
  | socketError
  | valueError
  | recursionError

/-- `_response_buffer` and `_serial_buffer`. -/
structure Buffers where
  response : Bytes
  serial : Bytes
  deriving DecidableEq

/-! ## The calls of the client -/

/-- What the client does outside its own computation: it reads and sets its buffers and it uses the SSH
channel.  `deadline` is the number of passes a read loop makes before `time.monotonic()` reaches its
deadline. -/
inductive Op
  | buffers
  | setBuffers (buffers : Buffers)
  | closed
  | exitStatusReady
  | sendall (s : Bytes)
  | deadline
  | recvReady
  | recv (nbytes : ℕ)
  | close

abbrev Answer : Op → Type
  | .buffers => Buffers
  | .setBuffers _ => Unit
  | .closed => Bool
  | .exitStatusReady => Bool
  | .sendall _ => Bool
  | .deadline => ℕ
  | .recvReady => Bool
  | .recv _ => Bytes
  | .close => Unit

abbrev Client (α : Type) := Program Op Answer Raised α

/-! ## One request -/

/-- `{operation!r}`: the operations are plain words. -/
def quoted (operation : Str) : Str := codes "'" ++ operation ++ codes "'"

/-- The property `closed`. -/
def closed : Client Bool :=
  .call .closed fun
    | true => pure true
    | false => .call .exitStatusReady pure

/-- The line of a request. -/
def requestLine (operation : Str) (values : List (Str × JsonValue)) : Bytes :=
  encodeAscii (dumps (.dict ([(codes "version", .int protocolVersion), (codes "operation", .str operation)]
    ++ values)) ++ [10])

/-- `_decode_response`. -/
def decodeResponse (depth : ℕ) (line : Bytes) : Except Raised Response :=
  match loadsBytes (F := PyFloat) depth line with
  | .ok (.dict members) => .ok members
  | .ok _ => .error (.transportError (codes "Serial agent response must be a JSON object"))
  | .error .unicodeDecodeError => .error (.transportError (codes "Serial agent returned invalid JSON"))
  | .error .jsonDecodeError => .error (.transportError (codes "Serial agent returned invalid JSON"))
  | .error .valueError => .error .valueError
  | .error .recursionError => .error .recursionError

/-- `_error_message`. -/
def errorMessage (response : Response) (operation : Str) : Str :=
  match get response (codes "error") with
  | some (.dict error) =>
    match get error (codes "code"), get error (codes "message") with
    | some (.str code), some (.str message) =>
      codes "Serial agent " ++ code ++ codes " during " ++ quoted operation ++ codes ": " ++ message
    | _, _ => codes "Serial agent rejected operation " ++ quoted operation
  | _ => codes "Serial agent rejected operation " ++ quoted operation

/-- The first line of a buffer, without its line feed, and the bytes after it. -/
def splitLine : Bytes → Option (Bytes × Bytes)
  | [] => none
  | c :: s => if c = 10 then some ([], s) else (splitLine s).map fun p => (c :: p.1, p.2)

/-- The loop of `_read_response`, with the passes that are left before its deadline. -/
def readPasses (depth : ℕ) (operation : Str) : ℕ → Client Response
  | 0 => .throw (.transportTimeoutError
      (codes "Serial agent operation " ++ quoted operation ++ codes " timed out"))
  | passes + 1 =>
    .call .buffers fun buffers =>
      match splitLine buffers.response with
      | some (line, rest) =>
        .call (.setBuffers { buffers with response := rest }) fun () =>
          .ofExcept (decodeResponse depth line)
      | none =>
        .call .recvReady fun
          | true => .call (.recv 65535) fun chunk =>
            .call (.setBuffers { buffers with response := buffers.response ++ chunk }) fun () =>
              if maxResponseBytes < (buffers.response ++ chunk).length then
                .throw (.transportError (codes "Serial agent response is too large"))
              else readPasses depth operation passes
          | false => .call .exitStatusReady fun
            | true => .throw (.transportError
                (codes "Serial agent exited during operation " ++ quoted operation))
            | false => readPasses depth operation passes

/-- `_read_response`. -/
def readResponse (depth : ℕ) (operation : Str) : Client Response :=
  .call .deadline fun passes => readPasses depth operation passes

/-- The end of `_request`: what a response says about itself. -/
def accept (operation : Str) (response : Response) : Except Raised Response :=
  if ¬equalsInt protocolVersion (get response (codes "version")) then
    .error (.transportError (codes "Serial agent returned an unsupported protocol version"))
  else
    match get response (codes "ok") with
    | some (.bool true) => .ok response
    | _ => .error (.transportError (errorMessage response operation))

/-- `_channel.sendall`. -/
def send (s : Bytes) : Client Unit :=
  .call (.sendall s) fun
    | true => pure ()
    | false => .throw .socketError

/-- The body of `_request` on a channel that is not closed. -/
def exchange (depth : ℕ) (operation : Str) (values : List (Str × JsonValue)) : Client Response := do
  send (requestLine operation values)
  let response ← readResponse depth operation
  .ofExcept (accept operation response)

/-- `_request`. -/
def request (depth : ℕ) (operation : Str) (values : List (Str × JsonValue)) : Client Response := do
  match ← closed with
  | true => .throw (.transportError
      (codes "Serial agent exited before operation " ++ quoted operation))
  | false => exchange depth operation values

/-! ## The methods of the channel -/

def negotiate (depth : ℕ) : Client Str := do
  let response ← request depth (codes "hello") []
  match get response (codes "agent_version") with
  | some (.str (c :: version)) => pure (c :: version)
  | _ => .throw (.transportError (codes "Serial agent returned an invalid version"))

def «open» (depth : ℕ) (device : Str) (baudrate : ℤ) : Client Unit := do
  let _ ← request depth (codes "open") [(codes "device", .str device), (codes "baudrate", .int baudrate)]

/-- `written` is an integer, not a boolean, and the length of the payload. -/
def checkWritten (s : Bytes) (response : Response) : Except Raised Unit :=
  match get response (codes "written") with
  | some (.int n) =>
    if n = s.length then .ok () else .error (.partialWrite s.length (some (.int n)))
  | got => .error (.partialWrite s.length got)

def sendall (depth : ℕ) (s : Bytes) : Client Unit := do
  let response ← request depth (codes "write") [(codes "data", .str (Base64.encode s))]
  .ofExcept (checkWritten s response)

/-- The bytes of a read response. -/
def readData (response : Response) : Except Raised Bytes :=
  match get response (codes "data") with
  | some (.str encoded) =>
    match Base64.decode true encoded with
    | some bytes => .ok bytes
    | none => .error (.transportError (codes "Serial agent returned invalid Base64 data"))
  | _ => .error (.transportError (codes "Serial agent returned invalid read data"))

/-- `recv_ready` when the serial buffer is empty and the channel is not closed. -/
def poll (depth : ℕ) : Client Bool := do
  let response ← request depth (codes "read")
    [(codes "size", .int readSize), (codes "timeout", .float readTimeout)]
  let bytes ← .ofExcept (readData response)
  .call .buffers fun buffers =>
    .call (.setBuffers { buffers with serial := buffers.serial ++ bytes }) fun () =>
      pure (buffers.serial ++ bytes ≠ [] : Bool)

def recvReady (depth : ℕ) : Client Bool :=
  .call .buffers fun buffers =>
    match buffers.serial with
    | _ :: _ => pure true
    | [] => do
      match ← closed with
      | true => pure false
      | false => poll depth

/-- `buffer[:size]`: a negative size counts from the end. -/
def sliceTo (buffer : Bytes) (size : ℤ) : Bytes :=
  if 0 ≤ size then buffer.take size.toNat else buffer.take (buffer.length - size.natAbs)

/-- `del buffer[:size]`. -/
def sliceFrom (buffer : Bytes) (size : ℤ) : Bytes :=
  if 0 ≤ size then buffer.drop size.toNat else buffer.drop (buffer.length - size.natAbs)

def recv (nbytes : ℤ) : Client Bytes :=
  .call .buffers fun buffers =>
    let size := min nbytes buffers.serial.length
    .call (.setBuffers { buffers with serial := sliceFrom buffers.serial size }) fun () =>
      pure (sliceTo buffers.serial size)

def resetInput (depth : ℕ) : Client Unit :=
  .call .buffers fun buffers =>
    .call (.setBuffers { buffers with serial := [] }) fun () => do
      let _ ← request depth (codes "reset_input") []

/-- The `try` block of `close`. -/
def requestClose (depth : ℕ) : Client Unit := do
  match ← closed with
  | true => pure ()
  | false => do
    let _ ← request depth (codes "close") []

/-- `close`: a transport error of the request is passed over, and the SSH channel is closed always. -/
def close (depth : ℕ) : Client Unit :=
  ((requestClose depth).tryCatch fun
    | .transportError _ => pure ()
    | .transportTimeoutError _ => pure ()
    | .partialWrite _ _ => pure ()
    | e => .throw e).tryFinally (.call .close pure)

/-! ## The link -/

/-- The other side: what it writes for a line, given the lines it has received before. -/
abbrev Remote := List Bytes → Bytes → Bytes

/-- The connection at each moment: whether the exit status is available, whether a `sendall` fails, how
many passes a read loop makes, whether bytes have arrived, and how many of them a `recv` returns. -/
structure Weather where
  exited : ℕ → Bool
  broken : ℕ → Bool
  passes : ℕ → ℕ
  arrived : ℕ → Bool
  chunk : ℕ → ℕ

/-- The client's buffers, the clock of the weather, whether the channel is closed, the bytes that the
other side has written and the client has not received, and each line with what was written for it. -/
structure Link where
  buffers : Buffers
  clock : ℕ
  closed : Bool
  arriving : Bytes
  exchanges : List (Bytes × Bytes)
  deriving DecidableEq

namespace Link

def initial : Link := ⟨⟨[], []⟩, 0, false, [], []⟩

def tick (w : Link) : Link := { w with clock := w.clock + 1 }

/-- The lines that were sent. -/
def sent (w : Link) : List Bytes := w.exchanges.map Prod.fst

/-- A line is sent: the other side writes its answer behind what it has written before. -/
def deliver (remote : Remote) (s : Bytes) (w : Link) : Link :=
  { w with
    arriving := w.arriving ++ remote w.sent s
    exchanges := w.exchanges ++ [(s, remote w.sent s)] }

/-- The chunk that a `recv` returns: at least one byte when there are any. -/
def chunk (weather : Weather) (nbytes : ℕ) (w : Link) : Bytes :=
  w.arriving.take (min nbytes (weather.chunk w.clock + 1))

end Link

/-- The environment of the client. -/
def answer (weather : Weather) (remote : Remote) : (op : Op) → Link → Answer op × Link
  | .buffers, w => (w.buffers, w)
  | .setBuffers buffers, w => ((), { w with buffers := buffers })
  | .closed, w => (w.closed, w)
  | .exitStatusReady, w => (weather.exited w.clock, w.tick)
  | .sendall s, w =>
    -- a channel on which sending fails is closed from then on
    if weather.broken w.clock then (false, { w.tick with closed := true })
    else (true, (w.deliver remote s).tick)
  | .deadline, w => (weather.passes w.clock, w.tick)
  | .recvReady, w => (weather.arrived w.clock && !w.arriving.isEmpty, w.tick)
  | .recv nbytes, w =>
    (w.chunk weather nbytes, { w.tick with arriving := w.arriving.drop (w.chunk weather nbytes).length })
  | .close, w => ((), { w with closed := true })

end HardwareTest.Transport.SerialAgentChannel
