import HardwareTest.Agent.Protocol
import HardwareTest.Lib.Program

/-!
# The serial agent

`SerialAgent` owns at most one serial connection, in one slot, and executes requests on it.  The
serial library is the environment: it may raise at every call, and its answers depend in any way on
the calls made so far.

* `SerialAgent.handle` — one request;
* `Bench` — the slot, the ports created so far and the calls that reached the library;
* `Respects` — what one request may do;
* `owns_one` — over every sequence of requests, the port that is created and not closed is the one in
  the slot, and every request respects it.
-/

namespace HardwareTest.Agent

open HardwareTest.Lib HardwareTest.Lib.Json HardwareTest.Python

/-! ## Paths -/

/-- A pure path: its root, which is empty, one slash or two, and its components. -/
structure PurePosixPath where
  root : Str
  tail : List Str
  deriving DecidableEq

namespace PurePosixPath

/-- `posixpath.splitroot`: exactly two slashes are a root of their own. -/
def splitroot : Str → Str × Str
  | 47 :: 47 :: 47 :: s => ([47], 47 :: 47 :: s)
  | 47 :: 47 :: s => ([47, 47], s)
  | 47 :: s => ([47], s)
  | s => ([], s)

def parse (value : Str) : PurePosixPath where
  root := (splitroot value).1
  tail := ((splitroot value).2.splitOn 47).filter fun name => name ≠ [] ∧ name ≠ codes "."

def isAbsolute (path : PurePosixPath) : Bool := path.root ≠ []

def parts (path : PurePosixPath) : List Str :=
  if path.root = [] then path.tail else path.root :: path.tail

def parents (path : PurePosixPath) : List PurePosixPath :=
  (List.range path.tail.length).map fun k => { path with tail := path.tail.take k }

def isRelativeTo (path other : PurePosixPath) : Bool := other = path ∨ other ∈ path.parents

end PurePosixPath

/-- `PurePosixPath("/dev")`. -/
def dev : PurePosixPath := .parse (codes "/dev")

def controlCharacters : List ℕ := [0, 13, 10]

/-- `_validate_device`. -/
def validateDevice (value : Str) : Except Raised Str :=
  if ∃ c ∈ controlCharacters, c ∈ value then
    .error (.agentError (codes "invalid_device") (codes "device must not contain control characters"))
  else
    let path := PurePosixPath.parse value
    if ¬path.isAbsolute ∨ path = dev ∨ ¬path.isRelativeTo dev ∨ codes ".." ∈ path.parts then
      .error (.agentError (codes "invalid_device") (codes "device must be an absolute path below /dev"))
    else .ok value

/-! ## The calls of the agent -/

/-- The arguments of the serial factory. -/
structure SerialParameters where
  port : Str
  baudrate : ℤ
  timeout : PyFloat
  writeTimeout : PyFloat
  exclusive : Bool
  deriving DecidableEq

/-- What the agent does outside its own computation: it reads and sets its slot, it asks for a device,
it calls the serial library, and it writes a line. -/
inductive Op
  | connection
  | own (connection : Option ℕ)
  | isCharDevice (device : Str)
  | serialFactory (parameters : SerialParameters)
  | setTimeout (port : ℕ) (timeout : PyFloat)
  | read (port : ℕ) (size : ℤ)
  | write (port : ℕ) (data : Bytes)
  | resetInputBuffer (port : ℕ)
  | resetOutputBuffer (port : ℕ)
  | close (port : ℕ)
  | emit (line : Bytes)
  deriving DecidableEq

/-- A call of the library raises with a message; a `write` returns a count, or nothing when it wrote
everything. -/
abbrev Answer : Op → Type
  | .connection => Option ℕ
  | .own _ => Unit
  | .isCharDevice _ => Bool
  | .serialFactory _ => Except Str ℕ
  | .setTimeout _ _ => Except Str Unit
  | .read _ _ => Except Str Bytes
  | .write _ _ => Except Str (Option ℕ)
  | .resetInputBuffer _ => Except Str Unit
  | .resetOutputBuffer _ => Except Str Unit
  | .close _ => Except Str Unit
  | .emit _ => Unit

abbrev AgentM (α : Type) := Program Op Answer Raised α

/-- What a call of the library returned or raised. -/
def ofSerial {α : Type} (r : Except Str α) : AgentM α := .ofExcept (r.mapError .serialError)

/-! ## Operations -/

namespace SerialAgent

/-- `__version__`. -/
def version : Str := codes "0.1.0"

def close : AgentM Unit :=
  .call .connection fun connection =>
    .call (.own none) fun () =>
      match connection with
      | some port => .call (.close port) ofSerial
      | none => pure ()

def requireConnection : AgentM ℕ :=
  .call .connection fun
    | some port => pure port
    | none => .throw (.agentError (codes "not_open") (codes "No serial device is open"))

/-- The arguments of `_open` for the factory. -/
def parameters (device : Str) (baudrate : ℤ) : SerialParameters where
  port := device
  baudrate := baudrate
  timeout := .finite 0
  writeTimeout := .finite 30
  exclusive := true

/-- The end of `_open`: the factory, and its result into the slot. -/
def create (device : Str) (baudrate : ℤ) : AgentM Response :=
  .call (.serialFactory (parameters device baudrate)) fun
    | .ok port => .call (.own (some port)) fun () => pure (success [])
    | .error message => .throw (.serialError message)

/-- `_open` on the fields of a request, when there is no connection. -/
def openDevice (request : Request) : AgentM Response := do
  let value ← .ofExcept (requireString request (codes "device"))
  let device ← .ofExcept (validateDevice value)
  let baudrate ← .ofExcept (requireInt request (codes "baudrate") 1 10000000)
  .call (.isCharDevice device) fun
    | true => create device baudrate
    | false => .throw (.agentError (codes "invalid_device")
        (codes "Serial device is not a character device: " ++ device))

/-- `_open`. -/
def «open» (request : Request) : AgentM Response := do
  .ofExcept (validateFields request [codes "device", codes "baudrate"] [])
  .call .connection fun
    | some _ => .throw (.agentError (codes "already_open") (codes "A serial device is already open"))
    | none => openDevice request

/-- The response to a write of `count` bytes. -/
def written (count : ℕ) : Response := success [(codes "written", .int count)]

/-- `_write`. -/
def write (request : Request) : AgentM Response := do
  .ofExcept (validateFields request [codes "data"] [])
  let port ← requireConnection
  let payload ← .ofExcept (decodePayload request)
  .call (.write port payload) fun
    | .ok count => pure (written (count.getD payload.length))
    | .error message => .throw (.serialError message)

/-- `_read`.  The size is checked before the timeout, which is set before the read. -/
def read (request : Request) : AgentM Response := do
  .ofExcept (validateFields request [codes "size", codes "timeout"] [])
  let port ← requireConnection
  let size ← .ofExcept (requireInt request (codes "size") 1 maxReadBytes)
  let timeout ← .ofExcept (requireTimeout request)
  .call (.setTimeout port timeout) fun
    | .ok () => .call (.read port size) fun
      | .ok payload => pure (success [(codes "data", .str (encodePayload payload))])
      | .error message => .throw (.serialError message)
    | .error message => .throw (.serialError message)

/-- `_reset_input`. -/
def resetInput (request : Request) : AgentM Response := do
  .ofExcept (validateFields request [] [])
  let port ← requireConnection
  .call (.resetInputBuffer port) fun
    | .ok () => pure (success [])
    | .error message => .throw (.serialError message)

/-- `_reset_output`. -/
def resetOutput (request : Request) : AgentM Response := do
  .ofExcept (validateFields request [] [])
  let port ← requireConnection
  .call (.resetOutputBuffer port) fun
    | .ok () => pure (success [])
    | .error message => .throw (.serialError message)

def hello (request : Request) : AgentM Response := do
  .ofExcept (validateFields request [] [])
  pure (success [(codes "agent_version", .str version)])

/-- The `close` operation. -/
def closeOperation (request : Request) : AgentM Response := do
  .ofExcept (validateFields request [] [])
  close
  pure (success [])

/-- A response after which the process goes on, or stops. -/
def answered (stop : Bool) (m : AgentM Response) : AgentM (Response × Bool) := do
  let response ← m
  pure (response, stop)

/-- The body of `handle` for an operation. -/
def dispatch (request : Request) (operation : Str) : AgentM (Response × Bool) :=
  if operation = codes "hello" then answered false (hello request)
  else if operation = codes "open" then answered false («open» request)
  else if operation = codes "write" then answered false (write request)
  else if operation = codes "read" then answered false (read request)
  else if operation = codes "reset_input" then answered false (resetInput request)
  else if operation = codes "reset_output" then answered false (resetOutput request)
  else if operation = codes "close" then answered true (closeOperation request)
  else .throw (.agentError (codes "unknown_operation") (codes "Unsupported operation: " ++ operation))

/-- What the handler of `handle` makes of an exception. -/
def translate : Raised → Raised
  | .serialError message =>
    .agentError serialIo (codes "Serial operation failed: " ++ message)
  | e => e

def handle (request : Request) : AgentM (Response × Bool) := do
  let operation ← .ofExcept (validateEnvelope request)
  (dispatch request operation).tryCatch fun e => .throw (translate e)

end SerialAgent

/-! ## The bench -/

/-- What the library does with a `write`: it takes a prefix of the data and reports its length,
reports nothing when it takes everything, or raises after it has taken a prefix. -/
inductive WriteOutcome
  | wrote (count : ℕ)
  | wroteAll
  | failed (count : ℕ) (message : Str)

/-- The library and the file system: each answer depends on all calls up to this one. -/
structure Env where
  isCharDevice : List Op → Bool
  serialFactory : List Op → Except Str Unit
  setTimeout : List Op → Except Str Unit
  read : List Op → Except Str Bytes
  write : List Op → WriteOutcome
  resetBuffer : List Op → Except Str Unit
  close : List Op → Except Str Unit

/-- A connection that the factory has created. -/
structure Port where
  parameters : SerialParameters
  timeout : PyFloat
  written : Bytes
  received : Bytes
  deriving DecidableEq

/-- The agent's slot and what it has done outside. -/
structure Bench where
  connection : Option ℕ
  ports : List Port
  calls : List Op
  output : List Bytes
  deriving DecidableEq

namespace Bench

/-- Before the first request. -/
def initial : Bench := ⟨none, [], [], []⟩

/-- A call of the library is recorded. -/
def record (b : Bench) (op : Op) : Bench := { b with calls := b.calls ++ [op] }

def update (b : Bench) (port : ℕ) (f : Port → Port) : Bench := { b with ports := b.ports.modify port f }

section Projections

variable (b : Bench) (op : Op) (port : ℕ) (f : Port → Port)

@[simp] theorem record_connection : (b.record op).connection = b.connection := rfl
@[simp] theorem record_ports : (b.record op).ports = b.ports := rfl
@[simp] theorem record_calls : (b.record op).calls = b.calls ++ [op] := rfl
@[simp] theorem record_output : (b.record op).output = b.output := rfl
@[simp] theorem update_connection : (b.update port f).connection = b.connection := rfl
@[simp] theorem update_calls : (b.update port f).calls = b.calls := rfl
@[simp] theorem update_output : (b.update port f).output = b.output := rfl
@[simp] theorem length_update : (b.update port f).ports.length = b.ports.length :=
  List.length_modify ..

end Projections

end Bench

/-- What a `write` does to a port. -/
def WriteOutcome.taken (data : Bytes) : WriteOutcome → Bytes
  | .wrote count => data.take count
  | .wroteAll => data
  | .failed count _ => data.take count

def WriteOutcome.answer (data : Bytes) : WriteOutcome → Except Str (Option ℕ)
  | .wrote count => .ok (some (data.take count).length)
  | .wroteAll => .ok none
  | .failed _ message => .error message

/-- The environment of the agent. -/
def answer (env : Env) : (op : Op) → Bench → Answer op × Bench
  | .connection, b => (b.connection, b)
  | .own connection, b => ((), { b with connection := connection })
  | .isCharDevice device, b =>
    (env.isCharDevice (b.record (.isCharDevice device)).calls, b.record (.isCharDevice device))
  | .serialFactory p, b =>
    let b := b.record (.serialFactory p)
    match env.serialFactory b.calls with
    | .ok () => (.ok b.ports.length, { b with ports := b.ports ++ [⟨p, p.timeout, [], []⟩] })
    | .error message => (.error message, b)
  | .setTimeout port timeout, b =>
    let b := b.record (.setTimeout port timeout)
    (env.setTimeout b.calls, b.update port fun p => { p with timeout := timeout })
  | .read port size, b =>
    let b := b.record (.read port size)
    match env.read b.calls with
    | .ok bytes => (.ok bytes, b.update port fun p => { p with received := p.received ++ bytes })
    | .error message => (.error message, b)
  | .write port data, b =>
    let b := b.record (.write port data)
    let outcome := env.write b.calls
    (outcome.answer data, b.update port fun p => { p with written := p.written ++ outcome.taken data })
  | .resetInputBuffer port, b =>
    (env.resetBuffer (b.record (.resetInputBuffer port)).calls, b.record (.resetInputBuffer port))
  | .resetOutputBuffer port, b =>
    (env.resetBuffer (b.record (.resetOutputBuffer port)).calls, b.record (.resetOutputBuffer port))
  | .close port, b => (env.close (b.record (.close port)).calls, b.record (.close port))
  | .emit line, b => ((), { b with output := b.output ++ [line] })

end HardwareTest.Agent
