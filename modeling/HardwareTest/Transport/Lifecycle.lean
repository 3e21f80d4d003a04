import HardwareTest.Lib.Program
import HardwareTest.Lib.Transition
import HardwareTest.Transport.Console

/-!
# Connecting and closing the transports

The four transports keep a client, a channel and a console in fields, and decide by these fields
whether they are connected.  Each `connect` calls the SSH client, the channel, the serial port and the
console, and every one of these calls may raise; what a call answers is the `Environment` of one
`connect`, `execute` or `close`.

* `Kind.connect`, `Kind.close`, `Kind.execute` — the methods of the four classes;
* `Restored` — what a `connect` that raises should leave behind: no field set, and every client and
  port it created closed;
* `restored_iff` — when it does, in every sequence of calls.
-/

namespace HardwareTest.Transport.Lifecycle

open HardwareTest.Lib HardwareTest.Python HardwareTest.Transport

/-- What a call raises, by the classes that the handlers tell apart.  `interrupt` stands for what is
not an `Exception`. -/
inductive Raised
  | transportError (message : Text)
  | osError (message : Text)
  | otherException (message : Text)
  | interrupt
  deriving DecidableEq

namespace Raised

/-- An instance of `Exception`. -/
def isException : Raised → Bool
  | .interrupt => false
  | _ => true

/-- An instance of `OSError`; `serial.SerialException` is a subclass of it. -/
def isOSError : Raised → Bool
  | .osError _ => true
  | _ => false

def isTransportError : Raised → Bool
  | .transportError _ => true
  | _ => false

end Raised

inductive SshHostKeyPolicy
  | reject
  | acceptNew
  | warning
  deriving DecidableEq

/-- What a transport is created with.  `knownHostsPath` is the path after `expanduser`. -/
structure Config where
  hostKeyPolicy : SshHostKeyPolicy
  knownHostsPath : Option Text
  serialDevice : Text
  baudrate : ℤ
  serialAgentCommand : Text

inductive Kind
  | picocomOverSsh
  | pySerialOverSsh
  | pySerial
  | ssh
  deriving DecidableEq

/-- The fields of a transport, and its SSH clients and serial ports: how many were created, numbered
from zero, and on which of them `close` was called.  A channel goes by the number of its client or
port, and a console by its channel. -/
structure State where
  client : Option ℕ
  channel : Option ℕ
  console : Option ℕ
  created : ℕ
  closed : List ℕ
  deriving DecidableEq

/-- A transport after its construction. -/
def State.fresh : State where
  client := none
  channel := none
  console := none
  created := 0
  closed := []

/-! ## Calls -/

/-- A call whose result is not used. -/
inductive Action
  | loadSystemHostKeys
  | loadHostKeys (path : Text)
  | setMissingHostKeyPolicy (policy : SshHostKeyPolicy)
  | clientConnect
  | clientExecCommand (command : Text)
  | recvExitStatus
  | getTransport
  | openSession
  | getPty
  | execCommand (command : Text)
  | negotiate
  | openDevice (device : Text) (baudrate : ℤ)
  | requestClose
  | channelSendall (bytes : Bytes)
  | channelClose
  | prepare
  deriving DecidableEq

/-- A question about the state of a connection. -/
inductive Question
  | exitStatusZero
  | transportActive
  | channelClosed
  deriving DecidableEq

/-- A command, by the classes that the transports tell apart. -/
inductive Command
  | unix (command : UnixCommand)
  | text (query : Text)
  | other (typeName : Text)

def Command.typeName : Command → Text
  | .unix _ => "UnixCommand".toList
  | .text _ => "TextCommand".toList
  | .other typeName => typeName

/-- What a method of a transport calls; `self` and `setSelf` read and write its fields. -/
inductive Op
  | self
  | setSelf (client channel console : Option ℕ)
  | create
  | act (a : Action)
  | ask (q : Question)
  | readStderr
  | close (resource : ℕ)
  | run (command : Command)

def Op.Answer : Op → Type
  | .self => State
  | .setSelf .. => Unit
  | .create => Except Raised ℕ
  | .act _ => Except Raised Unit
  | .ask _ => Bool
  | .readStderr => Except Raised Text
  | .close _ => Except Raised Unit
  | .run _ => Except Raised CommandResult

abbrev Method (α : Type) := Program Op Op.Answer Raised α

def self : Method State := .call .self pure

def setSelf (client channel console : Option ℕ) : Method Unit := .call (.setSelf client channel console) pure

/-- `paramiko.SSHClient()` or `serial.Serial(...)`. -/
def create : Method ℕ := .call .create Program.ofExcept

def act (a : Action) : Method Unit := .call (.act a) Program.ofExcept

def ask (q : Question) : Method Bool := .call (.ask q) pure

def readStderr : Method Text := .call .readStderr Program.ofExcept

/-- `close()` of an SSH client or a serial port. -/
def closeResource (resource : ℕ) : Method Unit := .call (.close resource) Program.ofExcept

def runCommand (command : Command) : Method CommandResult := .call (.run command) Program.ofExcept

/-! ## The methods -/

def loadKnownHosts (config : Config) : Method Unit :=
  match config.knownHostsPath with
  | none => pure ()
  | some path =>
    (act (.loadHostKeys path)).tryCatch fun e =>
      if e.isOSError then .throw (.transportError ("Cannot load SSH known-hosts file: ".toList ++ path))
      else .throw e

def setHostKeyPolicy (config : Config) : Method Unit :=
  match config.hostKeyPolicy, config.knownHostsPath with
  | .reject, _ => act (.setMissingHostKeyPolicy .reject)
  | .acceptNew, none =>
    .throw (.transportError
      "SSH host-key policy 'accept_new' requires ssh_known_hosts_path".toList)
  | .acceptNew, some _ => act (.setMissingHostKeyPolicy .acceptNew)
  | .warning, _ => act (.setMissingHostKeyPolicy .warning)

def configureHostKeyPolicy (config : Config) : Method Unit := do
  act .loadSystemHostKeys
  loadKnownHosts config
  setHostKeyPolicy config

/-- `client.get_transport()`, which must be there and active. -/
def activeTransport (message : Text) : Method Unit := do
  act .getTransport
  if ← ask .transportActive then pure () else .throw (.transportError message)

/-- Their `except Exception` of `connect`. -/
def undoConnect (client : ℕ) (channelClose : Method Unit) (e : Raised) : Method Unit :=
  if e.isException then do
    if (← self).channel.isSome then channelClose
    setSelf none none none
    closeResource client
    .throw e
  else .throw e

/-- `connect` of the two transports that reach their channel over SSH.  `opening` makes the calls up to
the assignment of the fields; `prepare` assigns them and prepares the console. -/
def connectOverSsh (config : Config) (opening : Method Unit) (prepare : ℕ → Method Unit)
    (channelClose : Method Unit) : Method Unit := do
  if (← self).client.isSome then pure ()
  else do
    let client ← create
    configureHostKeyPolicy config
    Program.tryCatch
      (do
        opening
        prepare client)
      (undoConnect client channelClose)

/-- `close` of the two transports: the channel, and the client in any case. -/
def closeOverSsh (channelClose : Method Unit) : Method Unit := do
  let s ← self
  setSelf none none none
  Program.tryFinally
    (if s.channel.isSome then channelClose else pure ())
    (match s.client with
      | none => pure ()
      | some client => closeResource client)

namespace Picocom

def verifySerialDevice (config : Config) : Method Unit := do
  let path := quote config.serialDevice
  act (.clientExecCommand ("test -c ".toList ++ path ++ " && test -r ".toList ++ path
    ++ " && test -w ".toList ++ path))
  act .recvExitStatus
  if ← ask .exitStatusZero then pure ()
  else do
    let detail := strip (← readStderr)
    let suffix := if detail = [] then [] else ": ".toList ++ detail
    .throw (.transportError ("Serial device is unavailable: ".toList ++ config.serialDevice ++ suffix))

def picocomCommand (config : Config) : Text :=
  "picocom --quiet --baud ".toList ++ str config.baudrate ++ " ".toList ++ quote config.serialDevice

/-- `RuntimeError`. -/
def notConnected : Raised :=
  .otherException "Picocom-over-SSH transport is not connected".toList

/-- The console session of an open channel, created when there is none. -/
def consoleSession : Method ℕ := do
  let s ← self
  match s.channel with
  | none => .throw notConnected
  | some channel =>
    if ← ask .channelClosed then .throw notConnected
    else match s.console with
      | some console => pure console
      | none => do
        setSelf s.client s.channel (some channel)
        pure channel

def opening (config : Config) : Method Unit := do
  act .clientConnect
  verifySerialDevice config
  activeTransport "SSH connection became inactive before picocom started".toList
  act .openSession
  act .getPty
  act (.execCommand (picocomCommand config))

/-- The fields are assigned; `_prepare_console` creates the console. -/
def prepare (client : ℕ) : Method Unit := do
  let s ← self
  setSelf (some client) (some client) s.console
  let _ ← consoleSession
  act .prepare

def connect (config : Config) : Method Unit :=
  connectOverSsh config (opening config) prepare (act .channelClose)

/-- The exit sequence of picocom, on an open channel. -/
def sendExit : Method Unit := do
  if ← ask .channelClosed then pure () else act (.channelSendall [0x01, 0x18])

def channelClose : Method Unit := do
  sendExit
  act .channelClose

def close : Method Unit := closeOverSsh channelClose

def execute (command : Command) : Method CommandResult :=
  match command with
  | .unix _ => do
    let _ ← consoleSession
    runCommand command
  | _ => .throw (.transportError
      ("PicocomOverSshTransport does not support ".toList ++ command.typeName))

end Picocom

namespace PySerialOverSsh

/-- `RuntimeError`. -/
def notConnected : Raised := .otherException "PySerial-over-SSH transport is not connected".toList

/-- `SerialAgentChannel.close`. -/
def channelClose : Method Unit :=
  Program.tryFinally
    (Program.tryCatch
      (do if ← ask .channelClosed then pure () else act .requestClose)
      fun e => if e.isTransportError then pure () else .throw e)
    (act .channelClose)

def opening (config : Config) : Method Unit := do
  act .clientConnect
  activeTransport "SSH connection became inactive before serial agent started".toList
  act .openSession
  act (.execCommand (quote config.serialAgentCommand))
  act .negotiate
  act (.openDevice config.serialDevice config.baudrate)

def prepare (client : ℕ) : Method Unit := do
  setSelf (some client) (some client) (some client)
  act .prepare

def connect (config : Config) : Method Unit :=
  connectOverSsh config (opening config) prepare channelClose

def close : Method Unit := closeOverSsh channelClose

def execute (command : Command) : Method CommandResult :=
  match command with
  | .unix _ => do
    if (← self).console.isNone then .throw notConnected else runCommand command
  | _ => .throw (.transportError
      ("PySerialOverSshTransport does not support ".toList ++ command.typeName))

end PySerialOverSsh

namespace PySerial

/-- `RuntimeError`. -/
def notConnected : Raised := .otherException "PySerial transport is not connected".toList

def closeFailed : Raised := .transportError "Serial close failed".toList

/-- `PySerialChannel.close`. -/
def channelClose (port : ℕ) : Method Unit :=
  (closeResource port).tryCatch fun e => if e.isOSError then .throw closeFailed else .throw e

def close : Method Unit := do
  let s ← self
  setSelf s.client none none
  match s.channel with
  | none => pure ()
  | some port => channelClose port

/-- `self._channel is not None and not self._channel.closed`. -/
def isOpen : Method Bool := do
  if (← self).channel.isSome then return !(← ask .channelClosed) else pure false

/-- The port is opened, the fields are assigned, and the console is prepared. -/
def openPort : Method Unit := do
  let port ← create
  let s ← self
  setSelf s.client (some port) (some port)
  act .prepare

/-- The two handlers of `connect`. -/
def undoConnect (config : Config) (e : Raised) : Method Unit :=
  if e.isOSError then do
    close
    .throw (.transportError ("Cannot open serial device: ".toList ++ config.serialDevice))
  else if e.isException then do
    close
    .throw e
  else .throw e

def connect (config : Config) : Method Unit := do
  if ← isOpen then pure () else openPort.tryCatch (undoConnect config)

def execute (command : Command) : Method CommandResult :=
  match command with
  | .unix _ => do
    if (← self).console.isNone then .throw notConnected else runCommand command
  | _ => .throw (.transportError ("PySerialTransport does not support ".toList ++ command.typeName))

end PySerial

namespace SSH

/-- `RuntimeError`. -/
def notConnected : Raised := .otherException "SSH transport is not connected".toList

def connect (config : Config) : Method Unit := do
  if (← self).client.isSome then pure ()
  else do
    let client ← create
    configureHostKeyPolicy config
    act .clientConnect
    let s ← self
    setSelf (some client) s.channel s.console

def close : Method Unit := do
  let s ← self
  match s.client with
  | none => pure ()
  | some client => do
    closeResource client
    setSelf none s.channel s.console

def execute (command : Command) : Method CommandResult :=
  match command with
  | .other typeName => .throw (.transportError ("SSHTransport does not support ".toList ++ typeName))
  | _ => do
    if (← self).client.isNone then .throw notConnected else runCommand command

end SSH

namespace Kind

def connect (config : Config) : Kind → Method Unit
  | .picocomOverSsh => Picocom.connect config
  | .pySerialOverSsh => PySerialOverSsh.connect config
  | .pySerial => PySerial.connect config
  | .ssh => SSH.connect config

def close : Kind → Method Unit
  | .picocomOverSsh => Picocom.close
  | .pySerialOverSsh => PySerialOverSsh.close
  | .pySerial => PySerial.close
  | .ssh => SSH.close

def execute (command : Command) : Kind → Method CommandResult
  | .picocomOverSsh => Picocom.execute command
  | .pySerialOverSsh => PySerialOverSsh.execute command
  | .pySerial => PySerial.execute command
  | .ssh => SSH.execute command

end Kind

/-! ## Environments and sequences of calls -/

/-- What the calls of one `connect`, `execute` or `close` answer. -/
structure Environment where
  create : Except Raised Unit
  act : Action → Except Raised Unit
  ask : Question → Bool
  readStderr : Except Raised Text
  close : Except Raised Unit
  run : Except Raised CommandResult

/-- The fields are read and written, resources are numbered, and a call of `close` is recorded also
when it raises. -/
def answer (env : Environment) : (op : Op) → State → op.Answer × State
  | .self, s => (s, s)
  | .setSelf client channel console, s =>
    ((), { s with client := client, channel := channel, console := console })
  | .create, s =>
    match env.create with
    | .ok () => (.ok s.created, { s with created := s.created + 1 })
    | .error e => (.error e, s)
  | .act a, s => (env.act a, s)
  | .ask q, s => (env.ask q, s)
  | .readStderr, s => (env.readStderr, s)
  | .close resource, s => (env.close, { s with closed := s.closed ++ [resource] })
  | .run _, s => (env.run, s)

inductive Event
  | connect (env : Environment)
  | execute (env : Environment) (command : Command)
  | close (env : Environment)

/-- One call of a transport, which returns or raises. -/
def step (config : Config) (kind : Kind) (s : State) : Event → Option State
  | .connect env => some ((kind.connect config).eval (answer env) s).2
  | .execute env command => some ((kind.execute command).eval (answer env) s).2
  | .close env => some (kind.close.eval (answer env) s).2

/-- What a `connect` that raises should leave behind. -/
structure Restored (before after : State) : Prop where
  client : after.client = none
  channel : after.channel = none
  console : after.console = none
  released : ∀ resource, before.created ≤ resource → resource < after.created →
    resource ∈ after.closed

/-! ## Evaluation -/

section Evaluation

variable {α β : Type} {env : Environment} {s : State}

@[simp] theorem exec_self : self.eval (answer env) s = (.ok s, s) := rfl

@[simp] theorem exec_setSelf (client channel console : Option ℕ) :
    (setSelf client channel console).eval (answer env) s
      = (.ok (), { s with client := client, channel := channel, console := console }) := rfl

@[simp] theorem exec_act (a : Action) : (act a).eval (answer env) s = (env.act a, s) :=
  Program.eval_ofExcept (answer env) (env.act a) s

@[simp] theorem exec_ask (q : Question) : (ask q).eval (answer env) s = (.ok (env.ask q), s) := rfl

@[simp] theorem exec_readStderr : readStderr.eval (answer env) s = (env.readStderr, s) :=
  Program.eval_ofExcept (answer env) env.readStderr s

@[simp] theorem exec_runCommand (command : Command) :
    (runCommand command).eval (answer env) s = (env.run, s) :=
  Program.eval_ofExcept (answer env) env.run s

@[simp] theorem exec_closeResource (resource : ℕ) :
    (closeResource resource).eval (answer env) s
      = (env.close, { s with closed := s.closed ++ [resource] }) :=
  Program.eval_ofExcept (answer env) env.close _

theorem exec_create_ok (h : env.create = .ok ()) :
    create.eval (answer env) s = (.ok s.created, { s with created := s.created + 1 }) := by
  refine (Program.eval_ofExcept (answer env) (answer env .create s).1 _).trans ?_
  simp [answer, h]

theorem exec_create_error {e : Raised} (h : env.create = .error e) :
    create.eval (answer env) s = (.error e, s) := by
  refine (Program.eval_ofExcept (answer env) (answer env .create s).1 _).trans ?_
  simp [answer, h]

/-- A method that neither reads nor writes the fields, and creates and closes nothing. -/
def Quiet (m : Method α) : Prop := ∀ env, ∃ r, ∀ s, m.eval (answer env) s = (r, s)

/-- What such a method returns or raises. -/
def outcome (env : Environment) (m : Method α) : Except Raised α := (m.eval (answer env) .fresh).1

theorem Quiet.exec_eq {m : Method α} (h : Quiet m) (env : Environment) (s : State) :
    m.eval (answer env) s = (outcome env m, s) := by
  obtain ⟨r, hr⟩ := h env
  rw [outcome, hr, hr]

theorem quiet_pure (a : α) : Quiet (pure a : Method α) := fun _ => ⟨_, fun _ => rfl⟩

theorem quiet_throw (e : Raised) : Quiet (.throw e : Method α) := fun _ => ⟨_, fun _ => rfl⟩

theorem quiet_act (a : Action) : Quiet (act a) := fun _ => ⟨_, fun _ => exec_act a⟩

theorem quiet_ask (q : Question) : Quiet (ask q) := fun _ => ⟨_, fun _ => exec_ask q⟩

theorem quiet_readStderr : Quiet readStderr := fun _ => ⟨_, fun _ => exec_readStderr⟩

theorem Quiet.bind {m : Method β} {f : β → Method α} (hm : Quiet m) (hf : ∀ b, Quiet (f b)) :
    Quiet (m >>= f) := by
  intro env
  obtain ⟨r, hr⟩ := hm env
  cases r with
  | ok b =>
    obtain ⟨r', hr'⟩ := hf b env
    exact ⟨r', fun s => by rw [Program.eval_bind, hr]; exact hr' s⟩
  | error e => exact ⟨.error e, fun s => by rw [Program.eval_bind, hr]⟩

theorem Quiet.tryCatch {m : Method α} {handler : Raised → Method α} (hm : Quiet m)
    (hh : ∀ e, Quiet (handler e)) : Quiet (m.tryCatch handler) := by
  intro env
  obtain ⟨r, hr⟩ := hm env
  cases r with
  | ok a => exact ⟨.ok a, fun s => by rw [Program.eval_tryCatch, hr]⟩
  | error e =>
    obtain ⟨r', hr'⟩ := hh e env
    exact ⟨r', fun s => by rw [Program.eval_tryCatch, hr]; exact hr' s⟩

theorem Quiet.tryFinally {m : Method α} {cleanup : Method Unit} (hm : Quiet m)
    (hc : Quiet cleanup) : Quiet (m.tryFinally cleanup) := by
  intro env
  obtain ⟨r, hr⟩ := hm env
  obtain ⟨c, hc⟩ := hc env
  cases c with
  | ok _ => exact ⟨r, fun s => by rw [Program.eval_tryFinally, hr]; simp only [hc]⟩
  | error e => exact ⟨.error e, fun s => by rw [Program.eval_tryFinally, hr]; simp only [hc]⟩

theorem Quiet.ite {p : Prop} [Decidable p] {m m' : Method α} (h : Quiet m) (h' : Quiet m') :
    Quiet (if p then m else m') := by
  by_cases hp : p
  · rwa [if_pos hp]
  · rwa [if_neg hp]

end Evaluation

theorem quiet_setHostKeyPolicy (config : Config) : Quiet (setHostKeyPolicy config) := by
  unfold setHostKeyPolicy
  split
  · exact quiet_act _
  · exact quiet_throw _
  · exact quiet_act _
  · exact quiet_act _

theorem quiet_loadKnownHosts (config : Config) : Quiet (loadKnownHosts config) := by
  unfold loadKnownHosts
  split
  · exact quiet_pure _
  · exact (quiet_act _).tryCatch fun e => (quiet_throw _).ite (quiet_throw _)

theorem quiet_configureHostKeyPolicy (config : Config) : Quiet (configureHostKeyPolicy config) :=
  (quiet_act _).bind fun _ => (quiet_loadKnownHosts config).bind fun _ => quiet_setHostKeyPolicy config

theorem quiet_activeTransport (message : Text) : Quiet (activeTransport message) :=
  (quiet_act _).bind fun _ => (quiet_ask _).bind fun _ => (quiet_pure _).ite (quiet_throw _)

theorem Picocom.quiet_opening (config : Config) : Quiet (Picocom.opening config) :=
  (quiet_act _).bind fun _ =>
    Quiet.bind
      ((quiet_act _).bind fun _ => (quiet_act _).bind fun _ => (quiet_ask _).bind fun _ =>
        (quiet_pure _).ite (quiet_readStderr.bind fun _ => quiet_throw _)) fun _ =>
    (quiet_activeTransport _).bind fun _ => (quiet_act _).bind fun _ => (quiet_act _).bind fun _ =>
      quiet_act _

theorem PySerialOverSsh.quiet_opening (config : Config) : Quiet (PySerialOverSsh.opening config) :=
  (quiet_act _).bind fun _ => (quiet_activeTransport _).bind fun _ => (quiet_act _).bind fun _ =>
    (quiet_act _).bind fun _ => (quiet_act _).bind fun _ => quiet_act _

theorem PySerialOverSsh.quiet_channelClose : Quiet PySerialOverSsh.channelClose :=
  Quiet.tryFinally
    (((quiet_ask _).bind fun _ => (quiet_pure _).ite (quiet_act _)).tryCatch fun _ =>
      (quiet_pure _).ite (quiet_throw _))
    (quiet_act _)

/-! ## Connecting over SSH -/

/-- The exception that leaves a handler which closes a resource and raises `e` again. -/
def reraised (e : Raised) : Except Raised Unit → Raised
  | .ok () => e
  | .error e' => e'

/-- `connectOverSsh` by the answers to its calls, from a transport that is not connected. -/
def connectResult (created configured opened prepared channelClosed closed : Except Raised Unit)
    (console : Option ℕ) (s : State) : Except Raised Unit × State :=
  match created, configured, opened, prepared, channelClosed with
  | .error e, _, _, _, _ => (.error e, s)
  | .ok _, .error e, _, _, _ => (.error e, { s with created := s.created + 1 })
  | .ok _, .ok _, .error e, _, _ =>
    if e.isException then
      (.error (reraised e closed),
        { s with created := s.created + 1, closed := s.closed ++ [s.created] })
    else (.error e, { s with created := s.created + 1 })
  | .ok _, .ok _, .ok _, .ok _, _ =>
    (.ok (), { s with
      client := some s.created, channel := some s.created, console := console
      created := s.created + 1 })
  | .ok _, .ok _, .ok _, .error e, .error e' =>
    (.error (if e.isException then e' else e), { s with
      client := some s.created, channel := some s.created, console := console
      created := s.created + 1 })
  | .ok _, .ok _, .ok _, .error e, .ok _ =>
    if e.isException then
      (.error (reraised e closed),
        { s with created := s.created + 1, closed := s.closed ++ [s.created] })
    else (.error e, { s with
      client := some s.created, channel := some s.created, console := console
      created := s.created + 1 })

section ConnectOverSsh

variable {config : Config} {opening : Method Unit} {prepare : ℕ → Method Unit}
  {channelClose : Method Unit} {env : Environment} {s : State}

theorem undoConnect_eval_interrupt {e : Raised} (h : e.isException = false) (client : ℕ) :
    (undoConnect client channelClose e).eval (answer env) s = (.error e, s) := by
  simp [undoConnect, h]

theorem undoConnect_eval_error {e e' : Raised} (h : e.isException = true) (hs : s.channel.isSome)
    (hclose : Quiet channelClose) (he : outcome env channelClose = .error e') (client : ℕ) :
    (undoConnect client channelClose e).eval (answer env) s = (.error e', s) := by
  simp [undoConnect, h, hs, hclose.exec_eq, he]

/-- Without a channel, or when closing it does not raise, the fields are cleared and the client is
closed. -/
theorem undoConnect_eval {e : Raised} (h : e.isException = true)
    (hs : s.channel.isSome → outcome env channelClose = .ok ()) (hclose : Quiet channelClose)
    (client : ℕ) :
    (undoConnect client channelClose e).eval (answer env) s
      = (.error (reraised e env.close), { s with
          client := none, channel := none, console := none
          closed := s.closed ++ [client] }) := by
  cases hchannel : s.channel with
  | none => cases hc : env.close <;> simp [undoConnect, h, hchannel, hc, reraised]
  | some channel =>
    have := hs (by rw [hchannel]; rfl)
    cases hc : env.close <;> simp [undoConnect, h, hchannel, hc, hclose.exec_eq, this, reraised]

theorem connectOverSsh_connected (h : s.client.isSome) :
    (connectOverSsh config opening prepare channelClose).eval (answer env) s = (.ok (), s) := by
  simp [connectOverSsh, h]

theorem connectOverSsh_eval (hclient : s.client = none) (hchannel : s.channel = none)
    (hconsole : s.console = none) (hopening : Quiet opening) (hclose : Quiet channelClose)
    {r : Except Raised Unit} {console : Option ℕ}
    (hprepare : (prepare s.created).eval (answer env) { s with created := s.created + 1 }
      = (r, { s with
          client := some s.created, channel := some s.created, console := console
          created := s.created + 1 })) :
    (connectOverSsh config opening prepare channelClose).eval (answer env) s
      = connectResult env.create (outcome env (configureHostKeyPolicy config)) (outcome env opening) r
          (outcome env channelClose) env.close console s := by
  have hconfigure := (quiet_configureHostKeyPolicy config).exec_eq env
  obtain ⟨client, channel, _, created, closed⟩ := s
  cases hclient
  cases hchannel
  cases hconsole
  cases hcreate : env.create with
  | error e => simp [connectOverSsh, exec_create_error hcreate, connectResult]
  | ok _ =>
    cases hconf : outcome env (configureHostKeyPolicy config) with
    | error e => simp [connectOverSsh, exec_create_ok hcreate, connectResult, hconfigure, hconf]
    | ok _ =>
      cases hopen : outcome env opening with
      | error e =>
        cases he : e.isException <;>
          simp [connectOverSsh, exec_create_ok hcreate, connectResult, hconfigure, hconf,
            hopening.exec_eq, hopen, he, undoConnect_eval_interrupt, undoConnect_eval, hclose]
      | ok _ =>
        cases r with
        | ok _ =>
          simp [connectOverSsh, exec_create_ok hcreate, connectResult, hconfigure, hconf,
            hopening.exec_eq, hopen, hprepare]
        | error e =>
          cases he : e.isException <;> cases hchannel : outcome env channelClose <;>
            simp [connectOverSsh, exec_create_ok hcreate, connectResult, hconfigure, hconf,
              hopening.exec_eq, hopen, hprepare, he, undoConnect_eval_interrupt, undoConnect_eval,
              undoConnect_eval_error, hclose, hchannel]

theorem closeOverSsh_state (hclose : Quiet channelClose) :
    ((closeOverSsh channelClose).eval (answer env) s).2 = { s with
      client := none, channel := none, console := none
      closed := s.closed ++ s.client.toList } := by
  have hquiet := hclose.exec_eq env
  cases hclient : s.client <;> cases hchannel : s.channel <;> cases hc : env.close <;>
    cases hcc : outcome env channelClose <;>
    simp [closeOverSsh, hclient, hchannel, hc, hquiet, hcc]

end ConnectOverSsh

/-! ## The invariant of a transport -/

/-- What holds of a transport between calls: a transport without a client has no channel and no
console, a serial transport without a channel no console, and resources are numbered below `created`. -/
structure Consistent (kind : Kind) (s : State) : Prop where
  client_lt : ∀ c ∈ s.client, c < s.created
  channel_lt : ∀ c ∈ s.channel, c < s.created
  closed_lt : ∀ c ∈ s.closed, c < s.created
  overSsh : kind ≠ .pySerial → s.client = none → s.channel = none ∧ s.console = none
  serial : kind = .pySerial → s.client = none ∧ (s.channel = none → s.console = none)
  ssh : kind = .ssh → s.channel = none ∧ s.console = none

theorem consistent_fresh (kind : Kind) : Consistent kind .fresh where
  client_lt := by simp [State.fresh]
  channel_lt := by simp [State.fresh]
  closed_lt := by simp [State.fresh]
  overSsh _ _ := ⟨rfl, rfl⟩
  serial _ := ⟨rfl, fun _ => rfl⟩
  ssh _ := ⟨rfl, rfl⟩

/-- Clearing the fields, whatever is closed with them. -/
theorem Consistent.cleared {kind : Kind} {s : State} (h : Consistent kind s) {created : ℕ}
    {closed : List ℕ} (hcreated : s.created ≤ created) (hclosed : ∀ c ∈ closed, c < created) :
    Consistent kind { s with
      client := none, channel := none, console := none
      created := created, closed := s.closed ++ closed } where
  client_lt := by simp
  channel_lt := by simp
  closed_lt c hc := by
    rcases List.mem_append.mp hc with hc | hc
    · exact lt_of_lt_of_le (h.closed_lt c hc) hcreated
    · exact hclosed c hc
  overSsh _ _ := ⟨rfl, rfl⟩
  serial _ := ⟨rfl, fun _ => rfl⟩
  ssh _ := ⟨rfl, rfl⟩

/-- Another resource, of which no field knows. -/
theorem Consistent.create {kind : Kind} {s : State} (h : Consistent kind s) :
    Consistent kind { s with created := s.created + 1 } where
  client_lt c hc := Nat.lt_succ_of_lt (h.client_lt c hc)
  channel_lt c hc := Nat.lt_succ_of_lt (h.channel_lt c hc)
  closed_lt c hc := Nat.lt_succ_of_lt (h.closed_lt c hc)
  overSsh := h.overSsh
  serial := h.serial
  ssh := h.ssh

/-- The console of a transport over SSH that has a client. -/
theorem Consistent.setConsole {kind : Kind} {s : State} (h : Consistent kind s)
    (hkind : kind = .picocomOverSsh) (hclient : s.client.isSome) (console : Option ℕ) :
    Consistent kind { s with console := console } where
  client_lt := h.client_lt
  channel_lt := h.channel_lt
  closed_lt := h.closed_lt
  overSsh _ hnone := by
    rw [show s.client = none from hnone] at hclient
    cases hclient
  serial hserial := by
    rw [hkind] at hserial
    cases hserial
  ssh hssh := by
    rw [hkind] at hssh
    cases hssh

/-! ## What a `connect` over SSH leaves behind -/

/-- The failures that `connectOverSsh` undoes: nothing was created; or the host keys were configured,
and then a call before the assignment of the fields raised an `Exception`, or the preparation of the
console did and the channel could be closed. -/
def UndoneOverSsh (created configured opened prepared channelClosed : Except Raised Unit) : Prop :=
  (∃ e, created = .error e) ∨
    (configured = .ok () ∧
      ((∃ e, opened = .error e ∧ e.isException = true) ∨
        (opened = .ok () ∧ (∃ e, prepared = .error e ∧ e.isException = true) ∧
          channelClosed = .ok ())))

section Results

variable {kind : Kind} {s : State}
  {created configured opened prepared channelClosed closed : Except Raised Unit} {console : Option ℕ}

theorem not_restored_of_client {s t : State} (h : t.client.isSome) : ¬Restored s t := fun hr => by
  rw [hr.client] at h
  cases h

/-- A client that was created and not closed. -/
theorem not_restored_of_open (h : Consistent kind s) :
    ¬Restored s { s with created := s.created + 1 } := fun hr =>
  absurd (h.closed_lt _ (hr.released s.created le_rfl (Nat.lt_succ_self _))) (lt_irrefl _)

theorem restored_unchanged (hclient : s.client = none) (hchannel : s.channel = none)
    (hconsole : s.console = none) : Restored s s :=
  ⟨hclient, hchannel, hconsole, fun _ hle hlt => absurd hlt (not_lt.mpr hle)⟩

theorem restored_closed (hclient : s.client = none) (hchannel : s.channel = none)
    (hconsole : s.console = none) :
    Restored s { s with created := s.created + 1, closed := s.closed ++ [s.created] } :=
  ⟨hclient, hchannel, hconsole, fun r hle hlt => by
    have : r = s.created := le_antisymm (Nat.le_of_lt_succ hlt) hle
    subst this
    exact List.mem_append_right _ (List.mem_singleton_self _)⟩

/-- **A failed connect over SSH** leaves nothing behind exactly in these cases. -/
theorem connectResult_restored_iff (h : Consistent kind s) (hclient : s.client = none)
    (hchannel : s.channel = none) (hconsole : s.console = none) {e : Raised}
    (he : (connectResult created configured opened prepared channelClosed closed console s).1
      = .error e) :
    Restored s (connectResult created configured opened prepared channelClosed closed console s).2 ↔
      UndoneOverSsh created configured opened prepared channelClosed := by
  rcases created with ec | _
  · exact iff_of_true (restored_unchanged hclient hchannel hconsole) (.inl ⟨ec, rfl⟩)
  rcases configured with ec | _
  · refine iff_of_false (not_restored_of_open h) ?_
    simp [UndoneOverSsh]
  rcases opened with eo | _
  · by_cases hexc : eo.isException = true
    · refine iff_of_true ?_ (.inr ⟨rfl, .inl ⟨eo, rfl, hexc⟩⟩)
      rw [connectResult, if_pos hexc]
      exact restored_closed hclient hchannel hconsole
    · refine iff_of_false ?_ (by simp [UndoneOverSsh, hexc])
      rw [connectResult, if_neg hexc]
      exact not_restored_of_open h
  rcases prepared with ep | _
  · rcases channelClosed with ec | _
    · exact iff_of_false (not_restored_of_client rfl) (by simp [UndoneOverSsh])
    · by_cases hexc : ep.isException = true
      · refine iff_of_true ?_ (.inr ⟨rfl, .inr ⟨rfl, ⟨ep, rfl, hexc⟩, rfl⟩⟩)
        rw [connectResult, if_pos hexc]
        exact restored_closed hclient hchannel hconsole
      · refine iff_of_false ?_ (by simp [UndoneOverSsh, hexc])
        rw [connectResult, if_neg hexc]
        exact not_restored_of_client rfl
  · cases he

theorem connectResult_consistent (h : Consistent kind s) (hclient : s.client = none)
    (hchannel : s.channel = none) (hconsole : s.console = none)
    (hkind : kind = .picocomOverSsh ∨ kind = .pySerialOverSsh) :
    Consistent kind (connectResult created configured opened prepared channelClosed closed console s).2 := by
  have hset : Consistent kind { s with
      client := some s.created, channel := some s.created, console := console
      created := s.created + 1 } :=
    { client_lt := by simp
      channel_lt := by simp
      closed_lt := fun c hc => Nat.lt_succ_of_lt (h.closed_lt c hc)
      overSsh := fun _ hnone => by cases hnone
      serial := fun hserial => by rcases hkind with hk | hk <;> rw [hk] at hserial <;> cases hserial
      ssh := fun hssh => by rcases hkind with hk | hk <;> rw [hk] at hssh <;> cases hssh }
  have hclosed : Consistent kind
      { s with created := s.created + 1, closed := s.closed ++ [s.created] } := by
    have hs : s = { s with client := none, channel := none, console := none } := by
      obtain ⟨client, channel, _, _, _⟩ := s
      cases hclient
      cases hchannel
      cases hconsole
      rfl
    rw [hs]
    exact h.cleared (Nat.le_succ _) (by simp)
  unfold connectResult
  split
  · exact h
  · exact h.create
  · split
    · exact hclosed
    · exact h.create
  · exact hset
  · exact hset
  · split
    · exact hclosed
    · exact hset

end Results

/-! ## The four transports -/

section Transports

variable {config : Config} {env : Environment} {s : State}

namespace Picocom

/-- What the preparation of the console answers: `_console_session` wants an open channel. -/
def preparing (env : Environment) : Except Raised Unit :=
  if env.ask .channelClosed then .error notConnected else env.act .prepare

theorem prepare_eval (hconsole : s.console = none) (client : ℕ) :
    (prepare client).eval (answer env) s = (preparing env, { s with
      client := some client, channel := some client
      console := if env.ask .channelClosed then none else some client }) := by
  by_cases hclosed : env.ask .channelClosed = true
  · simp [prepare, consoleSession, preparing, hclosed, hconsole]
  · cases hp : env.act .prepare <;> simp [prepare, consoleSession, preparing, hclosed, hconsole, hp]

theorem quiet_channelClose : Quiet channelClose :=
  Quiet.bind ((quiet_ask _).bind fun _ => (quiet_pure _).ite (quiet_act _)) fun _ => quiet_act _

/-- `execute` may create the console of a connected transport. -/
theorem execute_state (command : Command) :
    ((execute command).eval (answer env) s).2 = s ∨
      s.channel.isSome ∧ ((execute command).eval (answer env) s).2 = { s with console := s.channel } := by
  cases command with
  | text _ => exact .inl rfl
  | other _ => exact .inl rfl
  | unix command =>
    cases hchannel : s.channel with
    | none => exact .inl (by simp [execute, consoleSession, hchannel])
    | some channel =>
      by_cases hclosed : env.ask .channelClosed = true
      · exact .inl (by simp [execute, consoleSession, hchannel, hclosed])
      · cases hconsole : s.console with
        | some console => exact .inl (by simp [execute, consoleSession, hchannel, hclosed, hconsole])
        | none =>
          exact .inr ⟨rfl, by simp [execute, consoleSession, hchannel, hclosed, hconsole]⟩

end Picocom

namespace PySerialOverSsh

theorem prepare_eval (client : ℕ) :
    (prepare client).eval (answer env) s = (env.act .prepare, { s with
      client := some client, channel := some client, console := some client }) := by
  simp [prepare]

theorem execute_state (command : Command) : ((execute command).eval (answer env) s).2 = s := by
  cases command with
  | text _ => rfl
  | other _ => rfl
  | unix command => cases hconsole : s.console <;> simp [execute, hconsole]

end PySerialOverSsh

namespace PySerial

/-- The fields of a closed transport; `close` was called on the port it had. -/
def cleared (s : State) : State :=
  { s with channel := none, console := none, closed := s.closed ++ s.channel.toList }

theorem close_state : (close.eval (answer env) s).2 = cleared s := by
  cases hchannel : s.channel with
  | none => simp [close, cleared, hchannel]
  | some port =>
    cases hc : env.close with
    | ok _ => simp [close, cleared, channelClose, hchannel, hc]
    | error e => by_cases he : e.isOSError = true <;> simp [close, cleared, channelClose, hchannel, hc, he]

theorem undoConnect_eval {e : Raised} (h : e.isException = true) :
    ∃ e', (undoConnect config e).eval (answer env) s = (.error e', cleared s) := by
  have hclose : ∀ e' : Raised, ∃ e'', (do
      close
      .throw e' : Method Unit).eval (answer env) s = (.error e'', cleared s) := by
    intro e'
    have hcleared : (close.eval (answer env) s).2 = cleared s := close_state
    rw [Program.eval_bind, ← hcleared]
    rcases close.eval (answer env) s with ⟨_ | _, t⟩
    · exact ⟨_, rfl⟩
    · exact ⟨_, rfl⟩
  unfold undoConnect
  by_cases hos : e.isOSError = true
  · rw [if_pos hos]
    exact hclose _
  · rw [if_neg hos, if_pos h]
    exact hclose _

theorem undoConnect_eval_interrupt {e : Raised} (h : e.isException = false) :
    (undoConnect config e).eval (answer env) s = (.error e, s) := by
  cases e with
  | interrupt => rfl
  | transportError _ => cases h
  | osError _ => cases h
  | otherException _ => cases h

/-- The state in which the console is prepared. -/
def opened (s : State) : State :=
  { s with channel := some s.created, console := some s.created, created := s.created + 1 }

theorem openPort_eval : openPort.eval (answer env) s = match env.create with
    | .ok () => (env.act .prepare, opened s)
    | .error e => (.error e, s) := by
  cases hcreate : env.create with
  | error e => simp [openPort, exec_create_error hcreate]
  | ok _ => simp [openPort, exec_create_ok hcreate, opened]

/-- **What a `connect` does**: nothing on an open port; otherwise the port is created or not, and an
`Exception` of the creation or the preparation clears the fields. -/
theorem connect_cases (config : Config) (env : Environment) (s : State) :
    (s.channel.isSome ∧ (connect config).eval (answer env) s = (.ok (), s)) ∨
    (∃ e, env.create = .error e ∧ e.isException = false ∧
      (connect config).eval (answer env) s = (.error e, s)) ∨
    (∃ e e', env.create = .error e ∧ e.isException = true ∧
      (connect config).eval (answer env) s = (.error e', cleared s)) ∨
    (env.create = .ok () ∧ (connect config).eval (answer env) s = (.ok (), opened s)) ∨
    (∃ e, env.create = .ok () ∧ env.act .prepare = .error e ∧ e.isException = false ∧
      (connect config).eval (answer env) s = (.error e, opened s)) ∨
    ∃ e e', env.create = .ok () ∧ env.act .prepare = .error e ∧ e.isException = true ∧
      (connect config).eval (answer env) s = (.error e', cleared (opened s)) := by
  have hisOpen : isOpen.eval (answer env) s = (.ok (s.channel.isSome && !env.ask .channelClosed), s) := by
    cases hchannel : s.channel <;> simp [isOpen, hchannel]
  cases hopen : (s.channel.isSome && !env.ask .channelClosed) with
  | true =>
    have hsome : s.channel.isSome = true := by
      rw [Bool.and_eq_true] at hopen
      exact hopen.1
    exact .inl ⟨hsome, by simp [connect, hisOpen, hopen]⟩
  | false =>
    refine .inr ?_
    have heval : (connect config).eval (answer env) s
        = (openPort.tryCatch (undoConnect config)).eval (answer env) s := by
      simp only [connect, Program.eval_bind, hisOpen, hopen, Bool.false_eq_true, if_false]
    rw [heval, Program.eval_tryCatch, openPort_eval]
    cases hcreate : env.create with
    | error e =>
      cases he : e.isException with
      | false => exact .inl ⟨e, rfl, he, undoConnect_eval_interrupt he⟩
      | true =>
        obtain ⟨e', he'⟩ : ∃ e', (undoConnect config e).eval (answer env) s = (.error e', cleared s) :=
          undoConnect_eval he
        exact .inr (.inl ⟨e, e', rfl, he, he'⟩)
    | ok _ =>
      refine .inr (.inr ?_)
      cases hprepare : env.act .prepare with
      | ok _ => exact .inl ⟨rfl, rfl⟩
      | error e =>
        cases he : e.isException with
        | false => exact .inr (.inl ⟨e, rfl, rfl, he, undoConnect_eval_interrupt he⟩)
        | true =>
          obtain ⟨e', he'⟩ : ∃ e', (undoConnect config e).eval (answer env) (opened s)
              = (.error e', cleared (opened s)) := undoConnect_eval he
          exact .inr (.inr ⟨e, e', rfl, rfl, he, he'⟩)

theorem execute_state (command : Command) : ((execute command).eval (answer env) s).2 = s := by
  cases command with
  | text _ => rfl
  | other _ => rfl
  | unix command => cases hconsole : s.console <;> simp [execute, hconsole]

end PySerial

namespace SSH

/-- **What a `connect` does**: every exception after the creation of the client leaves it open. -/
theorem connect_cases (config : Config) (env : Environment) (s : State) :
    (s.client.isSome ∧ (connect config).eval (answer env) s = (.ok (), s)) ∨
    (∃ e, env.create = .error e ∧ s.client = none ∧
      (connect config).eval (answer env) s = (.error e, s)) ∨
    (∃ e, env.create = .ok () ∧
      (connect config).eval (answer env) s = (.error e, { s with created := s.created + 1 })) ∨
    (connect config).eval (answer env) s
      = (.ok (), { s with client := some s.created, created := s.created + 1 }) := by
  have hconfigure := (quiet_configureHostKeyPolicy config).exec_eq env
  cases hclient : s.client with
  | some client => exact .inl ⟨rfl, by simp [connect, hclient]⟩
  | none =>
    refine .inr ?_
    cases hcreate : env.create with
    | error e => exact .inl ⟨e, rfl, rfl, by simp [connect, hclient, exec_create_error hcreate]⟩
    | ok _ =>
      refine .inr ?_
      cases hconf : outcome env (configureHostKeyPolicy config) with
      | error e =>
        exact .inl ⟨e, rfl, by simp [connect, hclient, exec_create_ok hcreate, hconfigure, hconf]⟩
      | ok _ =>
        cases hconnect : env.act .clientConnect with
        | error e =>
          exact .inl ⟨e, rfl, by
            simp [connect, hclient, exec_create_ok hcreate, hconfigure, hconf, hconnect]⟩
        | ok _ =>
          exact .inr (by simp [connect, hclient, exec_create_ok hcreate, hconfigure, hconf, hconnect])

theorem close_state : (close.eval (answer env) s).2 = { s with closed := s.closed ++ s.client.toList } ∨
    (close.eval (answer env) s).2
      = { s with client := none, closed := s.closed ++ s.client.toList } := by
  cases hclient : s.client with
  | none =>
    refine .inl ?_
    obtain ⟨_, _, _, _, _⟩ := s
    cases hclient
    simp [close]
  | some client =>
    cases hc : env.close with
    | ok _ => exact .inr (by simp [close, hclient, hc])
    | error e => exact .inl (by simp [close, hclient, hc])

theorem execute_state (command : Command) : ((execute command).eval (answer env) s).2 = s := by
  cases command with
  | other _ => rfl
  | text _ => cases hclient : s.client <;> simp [execute, hclient]
  | unix _ => cases hclient : s.client <;> simp [execute, hclient]

end SSH

/-- `connect` over SSH from a transport without a client. -/
theorem Picocom.connect_eval (h : Consistent .picocomOverSsh s) (hclient : s.client = none) :
    (Picocom.connect config).eval (answer env) s
      = connectResult env.create (outcome env (configureHostKeyPolicy config))
          (outcome env (Picocom.opening config)) (Picocom.preparing env) (env.act .channelClose)
          env.close (if env.ask .channelClosed then none else some s.created) s := by
  obtain ⟨hchannel, hconsole⟩ := h.overSsh (by decide) hclient
  have hact : outcome env (act .channelClose) = env.act .channelClose := by simp [outcome]
  rw [← hact]
  exact connectOverSsh_eval hclient hchannel hconsole (Picocom.quiet_opening config) (quiet_act _)
    (Picocom.prepare_eval (s := { s with created := s.created + 1 }) hconsole s.created)

theorem PySerialOverSsh.connect_eval (h : Consistent .pySerialOverSsh s) (hclient : s.client = none) :
    (PySerialOverSsh.connect config).eval (answer env) s
      = connectResult env.create (outcome env (configureHostKeyPolicy config))
          (outcome env (PySerialOverSsh.opening config)) (env.act .prepare)
          (outcome env PySerialOverSsh.channelClose) env.close (some s.created) s := by
  obtain ⟨hchannel, hconsole⟩ := h.overSsh (by decide) hclient
  exact connectOverSsh_eval hclient hchannel hconsole (PySerialOverSsh.quiet_opening config)
    PySerialOverSsh.quiet_channelClose (PySerialOverSsh.prepare_eval s.created)

end Transports

/-! ## Every sequence of calls -/

section Runs

variable {config : Config} {kind : Kind} {env : Environment} {s : State}

theorem Consistent.cleared_serial (h : Consistent .pySerial s) : Consistent .pySerial (PySerial.cleared s) where
  client_lt := h.client_lt
  channel_lt := by simp [PySerial.cleared]
  closed_lt c hc := by
    rcases List.mem_append.mp hc with hc | hc
    · exact h.closed_lt c hc
    · exact h.channel_lt c (by simpa using hc)
  overSsh hkind := absurd rfl hkind
  serial _ := ⟨(h.serial rfl).1, fun _ => rfl⟩
  ssh hssh := by cases hssh

theorem Consistent.opened_serial (h : Consistent .pySerial s) : Consistent .pySerial (PySerial.opened s) where
  client_lt c hc := Nat.lt_succ_of_lt (h.client_lt c hc)
  channel_lt := by simp [PySerial.opened]
  closed_lt c hc := Nat.lt_succ_of_lt (h.closed_lt c hc)
  overSsh hkind := absurd rfl hkind
  serial _ := ⟨(h.serial rfl).1, fun hnone => by cases hnone⟩
  ssh hssh := by cases hssh

theorem connect_consistent (h : Consistent kind s) :
    Consistent kind ((kind.connect config).eval (answer env) s).2 := by
  cases kind with
  | picocomOverSsh =>
    cases hclient : s.client with
    | some client =>
      rwa [Kind.connect, Picocom.connect, connectOverSsh_connected (by rw [hclient]; rfl)]
    | none =>
      obtain ⟨hchannel, hconsole⟩ := h.overSsh (by decide) hclient
      rw [Kind.connect, Picocom.connect_eval h hclient]
      exact connectResult_consistent h hclient hchannel hconsole (.inl rfl)
  | pySerialOverSsh =>
    cases hclient : s.client with
    | some client =>
      rwa [Kind.connect, PySerialOverSsh.connect, connectOverSsh_connected (by rw [hclient]; rfl)]
    | none =>
      obtain ⟨hchannel, hconsole⟩ := h.overSsh (by decide) hclient
      rw [Kind.connect, PySerialOverSsh.connect_eval h hclient]
      exact connectResult_consistent h hclient hchannel hconsole (.inr rfl)
  | pySerial =>
    rcases PySerial.connect_cases config env s with ⟨-, heval⟩ | ⟨e, -, -, heval⟩ | ⟨e, e', -, -, heval⟩ |
      ⟨-, heval⟩ | ⟨e, -, -, -, heval⟩ | ⟨e, e', -, -, -, heval⟩ <;> rw [Kind.connect, heval]
    · exact h
    · exact h
    · exact h.cleared_serial
    · exact h.opened_serial
    · exact h.opened_serial
    · exact h.opened_serial.cleared_serial
  | ssh =>
    have hclosed : ∀ c ∈ s.closed, c < s.created + 1 := fun c hc => Nat.lt_succ_of_lt (h.closed_lt c hc)
    rcases SSH.connect_cases config env s with ⟨-, heval⟩ | ⟨e, -, -, heval⟩ | ⟨e, -, heval⟩ | heval <;>
      rw [Kind.connect, heval]
    · exact h
    · exact h
    · exact h.create
    · exact {
        client_lt := by simp
        channel_lt := fun c hc => Nat.lt_succ_of_lt (h.channel_lt c hc)
        closed_lt := hclosed
        overSsh := fun _ hnone => by cases hnone
        serial := fun hkind => by cases hkind
        ssh := fun _ => h.ssh rfl }

theorem close_consistent (h : Consistent kind s) :
    Consistent kind (kind.close.eval (answer env) s).2 := by
  have hclient : ∀ c ∈ s.client.toList, c < s.created := fun c hc => h.client_lt c (by simpa using hc)
  have hclosed : ∀ c ∈ s.closed ++ s.client.toList, c < s.created := fun c hc =>
    (List.mem_append.mp hc).elim (h.closed_lt c) (hclient c)
  cases kind with
  | picocomOverSsh =>
    rw [Kind.close, Picocom.close, closeOverSsh_state Picocom.quiet_channelClose]
    exact h.cleared le_rfl hclient
  | pySerialOverSsh =>
    rw [Kind.close, PySerialOverSsh.close, closeOverSsh_state PySerialOverSsh.quiet_channelClose]
    exact h.cleared le_rfl hclient
  | pySerial =>
    rw [Kind.close, PySerial.close_state]
    exact h.cleared_serial
  | ssh =>
    rcases @SSH.close_state env s with hs | hs <;> rw [Kind.close, hs]
    · exact { h with closed_lt := hclosed }
    · exact {
        client_lt := by simp
        channel_lt := h.channel_lt
        closed_lt := hclosed
        overSsh := fun _ _ => h.ssh rfl
        serial := fun hkind => by cases hkind
        ssh := fun _ => h.ssh rfl }

theorem execute_consistent (h : Consistent kind s) (command : Command) :
    Consistent kind ((kind.execute command).eval (answer env) s).2 := by
  cases kind with
  | picocomOverSsh =>
    rcases @Picocom.execute_state env s command with hs | ⟨hchannel, hs⟩ <;>
      rw [Kind.execute, hs]
    · exact h
    · refine h.setConsole rfl ?_ _
      rw [Option.isSome_iff_ne_none]
      intro hnone
      rw [(h.overSsh (by decide) hnone).1] at hchannel
      cases hchannel
  | pySerialOverSsh => rwa [Kind.execute, PySerialOverSsh.execute_state]
  | pySerial => rwa [Kind.execute, PySerial.execute_state]
  | ssh => rwa [Kind.execute, SSH.execute_state]

theorem step_consistent (s : State) (e : Event) (t : State) (h : Consistent kind s)
    (ht : step config kind s e = some t) : Consistent kind t := by
  cases e with
  | connect env =>
    cases ht
    exact connect_consistent h
  | execute env command =>
    cases ht
    exact execute_consistent h command
  | close env =>
    cases ht
    exact close_consistent h

theorem reachable_consistent {events : List Event}
    (hs : Transition.run (step config kind) .fresh events = some s) : Consistent kind s :=
  Transition.run_invariant step_consistent (consistent_fresh kind) hs

/-- **When a failed connect is undone.**  Over SSH see `UndoneOverSsh`.  The direct serial transport
undoes every `Exception`, and a port that cannot be created leaves it as it was.  The plain SSH
transport undoes nothing: only a client that was never created is not left open. -/
def Undone (config : Config) (env : Environment) (s : State) : Kind → Prop
  | .picocomOverSsh =>
    UndoneOverSsh env.create (outcome env (configureHostKeyPolicy config))
      (outcome env (Picocom.opening config)) (Picocom.preparing env) (env.act .channelClose)
  | .pySerialOverSsh =>
    UndoneOverSsh env.create (outcome env (configureHostKeyPolicy config))
      (outcome env (PySerialOverSsh.opening config)) (env.act .prepare)
      (outcome env PySerialOverSsh.channelClose)
  | .pySerial =>
    (∃ e, env.create = .error e ∧ (e.isException = true ∨ s.channel = none)) ∨
      (env.create = .ok () ∧ ∃ e, env.act .prepare = .error e ∧ e.isException = true)
  | .ssh => ∃ e, env.create = .error e

theorem pySerial_restored_iff (h : Consistent .pySerial s) {e : Raised}
    (he : ((PySerial.connect config).eval (answer env) s).1 = .error e) :
    Restored s ((PySerial.connect config).eval (answer env) s).2 ↔ Undone config env s .pySerial := by
  obtain ⟨hclient, hconsole⟩ := h.serial rfl
  rcases PySerial.connect_cases config env s with ⟨-, heval⟩ | ⟨e, hcreate, hexc, heval⟩ |
    ⟨e, e', hcreate, hexc, heval⟩ | ⟨-, heval⟩ | ⟨e, hcreate, hprepare, hexc, heval⟩ |
    ⟨e, e', hcreate, hprepare, hexc, heval⟩ <;> rw [heval] at he ⊢
  · cases he
  · constructor
    · intro hr
      exact .inl ⟨e, hcreate, .inr hr.channel⟩
    · rintro (⟨e', he', hexc' | hchannel⟩ | ⟨hok, -⟩)
      · rw [hcreate] at he'
        cases he'
        rw [hexc] at hexc'
        cases hexc'
      · exact restored_unchanged hclient hchannel (hconsole hchannel)
      · rw [hcreate] at hok
        cases hok
  · exact iff_of_true ⟨hclient, rfl, rfl, fun r hle hlt => absurd hlt (not_lt.mpr hle)⟩
      (.inl ⟨e, hcreate, .inl hexc⟩)
  · cases he
  · refine iff_of_false (fun hr => by have := hr.channel; cases this) ?_
    rintro (⟨e', he', -⟩ | ⟨-, e', he', hexc'⟩)
    · rw [hcreate] at he'
      cases he'
    · rw [hprepare] at he'
      cases he'
      rw [hexc] at hexc'
      cases hexc'
  · refine iff_of_true ⟨hclient, rfl, rfl, fun r hle hlt => ?_⟩
      (.inr ⟨hcreate, e, hprepare, hexc⟩)
    have : r = s.created := le_antisymm (Nat.le_of_lt_succ hlt) hle
    subst this
    exact List.mem_append_right _ (List.mem_singleton_self _)

/-- **A failed `connect` leaves nothing behind** in exactly the cases of `Undone`, after every sequence
of calls. -/
theorem restored_iff {events : List Event}
    (hs : Transition.run (step config kind) .fresh events = some s) {e : Raised}
    (he : ((kind.connect config).eval (answer env) s).1 = .error e) :
    Restored s ((kind.connect config).eval (answer env) s).2 ↔ Undone config env s kind := by
  have h := reachable_consistent hs
  cases kind with
  | picocomOverSsh =>
    cases hclient : s.client with
    | some client =>
      rw [Kind.connect, Picocom.connect, connectOverSsh_connected (by rw [hclient]; rfl)] at he
      cases he
    | none =>
      obtain ⟨hchannel, hconsole⟩ := h.overSsh (by decide) hclient
      rw [Kind.connect, Picocom.connect_eval h hclient] at he ⊢
      exact connectResult_restored_iff h hclient hchannel hconsole he
  | pySerialOverSsh =>
    cases hclient : s.client with
    | some client =>
      rw [Kind.connect, PySerialOverSsh.connect, connectOverSsh_connected (by rw [hclient]; rfl)] at he
      cases he
    | none =>
      obtain ⟨hchannel, hconsole⟩ := h.overSsh (by decide) hclient
      rw [Kind.connect, PySerialOverSsh.connect_eval h hclient] at he ⊢
      exact connectResult_restored_iff h hclient hchannel hconsole he
  | pySerial => exact pySerial_restored_iff h he
  | ssh =>
    rcases SSH.connect_cases config env s with ⟨-, heval⟩ | ⟨e, hcreate, hclient, heval⟩ |
      ⟨e, hcreate, heval⟩ | heval <;> rw [Kind.connect, heval] at he ⊢
    · cases he
    · exact iff_of_true (restored_unchanged hclient (h.ssh rfl).1 (h.ssh rfl).2) ⟨e, hcreate⟩
    · refine iff_of_false (not_restored_of_open h) ?_
      rintro ⟨e', he'⟩
      rw [hcreate] at he'
      cases he'
    · cases he

theorem connectResult_created (configured opened prepared channelClosed closed : Except Raised Unit)
    (console : Option ℕ) :
    (connectResult (.ok ()) configured opened prepared channelClosed closed console s).2.created
      = s.created + 1 := by
  cases configured with
  | error _ => rfl
  | ok _ =>
    cases opened with
    | error eo => cases h : eo.isException <;> simp [connectResult, h]
    | ok _ =>
      cases prepared with
      | ok _ => rfl
      | error ep =>
        cases channelClosed with
        | error _ => rfl
        | ok _ => cases h : ep.isException <;> simp [connectResult, h]

/-- **A `connect` of a disconnected transport opens a connection**: it creates a client or a port. -/
theorem connect_creates {events : List Event}
    (hs : Transition.run (step config kind) .fresh events = some s) (hclient : s.client = none)
    (hchannel : s.channel = none) (hcreate : env.create = .ok ()) :
    ((kind.connect config).eval (answer env) s).2.created = s.created + 1 := by
  have h := reachable_consistent hs
  cases kind with
  | picocomOverSsh =>
    rw [Kind.connect, Picocom.connect_eval h hclient, hcreate]
    exact connectResult_created _ _ _ _ _ _
  | pySerialOverSsh =>
    rw [Kind.connect, PySerialOverSsh.connect_eval h hclient, hcreate]
    exact connectResult_created _ _ _ _ _ _
  | pySerial =>
    rcases PySerial.connect_cases config env s with ⟨hopen, -⟩ | ⟨e, he, -⟩ | ⟨e, -, he, -⟩ |
      ⟨-, heval⟩ | ⟨e, -, -, -, heval⟩ | ⟨e, e', -, -, -, heval⟩
    · rw [hchannel] at hopen
      cases hopen
    · rw [hcreate] at he
      cases he
    · rw [hcreate] at he
      cases he
    · rw [Kind.connect, heval]
      rfl
    · rw [Kind.connect, heval]
      rfl
    · rw [Kind.connect, heval]
      rfl
  | ssh =>
    rcases SSH.connect_cases config env s with ⟨hopen, -⟩ | ⟨e, he, -⟩ | ⟨e, -, heval⟩ | heval
    · rw [hclient] at hopen
      cases hopen
    · rw [hcreate] at he
      cases he
    · rw [Kind.connect, heval]
    · rw [Kind.connect, heval]

/-! ## A lost connection -/

section Sample

def sampleConfig : Config where
  hostKeyPolicy := .reject
  knownHostsPath := none
  serialDevice := "/dev/ttyUSB0".toList
  baudrate := 115200
  serialAgentCommand := "hardware-serial-helper".toList

/-- Every call returns but those that `fails` lists. -/
def sampleEnvironment (fails : List (Action × Raised)) : Environment where
  create := .ok ()
  act a :=
    match fails.lookup a with
    | some e => .error e
    | none => .ok ()
  ask q := q != .channelClosed
  readStderr := .ok []
  close := .ok ()
  run := .ok ⟨[], [], 0⟩

/-- The board answers nothing while its prompt is awaited. -/
def noPrompt : Raised := .transportError "Timed out waiting for device console state".toList

def socketClosed : Raised := .osError "Socket is closed".toList

theorem restored_sample :
    Restored .fresh ((Kind.connect sampleConfig .pySerialOverSsh).eval
      (answer (sampleEnvironment [(.prepare, noPrompt)])) .fresh).2 :=
  (@restored_iff sampleConfig .pySerialOverSsh (sampleEnvironment [(.prepare, noPrompt)]) .fresh [] rfl
    noPrompt rfl).mpr (.inr ⟨rfl, .inr ⟨rfl, ⟨noPrompt, rfl, rfl⟩, rfl⟩⟩)

/-- A transport over SSH after a `connect` whose connection is lost during the preparation. -/
def sampleLost : State :=
  ((Kind.connect sampleConfig .pySerialOverSsh).eval
    (answer (sampleEnvironment [(.prepare, noPrompt), (.requestClose, socketClosed)])) .fresh).2

/-- **A connection lost during the preparation.**  The request that closes the agent raises as well, so
the fields stay set and the client open, and the next `connect` returns without a connection. -/
theorem lost_connection_keeps_client :
    (sampleLost.client = some 0 ∧ sampleLost.closed = [] ∧
      (Kind.connect sampleConfig .pySerialOverSsh).eval (answer (sampleEnvironment [])) sampleLost
        = (.ok (), sampleLost)) ∧
    ¬ ∀ (config : Config) (kind : Kind) (events : List Event) (s : State) (env : Environment) (e : Raised),
        Transition.run (step config kind) .fresh events = some s →
        ((kind.connect config).eval (answer env) s).1 = .error e →
        Restored s ((kind.connect config).eval (answer env) s).2 := by
  refine ⟨⟨rfl, rfl, rfl⟩, fun h => ?_⟩
  have := (h sampleConfig .pySerialOverSsh [] .fresh
    (sampleEnvironment [(.prepare, noPrompt), (.requestClose, socketClosed)]) socketClosed rfl rfl).client
  exact absurd this (by decide)

end Sample

end Runs

end HardwareTest.Transport.Lifecycle
