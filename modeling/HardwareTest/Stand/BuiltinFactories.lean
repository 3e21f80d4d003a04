import HardwareTest.Python.Float
import HardwareTest.Stand.Factory
import HardwareTest.Transport.Lifecycle

/-!
# The built-in factories

The inventory names credentials, and the runtime settings hold them.  The transport factory resolves the
names when it creates a transport, and the device factory picks the class of a device by its type; both
may raise.  A stand is composed with them by `createStand`.

* `createTransport`, `createDevice` — the two factories;
* `Settings.defect` — why a device cannot be built;
* `createStand_cases` — the composition stops at the first device with a defect, and otherwise every role has
  what its own entry says;
* `createStand_congr` — the composition looks at no credentials but those that its own devices name.
-/

namespace HardwareTest.Stand

open HardwareTest.Lib HardwareTest.Python HardwareTest.Equipment HardwareTest.Transport

/-! ## Settings -/

structure SshCredentialSettings where
  username : Text
  password : Text
  deriving DecidableEq

structure ConsoleCredentialSettings where
  username : Text
  password : Text
  deriving DecidableEq

structure CredentialSettings where
  defaultSsh : Option SshCredentialSettings
  analyzerDefault : Option SshCredentialSettings
  generatorDefault : Option SshCredentialSettings
  ssh : List (Text × SshCredentialSettings)
  console : List (Text × ConsoleCredentialSettings)

namespace CredentialSettings

/-- The profiles with names of their own. -/
def builtIn (credentials : CredentialSettings) : List (Text × Option SshCredentialSettings) :=
  [("default-ssh".toList, credentials.defaultSsh), ("analyzer-default".toList, credentials.analyzerDefault),
    ("generator-default".toList, credentials.generatorDefault)]

/-- `built_in.get(name) or self.ssh.get(name)`. -/
def getSsh (credentials : CredentialSettings) (name : Text) : Option SshCredentialSettings :=
  (credentials.builtIn.lookup name).join.or (credentials.ssh.lookup name)

def getConsole (credentials : CredentialSettings) (name : Text) : Option ConsoleCredentialSettings :=
  credentials.console.lookup name

end CredentialSettings

/-- The runtime settings that the factories read. -/
structure Settings where
  credentials : CredentialSettings
  commandTimeout : PyFloat
  connectTimeout : PyFloat
  sshHostKeyPolicy : Lifecycle.SshHostKeyPolicy
  sshKnownHostsPath : Option Text
  serialAgentCommand : Text

/-! ## The inventory -/

structure SshConnectionInventoryConfig where
  host : Text
  port : ℤ
  credentials : Text
  hostKeyPolicy : Option Lifecycle.SshHostKeyPolicy
  /-- `Field(ge=1, le=65535)`. -/
  port_range : 1 ≤ port ∧ port ≤ 65535

/-- The console of the inventory, with the name of its credentials. -/
structure ConsoleInventoryConfig extends ConsoleSessionInventoryConfig where
  credentials : Option Text

/-- The four transports, or a configuration of a project. -/
inductive TransportConfig
  | ssh (ssh : SshConnectionInventoryConfig)
  | picocomOverSsh (ssh : SshConnectionInventoryConfig) (serialDevice : Text) (baudrate : ℤ)
      (console : ConsoleInventoryConfig)
  | pySerial (serialDevice : Text) (baudrate : ℤ) (console : ConsoleInventoryConfig)
  | pySerialOverSsh (ssh : SshConnectionInventoryConfig) (serialDevice : Text) (baudrate : ℤ)
      (console : ConsoleInventoryConfig)
  | other (typeName : Text)

/-! ## The objects -/

structure SshConnectionConfig where
  host : Text
  port : ℤ
  username : Text
  password : Text
  hostKeyPolicy : Lifecycle.SshHostKeyPolicy
  knownHostsPath : Option Text
  deriving DecidableEq

deriving instance DecidableEq for ConsoleSessionConfig

/-- A transport, by the arguments of its constructor. -/
inductive RuntimeTransport
  | ssh (ssh : SshConnectionConfig) (connectTimeout commandTimeout : PyFloat)
  | picocomOverSsh (ssh : SshConnectionConfig) (serialDevice : Text) (baudrate : ℤ)
      (console : ConsoleSessionConfig) (connectTimeout commandTimeout : PyFloat)
  | pySerial (serialDevice : Text) (baudrate : ℤ) (console : ConsoleSessionConfig)
      (connectTimeout commandTimeout : PyFloat)
  | pySerialOverSsh (ssh : SshConnectionConfig) (serialDevice : Text) (baudrate : ℤ)
      (console : ConsoleSessionConfig) (serialAgentCommand : Text) (connectTimeout commandTimeout : PyFloat)
  deriving DecidableEq

/-- The object around it.  Objects go by their number. -/
structure SynchronizedTransport where
  number : ℕ
  transport : RuntimeTransport
  deriving DecidableEq

inductive DeviceClass
  | dut
  | analyzer
  | generator
  deriving DecidableEq

structure Device where
  number : ℕ
  deviceClass : DeviceClass
  transport : SynchronizedTransport
  model : Text
  deriving DecidableEq

/-- What the factories raise: a `FactoryError`, or the `ValueError` of a constructor. -/
inductive CreationError
  | factoryError (message : Text)
  | valueError (message : Text)
  deriving DecidableEq

/-! ## The transport factory -/

/-- `_create_ssh_config`. -/
def createSshConfig (config : SshConnectionInventoryConfig) (settings : Settings) :
    Except CreationError SshConnectionConfig :=
  match settings.credentials.getSsh config.credentials with
  | none => .error (.factoryError ("SSH credentials '".toList ++ config.credentials
      ++ "' are not configured in runtime settings".toList))
  | some credentials => .ok {
      host := config.host
      port := config.port
      username := credentials.username
      password := credentials.password
      hostKeyPolicy := config.hostKeyPolicy.getD settings.sshHostKeyPolicy
      knownHostsPath := settings.sshKnownHostsPath }

/-- `_resolve_console_credentials`. -/
def resolveConsoleCredentials (reference : Option Text) (settings : Settings) :
    Except CreationError (Option ConsoleCredentialSettings) :=
  match reference with
  | none => .ok none
  | some reference =>
    match settings.credentials.getConsole reference with
    | none => .error (.factoryError ("Console credentials '".toList ++ reference
        ++ "' are not configured in runtime settings".toList))
    | some credentials => .ok (some credentials)

/-- `_create_console_config`. -/
def createConsoleConfig (console : ConsoleInventoryConfig) (settings : Settings) :
    Except CreationError ConsoleSessionConfig := do
  let credentials ← resolveConsoleCredentials console.credentials settings
  return console.resolve (credentials.map ConsoleCredentialSettings.username)
    (credentials.map ConsoleCredentialSettings.password)

/-- `_validate_agent_command`, which the constructor of `PySerialOverSshTransport` calls. -/
def validateAgentCommand (value : Text) : Except CreationError Text :=
  if ∃ c ∈ value, c ∈ ['\x00', '\r', '\n'] then
    .error (.valueError "serial_agent_command must not contain control characters".toList)
  else .ok value

def createTransport (config : TransportConfig) (settings : Settings) : Except CreationError RuntimeTransport :=
  match config with
  | .pySerial serialDevice baudrate console => do
    let console ← createConsoleConfig console settings
    return .pySerial serialDevice baudrate console settings.connectTimeout settings.commandTimeout
  | .other typeName =>
    .error (.factoryError ("Unsupported transport configuration '".toList ++ typeName ++ "'".toList))
  | .picocomOverSsh ssh serialDevice baudrate console => do
    let ssh ← createSshConfig ssh settings
    let console ← createConsoleConfig console settings
    return .picocomOverSsh ssh serialDevice baudrate console settings.connectTimeout settings.commandTimeout
  | .pySerialOverSsh ssh serialDevice baudrate console => do
    let ssh ← createSshConfig ssh settings
    let console ← createConsoleConfig console settings
    let serialAgentCommand ← validateAgentCommand settings.serialAgentCommand
    return .pySerialOverSsh ssh serialDevice baudrate console serialAgentCommand settings.connectTimeout
      settings.commandTimeout
  | .ssh ssh => do
    let ssh ← createSshConfig ssh settings
    return .ssh ssh settings.connectTimeout settings.commandTimeout

/-! ## The device factory -/

/-- `_DEVICE_TYPES`. -/
def deviceTypes : List (Text × DeviceClass) :=
  [("dut".toList, .dut), ("analyzer".toList, .analyzer), ("generator".toList, .generator)]

def unsupportedType (type : Text) : CreationError :=
  .factoryError ("Unsupported device type '".toList ++ type ++ "'. Supported types: ".toList
    ++ List.intercalate ", ".toList ((deviceTypes.map Prod.fst).insertionSort (· ≤ ·)))

/-- The class of a device. -/
def constructorOf (type : Text) : Except CreationError DeviceClass :=
  match deviceTypes.lookup type with
  | none => .error (unsupportedType type)
  | some constructor => .ok constructor

def createDevice (config : DeviceConfig TransportConfig) (transport : SynchronizedTransport) (number : ℕ) :
    Except CreationError Device := do
  let constructor ← constructorOf config.type
  return ⟨number, constructor, transport, config.model⟩

/-! ## The composition -/

/-- A number that no object has. -/
def unusedNumber (numbers : List ℕ) : ℕ := numbers.sum + 1

/-- `BuiltinTransportFactory` and `BuiltinDeviceFactory`. -/
def builtinFactories (settings : Settings) :
    Factories TransportConfig SynchronizedTransport Device CreationError where
  transport built config := (createTransport config settings).map fun transport =>
    ⟨unusedNumber ((transports built).map SynchronizedTransport.number), transport⟩
  device built config transport :=
    createDevice config transport (unusedNumber ((devices built).map Device.number))

abbrev BuiltinObjects := List (Built TransportConfig SynchronizedTransport Device)

/-- `create_stand`, and the objects that were built. -/
def createStand (inventory : Inventory (DeviceConfig TransportConfig)) (config : StandConfig)
    (settings : Settings) : Except (CreateError CreationError) (TestStand Device) × BuiltinObjects :=
  compose (builtinFactories settings) inventory config

/-! ## What an entry names -/

/-- The SSH endpoint. -/
def TransportConfig.endpoint : TransportConfig → Option SshConnectionInventoryConfig
  | .ssh connection => some connection
  | .picocomOverSsh connection _ _ _ => some connection
  | .pySerialOverSsh connection _ _ _ => some connection
  | .pySerial _ _ _ => none
  | .other _ => none

def TransportConfig.console : TransportConfig → Option ConsoleInventoryConfig
  | .picocomOverSsh _ _ _ console => some console
  | .pySerialOverSsh _ _ _ console => some console
  | .pySerial _ _ console => some console
  | .ssh _ => none
  | .other _ => none

/-- The serial device and its rate. -/
def TransportConfig.line : TransportConfig → Option (Text × ℤ)
  | .picocomOverSsh _ serialDevice baudrate _ => some (serialDevice, baudrate)
  | .pySerialOverSsh _ serialDevice baudrate _ => some (serialDevice, baudrate)
  | .pySerial serialDevice baudrate _ => some (serialDevice, baudrate)
  | .ssh _ => none
  | .other _ => none

/-- The name of SSH credentials. -/
def TransportConfig.sshReference (config : TransportConfig) : Option Text :=
  config.endpoint.map SshConnectionInventoryConfig.credentials

/-- The name of console credentials. -/
def TransportConfig.consoleReference (config : TransportConfig) : Option Text :=
  config.console.bind ConsoleInventoryConfig.credentials

def RuntimeTransport.endpoint : RuntimeTransport → Option SshConnectionConfig
  | .ssh connection _ _ => some connection
  | .picocomOverSsh connection _ _ _ _ _ => some connection
  | .pySerialOverSsh connection _ _ _ _ _ _ => some connection
  | .pySerial _ _ _ _ _ => none

def RuntimeTransport.console : RuntimeTransport → Option ConsoleSessionConfig
  | .picocomOverSsh _ _ _ console _ _ => some console
  | .pySerialOverSsh _ _ _ console _ _ _ => some console
  | .pySerial _ _ console _ _ => some console
  | .ssh _ _ _ => none

def RuntimeTransport.line : RuntimeTransport → Option (Text × ℤ)
  | .picocomOverSsh _ serialDevice baudrate _ _ _ => some (serialDevice, baudrate)
  | .pySerialOverSsh _ serialDevice baudrate _ _ _ _ => some (serialDevice, baudrate)
  | .pySerial serialDevice baudrate _ _ _ => some (serialDevice, baudrate)
  | .ssh _ _ _ => none

/-- A name that SSH credentials do not have. -/
def Settings.sshDefect (settings : Settings) (reference : Option Text) : Option CreationError :=
  (reference.filter fun name => (settings.credentials.getSsh name).isNone).map fun name =>
    .factoryError ("SSH credentials '".toList ++ name ++ "' are not configured in runtime settings".toList)

def Settings.consoleDefect (settings : Settings) (reference : Option Text) : Option CreationError :=
  (reference.filter fun name => (settings.credentials.getConsole name).isNone).map fun name =>
    .factoryError ("Console credentials '".toList ++ name ++ "' are not configured in runtime settings".toList)

/-- The command line of the agent, for the transport that starts one. -/
def Settings.agentDefect (settings : Settings) : TransportConfig → Option CreationError
  | .pySerialOverSsh _ _ _ _ =>
    if ∃ c ∈ settings.serialAgentCommand, c ∈ ['\x00', '\r', '\n'] then
      some (.valueError "serial_agent_command must not contain control characters".toList)
    else none
  | .ssh _ => none
  | .picocomOverSsh _ _ _ _ => none
  | .pySerial _ _ _ => none
  | .other typeName =>
    some (.factoryError ("Unsupported transport configuration '".toList ++ typeName ++ "'".toList))

/-- Why there is no transport: first the SSH credentials, then those of the console, then the rest. -/
def Settings.transportDefect (settings : Settings) (config : TransportConfig) : Option CreationError :=
  ((settings.sshDefect config.sshReference).or (settings.consoleDefect config.consoleReference)).or
    (settings.agentDefect config)

/-- Why a device cannot be built. -/
def Settings.defect (settings : Settings) (config : DeviceConfig TransportConfig) : Option CreationError :=
  (settings.transportDefect config.transport).or
    (if config.type ∈ deviceTypes.map Prod.fst then none else some (unsupportedType config.type))

/-- The login data of an SSH endpoint are those of the profile that it names. -/
def SshLogin (settings : Settings) (ssh : SshConnectionInventoryConfig) (made : SshConnectionConfig) : Prop :=
  ∃ credentials, settings.credentials.getSsh ssh.credentials = some credentials ∧
    made = ⟨ssh.host, ssh.port, credentials.username, credentials.password,
      ssh.hostKeyPolicy.getD settings.sshHostKeyPolicy, settings.sshKnownHostsPath⟩

/-- And those of a console; without a name there are none. -/
def ConsoleLogin (settings : Settings) (console : ConsoleInventoryConfig) (made : ConsoleSessionConfig) : Prop :=
  ∃ credentials, credentials = console.credentials.bind settings.credentials.getConsole ∧
    (console.credentials.isSome → credentials.isSome) ∧
    made = console.resolve (credentials.map ConsoleCredentialSettings.username)
      (credentials.map ConsoleCredentialSettings.password)

/-- A transport has what its configuration says. -/
structure Matches (settings : Settings) (config : TransportConfig) (made : RuntimeTransport) : Prop where
  endpoint : Option.Rel (SshLogin settings) config.endpoint made.endpoint
  console : Option.Rel (ConsoleLogin settings) config.console made.console
  line : made.line = config.line

/-- A device has what its entry says. -/
structure Equipped (settings : Settings) (config : DeviceConfig TransportConfig) (device : Device) : Prop where
  type : deviceTypes.lookup config.type = some device.deviceClass
  model : device.model = config.model
  transport : Matches settings config.transport device.transport.transport

/-! ## The transport factory -/

section Transport

theorem createSshConfig_cases (settings : Settings) (ssh : SshConnectionInventoryConfig) :
    (∃ made, createSshConfig ssh settings = .ok made ∧ SshLogin settings ssh made ∧
      settings.sshDefect (some ssh.credentials) = none) ∨
    ∃ e, createSshConfig ssh settings = .error e ∧ settings.sshDefect (some ssh.credentials) = some e := by
  rw [createSshConfig, Settings.sshDefect]
  cases h : settings.credentials.getSsh ssh.credentials with
  | none => exact .inr ⟨_, rfl, by rw [Option.filter_some_pos (by rw [h]; rfl)]; rfl⟩
  | some credentials =>
    exact .inl ⟨_, rfl, ⟨credentials, h, rfl⟩, by rw [Option.filter_some_neg (by rw [h]; simp)]; rfl⟩

theorem createConsoleConfig_cases (settings : Settings) (console : ConsoleInventoryConfig) :
    (∃ made, createConsoleConfig console settings = .ok made ∧ ConsoleLogin settings console made ∧
      settings.consoleDefect console.credentials = none) ∨
    ∃ e, createConsoleConfig console settings = .error e ∧
      settings.consoleDefect console.credentials = some e := by
  rw [createConsoleConfig, Settings.consoleDefect]
  cases hreference : console.credentials with
  | none => exact .inl ⟨_, rfl, ⟨none, by rw [hreference]; rfl, by rw [hreference]; exact id, rfl⟩, rfl⟩
  | some name =>
    simp only [resolveConsoleCredentials]
    cases h : settings.credentials.getConsole name with
    | none => exact .inr ⟨_, rfl, by rw [Option.filter_some_pos (by rw [h]; rfl)]; rfl⟩
    | some credentials =>
      exact .inl ⟨_, rfl, ⟨some credentials, by rw [hreference]; exact h.symm, fun _ => rfl, rfl⟩,
        by rw [Option.filter_some_neg (by rw [h]; simp)]; rfl⟩

theorem validateAgentCommand_cases (settings : Settings) :
    (validateAgentCommand settings.serialAgentCommand = .ok settings.serialAgentCommand ∧
      ∀ ssh serialDevice baudrate console,
        settings.agentDefect (.pySerialOverSsh ssh serialDevice baudrate console) = none) ∨
    ∃ e, validateAgentCommand settings.serialAgentCommand = .error e ∧
      ∀ ssh serialDevice baudrate console,
        settings.agentDefect (.pySerialOverSsh ssh serialDevice baudrate console) = some e := by
  unfold validateAgentCommand Settings.agentDefect
  by_cases h : ∃ c ∈ settings.serialAgentCommand, c ∈ ['\x00', '\r', '\n']
  · simp only [if_pos h]
    exact .inr ⟨_, rfl, fun _ _ _ _ => rfl⟩
  · simp only [if_neg h]
    exact .inl ⟨trivial, fun _ _ _ _ => trivial⟩

/-- The two transports with an endpoint and a console; `make` calls the constructor. -/
theorem createBoth_cases (settings : Settings) (ssh : SshConnectionInventoryConfig)
    (console : ConsoleInventoryConfig)
    (make : SshConnectionConfig → ConsoleSessionConfig → Except CreationError RuntimeTransport) :
    let create : Except CreationError RuntimeTransport := do
      let ssh ← createSshConfig ssh settings
      let console ← createConsoleConfig console settings
      make ssh console
    let defect := (settings.sshDefect (some ssh.credentials)).or (settings.consoleDefect console.credentials)
    (∃ made made', create = make made made' ∧ SshLogin settings ssh made ∧
      ConsoleLogin settings console made' ∧ defect = none) ∨
    ∃ e, create = .error e ∧ defect = some e := by
  dsimp only
  rcases createSshConfig_cases settings ssh with ⟨made, h, hlogin, hnone⟩ | ⟨e, h, hsome⟩
  · rw [h, hnone]
    rcases createConsoleConfig_cases settings console with ⟨made', h', hlogin', hnone'⟩ | ⟨e, h', hsome'⟩
    · rw [h', hnone']
      exact .inl ⟨made, made', rfl, hlogin, hlogin', rfl⟩
    · rw [h', hsome']
      exact .inr ⟨e, rfl, rfl⟩
  · rw [h, hsome]
    exact .inr ⟨e, rfl, rfl⟩

theorem transportDefect_of_none {settings : Settings} {config : TransportConfig}
    (h : (settings.sshDefect config.sshReference).or (settings.consoleDefect config.consoleReference) = none) :
    settings.transportDefect config = settings.agentDefect config := by
  rw [Settings.transportDefect, h]
  rfl

theorem transportDefect_of_some {settings : Settings} {config : TransportConfig} {e : CreationError}
    (h : (settings.sshDefect config.sshReference).or (settings.consoleDefect config.consoleReference) = some e) :
    settings.transportDefect config = some e := by
  rw [Settings.transportDefect, h]
  rfl

/-- **The transport factory** returns what the configuration says, or raises its first defect. -/
theorem createTransport_cases (settings : Settings) (config : TransportConfig) :
    (∃ made, createTransport config settings = .ok made ∧ Matches settings config made ∧
      settings.transportDefect config = none) ∨
    ∃ e, createTransport config settings = .error e ∧ settings.transportDefect config = some e := by
  cases config with
  | other typeName => exact .inr ⟨_, rfl, rfl⟩
  | ssh ssh =>
    rcases createSshConfig_cases settings ssh with ⟨made, h, hlogin, hnone⟩ | ⟨e, h, hsome⟩
    · refine .inl ⟨.ssh made settings.connectTimeout settings.commandTimeout, ?_, ⟨.some hlogin, .none, rfl⟩,
        transportDefect_of_none (congrArg (Option.or · none) hnone)⟩
      simp only [createTransport, h]
      rfl
    · refine .inr ⟨e, ?_, transportDefect_of_some (congrArg (Option.or · none) hsome)⟩
      simp only [createTransport, h]
      rfl
  | pySerial serialDevice baudrate console =>
    rcases createConsoleConfig_cases settings console with ⟨made, h, hlogin, hnone⟩ | ⟨e, h, hsome⟩
    · refine .inl ⟨.pySerial serialDevice baudrate made settings.connectTimeout settings.commandTimeout, ?_,
        ⟨.none, .some hlogin, rfl⟩, transportDefect_of_none hnone⟩
      simp only [createTransport, h]
      rfl
    · refine .inr ⟨e, ?_, transportDefect_of_some hsome⟩
      simp only [createTransport, h]
      rfl
  | picocomOverSsh ssh serialDevice baudrate console =>
    rcases createBoth_cases settings ssh console fun ssh console => .ok
        (.picocomOverSsh ssh serialDevice baudrate console settings.connectTimeout settings.commandTimeout) with
      ⟨made, made', h, hlogin, hlogin', hnone⟩ | ⟨e, h, hsome⟩
    · exact .inl ⟨_, h, ⟨.some hlogin, .some hlogin', rfl⟩, transportDefect_of_none hnone⟩
    · exact .inr ⟨e, h, transportDefect_of_some hsome⟩
  | pySerialOverSsh ssh serialDevice baudrate console =>
    rcases createBoth_cases settings ssh console fun ssh console => do
        let serialAgentCommand ← validateAgentCommand settings.serialAgentCommand
        return .pySerialOverSsh ssh serialDevice baudrate console serialAgentCommand settings.connectTimeout
          settings.commandTimeout with
      ⟨made, made', h, hlogin, hlogin', hnone⟩ | ⟨e, h, hsome⟩
    · rcases validateAgentCommand_cases settings with ⟨hvalid, hagent⟩ | ⟨e, hinvalid, hagent⟩
      · refine .inl ⟨.pySerialOverSsh made serialDevice baudrate made' settings.serialAgentCommand
          settings.connectTimeout settings.commandTimeout, h.trans ?_, ⟨.some hlogin, .some hlogin', rfl⟩,
          (transportDefect_of_none hnone).trans (hagent ssh serialDevice baudrate console)⟩
        rw [hvalid]
        rfl
      · refine .inr ⟨e, h.trans ?_,
          (transportDefect_of_none hnone).trans (hagent ssh serialDevice baudrate console)⟩
        rw [hinvalid]
        rfl
    · exact .inr ⟨e, h, transportDefect_of_some hsome⟩

end Transport

/-! ## The two factories -/

section Built

variable {settings : Settings}

theorem constructorOf_cases (type : Text) :
    (∃ constructor, constructorOf type = .ok constructor ∧ deviceTypes.lookup type = some constructor ∧
      type ∈ deviceTypes.map Prod.fst) ∨
    constructorOf type = .error (unsupportedType type) ∧ type ∉ deviceTypes.map Prod.fst := by
  rw [constructorOf]
  cases h : deviceTypes.lookup type with
  | none => exact .inr ⟨rfl, lookup_eq_none_iff.mp h⟩
  | some constructor => exact .inl ⟨constructor, rfl, rfl, List.mem_map_of_mem (mem_of_lookup h)⟩

theorem createDevice_cases (config : DeviceConfig TransportConfig) (transport : SynchronizedTransport)
    (number : ℕ) :
    (∃ constructor, createDevice config transport number = .ok ⟨number, constructor, transport, config.model⟩ ∧
      deviceTypes.lookup config.type = some constructor ∧ config.type ∈ deviceTypes.map Prod.fst) ∨
    createDevice config transport number = .error (unsupportedType config.type) ∧
      config.type ∉ deviceTypes.map Prod.fst := by
  rw [createDevice]
  rcases constructorOf_cases config.type with ⟨constructor, h, hlookup, hmem⟩ | ⟨h, hmem⟩ <;> rw [h]
  · exact .inl ⟨constructor, rfl, hlookup, hmem⟩
  · exact .inr ⟨rfl, hmem⟩

theorem unusedNumber_notMem (numbers : List ℕ) : unusedNumber numbers ∉ numbers := not_mem_of_sum_lt numbers

/-- Every object is a new one. -/
theorem builtinFactories_distinct (settings : Settings) : (builtinFactories settings).Distinct where
  transport built config made h hmem := by
    obtain ⟨transport, -, rfl⟩ : ∃ transport, createTransport config settings = .ok transport ∧
        made = ⟨unusedNumber ((transports built).map SynchronizedTransport.number), transport⟩ := by
      change (createTransport config settings).map _ = .ok made at h
      cases hcreate : createTransport config settings with
      | error e =>
        rw [hcreate] at h
        cases h
      | ok transport =>
        rw [hcreate] at h
        cases h
        exact ⟨transport, rfl, rfl⟩
    exact unusedNumber_notMem _ (List.mem_map_of_mem (f := SynchronizedTransport.number) hmem)
  device built config given made h hmem := by
    rcases createDevice_cases config given (unusedNumber ((devices built).map Device.number)) with
      ⟨constructor, hcreate, -, -⟩ | ⟨hcreate, -⟩
    · obtain rfl : _ = made := Except.ok.inj (hcreate.symm.trans h)
      exact unusedNumber_notMem _ (List.mem_map_of_mem (f := Device.number) hmem)
    · cases hcreate.symm.trans h

theorem builtin_transport (settings : Settings) (built : BuiltinObjects) (config : TransportConfig) :
    (∃ made, (builtinFactories settings).transport built config = .ok made ∧
      Matches settings config made.transport ∧ settings.transportDefect config = none) ∨
    ∃ e, (builtinFactories settings).transport built config = .error e ∧
      settings.transportDefect config = some e := by
  show (∃ made, (createTransport config settings).map _ = .ok made ∧ _) ∨
    ∃ e, (createTransport config settings).map _ = .error e ∧ _
  rcases createTransport_cases settings config with ⟨made, h, hmatches, hnone⟩ | ⟨e, h, hsome⟩ <;> rw [h]
  · exact .inl ⟨_, rfl, hmatches, hnone⟩
  · exact .inr ⟨e, rfl, hsome⟩

/-- A part that the factories have built has what its entry says. -/
theorem equipped_of_madeBy {p : Part TransportConfig SynchronizedTransport Device}
    (h : p.MadeBy (builtinFactories settings)) :
    Equipped settings p.config p.device ∧ p.device.transport = p.transport ∧ settings.defect p.config = none := by
  obtain ⟨⟨built, htransport⟩, ⟨built', hdevice⟩⟩ := h
  rcases builtin_transport settings built p.config.transport with
    ⟨made, hmade, hmatches, hnone⟩ | ⟨e, he, -⟩
  · obtain rfl : made = p.transport := Except.ok.inj (hmade.symm.trans htransport)
    rcases createDevice_cases p.config p.transport (unusedNumber ((devices built').map Device.number)) with
      ⟨constructor, hcreate, hlookup, hmem⟩ | ⟨hcreate, -⟩
    · obtain heq : _ = p.device := Except.ok.inj (hcreate.symm.trans hdevice)
      refine ⟨⟨?_, ?_, ?_⟩, ?_, ?_⟩
      · rw [← heq]
        exact hlookup
      · rw [← heq]
      · rw [← heq]
        exact hmatches
      · rw [← heq]
      · rw [Settings.defect, hnone, if_pos hmem]
        rfl
    · cases hcreate.symm.trans hdevice
  · cases he.symm.trans htransport

/-- A factory raises the defect of the device. -/
theorem defect_of_raises {parts : List (Part TransportConfig SynchronizedTransport Device)}
    {config : DeviceConfig TransportConfig} {e : CreationError} {built : BuiltinObjects}
    (h : Raises (builtinFactories settings) parts config e built) : settings.defect config = some e := by
  rcases h with h | ⟨transport, h, h'⟩
  · rcases builtin_transport settings (parts.flatMap Part.built) config.transport with
      ⟨made, hmade, -, -⟩ | ⟨e', he', hsome⟩
    · cases hmade.symm.trans h
    · cases he'.symm.trans h
      rw [Settings.defect, hsome]
      rfl
  · rcases builtin_transport settings (parts.flatMap Part.built) config.transport with
      ⟨made, -, -, hnone⟩ | ⟨e', he', -⟩
    · rcases createDevice_cases config transport (unusedNumber ((devices (parts.flatMap Part.built
          ++ [.transport config.transport transport])).map Device.number)) with
        ⟨constructor, hcreate, -, -⟩ | ⟨hcreate, hmem⟩
      · cases hcreate.symm.trans h'
      · cases hcreate.symm.trans h'
        rw [Settings.defect, hnone, if_neg hmem]
        rfl
    · cases he'.symm.trans h

end Built

/-! ## The stand -/

section Stand

variable {settings : Settings} {inventory : Inventory (DeviceConfig TransportConfig)} {config : StandConfig}

/-- Every role has a device with what the entry of its ID says, and roles share a device, and a transport, when
they name one ID. -/
structure Furnished (settings : Settings) (inventory : Inventory (DeviceConfig TransportConfig))
    (config : StandConfig) (made : TestStand Device) : Prop where
  roles : made.devices.map Prod.fst = config.devices.map Prod.fst
  equipped : ∀ i (h : i < config.devices.length) (h' : i < made.devices.length),
    ∃ entry, inventory.devices.lookup config.devices[i].2 = some entry ∧ settings.defect entry = none ∧
      Equipped settings entry made.devices[i].2
  shared : ∀ i j (hi : i < config.devices.length) (hj : j < config.devices.length)
    (hi' : i < made.devices.length) (hj' : j < made.devices.length),
    config.devices[i].2 = config.devices[j].2 → made.devices[i].2 = made.devices[j].2
  apart : ∀ i j (hi : i < config.devices.length) (hj : j < config.devices.length)
    (hi' : i < made.devices.length) (hj' : j < made.devices.length),
    made.devices[i].2.transport = made.devices[j].2.transport → config.devices[i].2 = config.devices[j].2

/-- The composition has stopped at a device with a defect, which is raised; no device before it had one. -/
structure StopsAt (settings : Settings) (inventory : Inventory (DeviceConfig TransportConfig))
    (config : StandConfig) (e : CreationError) : Prop where
  first : ∃ before role name after entry, config.devices = before ++ (role, name) :: after ∧
    inventory.devices.lookup name = some entry ∧ settings.defect entry = some e ∧
    ∀ earlier ∈ before, ∀ entry, inventory.devices.lookup earlier.2 = some entry → settings.defect entry = none

/-- The devices of roles that were composed have no defect. -/
theorem sound_of_composed {roles : List (Text × Text)}
    {parts : List (Part TransportConfig SynchronizedTransport Device)} {byRole : List (Text × Device)}
    (h : Composed inventory.devices roles parts byRole) (hmade : ∀ p ∈ parts, p.MadeBy (builtinFactories settings))
    {role : Text × Text} (hrole : role ∈ roles) {entry : DeviceConfig TransportConfig}
    (hentry : inventory.devices.lookup role.2 = some entry) : settings.defect entry = none := by
  obtain ⟨p, hp, hname⟩ : ∃ p ∈ parts, p.name = role.2 := by
    have hmem : role.2 ∈ parts.map Part.name := by
      rw [h.names, mem_fromkeys]
      exact List.mem_map_of_mem hrole
    exact List.mem_map.mp hmem
  have hconfig := h.configs p hp
  rw [hname, hentry] at hconfig
  cases hconfig
  exact (equipped_of_madeBy (hmade p hp)).2.2

theorem furnished_of_composed {parts : List (Part TransportConfig SynchronizedTransport Device)}
    {byRole : List (Text × Device)} (h : Composed inventory.devices config.devices parts byRole)
    (hmade : ∀ p ∈ parts, p.MadeBy (builtinFactories settings)) : Furnished settings inventory config ⟨byRole⟩ where
  roles := h.keys
  equipped i hi hi' := by
    obtain ⟨p, hp, hname, hdevice⟩ := h.shared i hi hi'
    obtain ⟨hequipped, -, hdefect⟩ := equipped_of_madeBy (hmade p hp)
    refine ⟨p.config, hname ▸ h.configs p hp, hdefect, ?_⟩
    rw [← hdevice]
    exact hequipped
  shared i j hi hj hi' hj' := (h.same_iff i j hi hj hi' hj').mpr
  apart i j hi hj hi' hj' hsame := by
    obtain ⟨p, hp, hname, hdevice⟩ := h.shared i hi hi'
    obtain ⟨q, hq, hname', hdevice'⟩ := h.shared j hj hj'
    have heq : p = q := by
      refine List.inj_on_of_nodup_map h.transports_nodup hp hq ?_
      rw [← (equipped_of_madeBy (hmade p hp)).2.1, ← (equipped_of_madeBy (hmade q hq)).2.1, hdevice, hdevice']
      exact hsame
    rw [← hname, ← hname', heq]

/-- **The stand that the built-in factories compose.** -/
theorem createStand_cases (settings : Settings) {stand : Text × StandConfig} (hstand : stand ∈ inventory.stands)
    (hkeys : (stand.2.devices.map Prod.fst).Nodup) :
    (∃ made built, createStand inventory stand.2 settings = (.ok made, built) ∧
      Furnished settings inventory stand.2 made) ∨
    ∃ e built, createStand inventory stand.2 settings = (.error (.factory e), built) ∧
      StopsAt settings inventory stand.2 e := by
  have hends := createLoop_ends (builtinFactories_distinct settings) hstand hkeys
  rw [createStand, compose_eq]
  generalize createLoop (builtinFactories settings) inventory stand.2 = ended at hends
  cases hends with
  | built parts byRole h hmade => exact .inl ⟨_, _, rfl, furnished_of_composed h hmade⟩
  | raised before after role name entry parts byRole e built hrest h hmade hconfig hraises =>
    exact .inr ⟨e, built, rfl, ⟨before, role, name, after, entry, hrest, hconfig, defect_of_raises hraises,
      fun earlier hearlier entry hentry => sound_of_composed h hmade hearlier hentry⟩⟩

/-- Two profiles of credentials are the same for a device: those that its entry names. -/
structure SameFor (credentials credentials' : CredentialSettings) (entry : DeviceConfig TransportConfig) :
    Prop where
  ssh : ∀ name ∈ entry.transport.sshReference, credentials.getSsh name = credentials'.getSsh name
  console : ∀ name ∈ entry.transport.consoleReference, credentials.getConsole name = credentials'.getConsole name

/-- A transport is created from the credentials that its configuration names. -/
theorem createTransport_congr {credentials : CredentialSettings} {entry : DeviceConfig TransportConfig}
    (h : SameFor credentials settings.credentials entry) :
    createTransport entry.transport { settings with credentials := credentials }
      = createTransport entry.transport settings := by
  obtain ⟨hssh, hconsole⟩ := h
  have hendpoint : ∀ ssh ∈ entry.transport.endpoint,
      createSshConfig ssh { settings with credentials := credentials } = createSshConfig ssh settings := by
    intro ssh hmem
    rw [createSshConfig, createSshConfig, hssh ssh.credentials (Option.mem_map_of_mem _ hmem)]
  have hlogin : ∀ console ∈ entry.transport.console,
      createConsoleConfig console { settings with credentials := credentials }
        = createConsoleConfig console settings := by
    intro console hmem
    rw [createConsoleConfig, createConsoleConfig]
    cases hreference : console.credentials with
    | none => rfl
    | some name =>
      have hname := hconsole name (Option.mem_bind_iff.mpr ⟨console, hmem, hreference⟩)
      simp only [resolveConsoleCredentials, hname]
  cases htransport : entry.transport with
  | other typeName => rfl
  | ssh ssh =>
    rw [htransport] at hendpoint
    simp only [createTransport, hendpoint ssh rfl]
  | pySerial serialDevice baudrate console =>
    rw [htransport] at hlogin
    simp only [createTransport, hlogin console rfl]
  | picocomOverSsh ssh serialDevice baudrate console =>
    rw [htransport] at hendpoint hlogin
    simp only [createTransport, hendpoint ssh rfl, hlogin console rfl]
  | pySerialOverSsh ssh serialDevice baudrate console =>
    rw [htransport] at hendpoint hlogin
    simp only [createTransport, hendpoint ssh rfl, hlogin console rfl]

/-- **A stand depends on the credentials that its own devices name**, and on no others. -/
theorem createStand_congr {credentials : CredentialSettings}
    (h : ∀ role ∈ config.devices, ∀ entry, inventory.devices.lookup role.2 = some entry →
      SameFor credentials settings.credentials entry) :
    createStand inventory config { settings with credentials := credentials }
      = createStand inventory config settings := by
  have hloop : createLoop (builtinFactories { settings with credentials := credentials }) inventory config
      = createLoop (builtinFactories settings) inventory config := by
    rw [createLoop, createLoop]
    refine createEach_congr (fun role hrole entry hentry => ?_) [] [] []
    refine ⟨fun built => ?_, fun _ _ => rfl⟩
    exact congrArg (Except.map _) (createTransport_congr (h role hrole entry hentry))
  rw [createStand, createStand, compose_eq, compose_eq, hloop]

/-! ## Access by role -/

/-- A class that a caller expects. -/
inductive DeviceType
  | device
  | dut
  | analyzer
  | generator
  deriving DecidableEq

def DeviceClass.type : DeviceClass → DeviceType
  | .dut => .dut
  | .analyzer => .analyzer
  | .generator => .generator

/-- `isinstance`: every class is a `Device`. -/
def DeviceClass.isInstance (constructor : DeviceClass) (expected : DeviceType) : Bool :=
  decide (expected = .device ∨ constructor.type = expected)

/-- How access fails: there is no such role, which the message answers with those that there are; or its device is
of another class. -/
inductive AccessError
  | lookupError (role available : Text)
  | typeError (role : Text) (expected got : DeviceType)
  deriving DecidableEq

namespace TestStand

def device (stand : TestStand Device) (role : Text) (expected : DeviceType) : Except AccessError Device :=
  match stand.devices.lookup role with
  | none =>
    let available := List.intercalate ", ".toList ((stand.devices.map Prod.fst).insertionSort (· ≤ ·))
    .error (.lookupError role (if available = [] then "none".toList else available))
  | some device =>
    if device.deviceClass.isInstance expected then .ok device
    else .error (.typeError role expected device.deviceClass.type)

def optionalDevice (stand : TestStand Device) (role : Text) (expected : DeviceType) :
    Except AccessError (Option Device) :=
  if role ∉ stand.devices.map Prod.fst then .ok none else (stand.device role expected).map some

def dut (stand : TestStand Device) : Except AccessError Device := stand.device "dut".toList .dut

def analyzer (stand : TestStand Device) : Except AccessError (Option Device) :=
  stand.optionalDevice "analyzer".toList .analyzer

def generator (stand : TestStand Device) : Except AccessError (Option Device) :=
  stand.optionalDevice "generator".toList .generator

end TestStand

/-- The type of an entry by the class of its device. -/
theorem mem_deviceTypes {type : Text} {constructor : DeviceClass}
    (h : deviceTypes.lookup type = some constructor) :
    (type, constructor) ∈ [("dut".toList, DeviceClass.dut), ("analyzer".toList, .analyzer),
      ("generator".toList, .generator)] := mem_of_lookup h

/-- **A device by its role** has what the entry of this role's ID says, and its class is what was expected. -/
theorem Furnished.device_ok {made : TestStand Device} (h : Furnished settings inventory config made) {role : Text}
    {expected : DeviceType} {device : Device} (hdevice : made.device role expected = .ok device) :
    ∃ name entry, (role, name) ∈ config.devices ∧ inventory.devices.lookup name = some entry ∧
      Equipped settings entry device ∧ device.deviceClass.isInstance expected := by
  rw [TestStand.device] at hdevice
  cases hlookup : made.devices.lookup role with
  | none =>
    rw [hlookup] at hdevice
    cases hdevice
  | some found =>
    rw [hlookup] at hdevice
    dsimp only at hdevice
    split_ifs at hdevice with hinstance
    obtain rfl : found = device := Except.ok.inj hdevice
    obtain ⟨i, hi, hget⟩ := List.getElem_of_mem (mem_of_lookup hlookup)
    have hlength : made.devices.length = config.devices.length := by
      have := congrArg List.length h.roles
      rwa [List.length_map, List.length_map] at this
    have hi' : i < config.devices.length := hlength ▸ hi
    obtain ⟨entry, hentry, -, hequipped⟩ := h.equipped i hi' hi
    have hrole : config.devices[i].1 = role := by
      have hkeys := congrArg (fun keys => keys[i]?) h.roles
      simp only [List.getElem?_map, List.getElem?_eq_getElem hi, List.getElem?_eq_getElem hi', Option.map_some,
        hget] at hkeys
      exact (Option.some.inj hkeys).symm
    rw [hget] at hequipped
    exact ⟨config.devices[i].2, entry, by rw [← hrole]; exact List.getElem_mem hi', hentry, hequipped, hinstance⟩

/-- The device under test is one in the inventory. -/
theorem Furnished.dut_ok {made : TestStand Device} (h : Furnished settings inventory config made) {device : Device}
    (hdut : made.dut = .ok device) :
    ∃ name entry, ("dut".toList, name) ∈ config.devices ∧ inventory.devices.lookup name = some entry ∧
      entry.type = "dut".toList ∧ Equipped settings entry device := by
  obtain ⟨name, entry, hmem, hentry, hequipped, hinstance⟩ := h.device_ok hdut
  refine ⟨name, entry, hmem, hentry, ?_, hequipped⟩
  have htype := mem_deviceTypes hequipped.type
  cases hclass : device.deviceClass with
  | dut =>
    rw [hclass] at htype
    simpa using htype
  | analyzer =>
    rw [hclass] at hinstance
    cases hinstance
  | generator =>
    rw [hclass] at hinstance
    cases hinstance

/-! ## The whole -/

/-- **Credentials go to the devices that name them.**  A stand of a validated inventory is composed when no device
of its roles has a defect, and otherwise the defect of the first is raised.  Every device then has its own
transport, with the login data of the profiles that its own entry names; and whatever the other profiles hold,
the outcome is the same. -/
theorem credentials_go_where_named (settings : Settings) (inventory : Inventory (DeviceConfig TransportConfig))
    (stand : Text × StandConfig) (hstand : stand ∈ inventory.stands)
    (hkeys : (stand.2.devices.map Prod.fst).Nodup) :
    ((∃ made built, createStand inventory stand.2 settings = (.ok made, built) ∧
        Furnished settings inventory stand.2 made) ∨
      ∃ e built, createStand inventory stand.2 settings = (.error (.factory e), built) ∧
        StopsAt settings inventory stand.2 e) ∧
    ∀ credentials : CredentialSettings,
      (∀ role ∈ stand.2.devices, ∀ entry, inventory.devices.lookup role.2 = some entry →
        SameFor credentials settings.credentials entry) →
      createStand inventory stand.2 { settings with credentials := credentials }
        = createStand inventory stand.2 settings :=
  ⟨createStand_cases settings hstand hkeys, fun _ h => createStand_congr h⟩

end Stand

/-! ## A stand with two login names -/

section Sample

def benchCredentials : CredentialSettings where
  defaultSsh := some ⟨"operator", "seven"⟩
  analyzerDefault := none
  generatorDefault := none
  ssh := []
  console := [("board-console", ⟨"root", "toor"⟩)]

def benchSettings : Settings where
  credentials := benchCredentials
  commandTimeout := .finite 30
  connectTimeout := .finite 10
  sshHostKeyPolicy := .reject
  sshKnownHostsPath := none
  serialAgentCommand := "hardware-serial-helper"

def benchMarker : ConsoleMarker := ⟨"board# ".toList, by decide, clean_of_all (by decide)⟩

def boardConsole : ConsoleInventoryConfig where
  prompt := benchMarker
  initialPromptSuffix := benchMarker
  loginPrompt := benchMarker
  passwordPrompt := benchMarker
  credentials := some "board-console"

def scopeConnection : SshConnectionInventoryConfig where
  host := "scope.lab"
  port := 22
  credentials := "default-ssh"
  hostKeyPolicy := none
  port_range := by decide

def benchStand : StandConfig := ⟨none, [], [("dut", "board"), ("analyzer", "scope")]⟩

/-- The board is reached over a serial line, the scope over SSH. -/
def benchInventory : Inventory (DeviceConfig TransportConfig) where
  devices := [("scope", ⟨"analyzer", "S1", .ssh scopeConnection⟩),
    ("board", ⟨"dut", "B2", .pySerial "/dev/ttyUSB0" 115200 boardConsole⟩)]
  stands := [("bench", benchStand)]
  resolved := by decide

/-- The profile of a generator that the stand does not have is changed. -/
def changedCredentials : CredentialSettings := { benchCredentials with generatorDefault := some ⟨"admin", "new"⟩ }

theorem credentials_go_where_named_sample :
    (∃ made built, createStand benchInventory benchStand benchSettings = (.ok made, built) ∧
      Furnished benchSettings benchInventory benchStand made) ∧
    createStand benchInventory benchStand { benchSettings with credentials := changedCredentials }
      = createStand benchInventory benchStand benchSettings := by
  obtain ⟨hcases, hsame⟩ := credentials_go_where_named benchSettings benchInventory ("bench", benchStand)
    List.mem_cons_self (by decide)
  refine ⟨hcases.resolve_right ?_, hsame changedCredentials ?_⟩
  · rintro ⟨e, built, h, -⟩
    cases h
  · intro role hrole entry hentry
    fin_cases hrole <;> cases hentry
    · exact ⟨fun name hname => (by cases hname), fun name hname => by cases hname; rfl⟩
    · exact ⟨fun name hname => (by cases hname; rfl), fun name hname => by cases hname⟩

end Sample

end HardwareTest.Stand
