import HardwareTest.Agent.SerialAgent

/-!
# One connection at a time

Every request has one of a few effects on the bench (`Effect`): it is refused, it asks for a device, it
creates a connection, it uses the owned one, or it closes it.  The ownership of the slot is an
invariant of these effects.

* `OpensDevice` — the requests that may reach the serial factory;
* `handle_effect` — the effect of a request;
* `Respects` — what follows from it for one request;
* `owns_one` — over every sequence of requests, the port that is created and not closed is the one in
  the slot, and every request respects it.
-/

namespace HardwareTest.Agent

open HardwareTest.Lib HardwareTest.Lib.Json HardwareTest.Python

/-! ## Requests that open a device -/

/-- An `open` request in order, and the arguments it gives to the factory. -/
structure OpensDevice (request : Request) (p : SerialParameters) : Prop where
  version : equalsVersion (get request (codes "version")) = true
  operation : get request (codes "operation") = some (.str (codes "open"))
  fields : ∀ name, name ∈ request.map Prod.fst ↔
    name ∈ [codes "version", codes "operation", codes "device", codes "baudrate"]
  device : get request (codes "device") = some (.str p.port)
  clean : ∀ c ∈ controlCharacters, c ∉ p.port
  below : ∃ rest, rest ≠ [] ∧ PurePosixPath.parse p.port = ⟨codes "/", codes "dev" :: rest⟩ ∧
    codes ".." ∉ rest
  baudrate : get request (codes "baudrate") = some (.int p.baudrate)
  bounds : 1 ≤ p.baudrate ∧ p.baudrate ≤ 10000000

theorem dev_eq : dev = ⟨codes "/", [codes "dev"]⟩ := by decide

/-- A path below `/dev`. -/
theorem below_dev {path : PurePosixPath} (hne : path ≠ dev) (hrel : path.isRelativeTo dev = true) :
    ∃ rest, rest ≠ [] ∧ path = ⟨codes "/", codes "dev" :: rest⟩ := by
  simp only [PurePosixPath.isRelativeTo, decide_eq_true_eq] at hrel
  rcases hrel with heq | hparent
  · exact absurd heq.symm hne
  · obtain ⟨k, hk, hpath⟩ := List.mem_map.mp hparent
    rw [List.mem_range] at hk
    rw [dev_eq] at hpath
    obtain ⟨root, tail⟩ := path
    simp only [PurePosixPath.mk.injEq] at hpath
    obtain ⟨rfl, htake⟩ := hpath
    cases tail with
    | nil => simp at htake
    | cons name rest =>
      cases k with
      | zero => simp at htake
      | succ k =>
        simp only [List.take_succ_cons, List.cons.injEq] at htake
        refine ⟨rest, ?_, by rw [htake.1]⟩
        rintro rfl
        rw [List.length_singleton] at hk
        omega

/-- What `_validate_device` accepts. -/
theorem validateDevice_ok {value device : Str} (h : validateDevice value = .ok device) :
    device = value ∧ (∀ c ∈ controlCharacters, c ∉ value) ∧
      ∃ rest, rest ≠ [] ∧ PurePosixPath.parse value = ⟨codes "/", codes "dev" :: rest⟩ ∧
        codes ".." ∉ rest := by
  unfold validateDevice at h
  dsimp only at h
  split_ifs at h with hcontrol hpath
  cases h
  push Not at hcontrol hpath
  obtain ⟨-, hne, hrel, hdots⟩ := hpath
  obtain ⟨rest, hrest, hparse⟩ := below_dev hne hrel
  refine ⟨rfl, hcontrol, rest, hrest, hparse, fun hmem => hdots ?_⟩
  rw [hparse]
  exact List.mem_cons_of_mem _ (List.mem_cons_of_mem _ hmem)

theorem validateDevice_expected (value : Str) : Expected (validateDevice value) := by
  unfold validateDevice
  dsimp only
  split_ifs
  · exact expected_agentError (by decide) _
  · exact expected_agentError (by decide) _
  · exact expected_ok _

theorem nonEmptyString_eq {v : Option JsonValue} {s : Str} (h : nonEmptyString v = some s) :
    v = some (.str s) := by
  unfold nonEmptyString at h
  split at h
  · cases h
    rfl
  · cases h

theorem requireString_ok {request : Request} {name value : Str}
    (h : requireString request name = .ok value) : get request name = some (.str value) := by
  unfold requireString at h
  split at h
  · rename_i hs
    cases h
    exact nonEmptyString_eq hs
  · cases h

theorem requireInt_ok {request : Request} {name : Str} {minimum maximum value : ℤ}
    (h : requireInt request name minimum maximum = .ok value) :
    get request name = some (.int value) ∧ minimum ≤ value ∧ value ≤ maximum := by
  unfold requireInt at h
  dsimp only at h
  split at h
  · rename_i hget
    split_ifs at h with hrange
    cases h
    exact ⟨hget, hrange⟩
  · cases h

theorem validateEnvelope_ok {request : Request} {operation : Str}
    (h : validateEnvelope request = .ok operation) :
    equalsVersion (get request (codes "version")) = true ∧
      get request (codes "operation") = some (.str operation) := by
  unfold validateEnvelope at h
  split_ifs at h with hversion
  split at h
  · rename_i hoperation
    cases h
    exact ⟨hversion, nonEmptyString_eq hoperation⟩
  · cases h

/-- A field that has a value is a key. -/
theorem mem_of_get {request : Request} {name : Str} {v : JsonValue} (h : get request name = some v) :
    name ∈ request.map Prod.fst := by
  induction request with
  | nil => cases h
  | cons m request ih =>
    rw [Python.get, List.lookup_cons] at h
    by_cases hname : name == m.1
    · rw [eq_of_beq hname]
      exact List.mem_cons_self
    · rw [Bool.not_eq_true] at hname
      simp only [hname] at h
      exact List.mem_cons_of_mem _ (ih h)

/-- **The fields of a valid request** are the required ones and the common ones. -/
theorem validateFields_ok {request : Request} {required : List Str} {operation : Str}
    (h : validateFields request required [] = .ok ())
    (henvelope : validateEnvelope request = .ok operation) (name : Str) :
    name ∈ request.map Prod.fst ↔ name ∈ common ++ required := by
  unfold validateFields at h
  split_ifs at h with hmissing hunexpected
  rw [not_not, missing, List.filter_eq_nil_iff] at hmissing
  rw [not_not, unexpected, List.filter_eq_nil_iff] at hunexpected
  obtain ⟨hversion, hoperation⟩ := validateEnvelope_ok henvelope
  constructor
  · intro hname
    have hkey := hunexpected name hname
    simp only [List.not_mem_nil, not_false_eq_true, true_and, decide_eq_true_eq] at hkey
    rw [List.mem_append]
    tauto
  · intro hname
    rcases List.mem_append.mp hname with hcommon | hrequired
    · rcases List.mem_cons.mp hcommon with rfl | hcommon
      · cases hget : get request (codes "version") with
        | none =>
          rw [hget] at hversion
          cases hversion
        | some v => exact mem_of_get hget
      · rw [List.mem_singleton.mp hcommon]
        exact mem_of_get hoperation
    · simpa using hmissing name hrequired

/-! ## The effect of a request -/

/-- A call that uses a port. -/
def Op.Uses (port : ℕ) : Op → Prop
  | .setTimeout p _ => p = port
  | .read p _ => p = port
  | .write p _ => p = port
  | .resetInputBuffer p => p = port
  | .resetOutputBuffer p => p = port
  | _ => False

/-- A refusal of the request, which is not a failure of the serial library. -/
def Raised.Refuses (e : Raised) : Prop := ∃ code message, e = .agentError code message ∧ code ≠ serialIo

/-- A `read` whose timeout overflows: everything that is checked before it is in order. -/
structure OverflowingRead (request : Request) (b : Bench) : Prop where
  operation : validateEnvelope request = .ok (codes "read")
  fields : validateFields request [codes "size", codes "timeout"] [] = .ok ()
  owned : b.connection.isSome
  size : ∃ size, requireInt request (codes "size") 1 maxReadBytes = .ok size
  overflows : TimeoutOverflows request

/-- How a request that was executed ends: in a success, or in a failure of the library. -/
def Executed : Except Raised Response → Prop
  | .ok response => ∃ values, response = success values
  | .error e => ∃ message, e = .serialError message

/-- What a request does to the bench, with its result before the handler. -/
inductive Effect (request : Request) (b : Bench) : Except Raised Response × Bench → Prop
  | answered (values : List (Str × JsonValue)) : Effect request b (.ok (success values), b)
  | refused {e : Raised} (he : e.Refuses) : Effect request b (.error e, b)
  | noDevice (device : Str) {e : Raised} (he : e.Refuses) :
    Effect request b (.error e, b.record (.isCharDevice device))
  | overflow (h : OverflowingRead request b) : Effect request b (.error .overflowError, b)
  | created (p : SerialParameters) (hnone : b.connection = none) (hopens : OpensDevice request p) :
    Effect request b (.ok (success []),
      { (b.record (.isCharDevice p.port)).record (.serialFactory p) with
        connection := some b.ports.length, ports := b.ports ++ [⟨p, p.timeout, [], []⟩] })
  | notCreated (p : SerialParameters) (hnone : b.connection = none) (hopens : OpensDevice request p)
      (message : Str) :
    Effect request b (.error (.serialError message),
      (b.record (.isCharDevice p.port)).record (.serialFactory p))
  | used (port : ℕ) (hport : b.connection = some port) (ops : List Op) (hops : ∀ op ∈ ops, op.Uses port)
      (b' : Bench) (hconnection : b'.connection = b.connection)
      (hports : b'.ports.length = b.ports.length) (hcalls : b'.calls = b.calls ++ ops)
      (r : Except Raised Response) (hr : Executed r) : Effect request b (r, b')
  | closed (port : ℕ) (hport : b.connection = some port) (r : Except Raised Response) (hr : Executed r) :
    Effect request b (r, { b.record (.close port) with connection := none })

section Effects

variable {env : Env} {request : Request} {b : Bench}

theorem Expected.refuses {α : Type} {r : Except Raised α} (hr : Expected r) {e : Raised}
    (he : r = .error e) : e.Refuses := hr e he

/-- A validator refuses, or the body goes on with its value. -/
theorem effect_validator {α : Type} {r : Except Raised α} (hr : Expected r) {f : α → AgentM Response}
    (hf : ∀ a, r = .ok a → Effect request b ((f a).eval (answer env) b)) :
    Effect request b ((Program.ofExcept r >>= f).eval (answer env) b) := by
  rw [Program.eval_bind, Program.eval_ofExcept]
  cases r with
  | ok a => exact hf a rfl
  | error e => exact .refused (hr.refuses rfl)

/-- Without a connection a request is refused, otherwise the body goes on with the owned port. -/
theorem effect_requireConnection {f : ℕ → AgentM Response}
    (hf : ∀ port, b.connection = some port → Effect request b ((f port).eval (answer env) b)) :
    Effect request b ((SerialAgent.requireConnection >>= f).eval (answer env) b) := by
  rw [Program.eval_bind, SerialAgent.requireConnection, Program.eval_call]
  cases hconnection : b.connection with
  | none =>
    simp only [answer, hconnection, Program.eval_throw]
    exact .refused ⟨_, _, rfl, by decide⟩
  | some port =>
    simp only [answer, hconnection, Program.eval_pure]
    exact hf port hconnection

theorem hello_effect : Effect request b ((SerialAgent.hello request).eval (answer env) b) :=
  effect_validator (validateFields_expected request [] []) fun _ _ => .answered _

theorem create_effect {device : Str} {baudrate : ℤ} (hnone : b.connection = none)
    (hopens : OpensDevice request (SerialAgent.parameters device baudrate)) :
    Effect request b ((SerialAgent.create device baudrate).eval (answer env)
      (b.record (.isCharDevice device))) := by
  rw [SerialAgent.create, Program.eval_call]
  cases hfactory : env.serialFactory ((b.record (.isCharDevice device)).record
      (.serialFactory (SerialAgent.parameters device baudrate))).calls with
  | ok _ =>
    simp only [answer, hfactory]
    exact .created (SerialAgent.parameters device baudrate) hnone hopens
  | error message =>
    simp only [answer, hfactory]
    exact .notCreated (SerialAgent.parameters device baudrate) hnone hopens message

theorem open_effect (henvelope : validateEnvelope request = .ok (codes "open")) :
    Effect request b ((SerialAgent.open request).eval (answer env) b) := by
  refine effect_validator (validateFields_expected _ _ _) fun _ hfields => ?_
  rw [Program.eval_call]
  cases hconnection : b.connection with
  | some port =>
    simp only [answer, hconnection, Program.eval_throw]
    exact .refused ⟨_, _, rfl, by decide⟩
  | none =>
    simp only [answer, hconnection]
    refine effect_validator (requireString_expected _ _) fun value hvalue => ?_
    refine effect_validator (validateDevice_expected _) fun device hdevice => ?_
    refine effect_validator (requireInt_expected _ _ _ _) fun baudrate hbaudrate => ?_
    rw [Program.eval_call]
    simp only [answer]
    split
    · obtain ⟨rfl, hclean, hbelow⟩ := validateDevice_ok hdevice
      obtain ⟨hbaudrate, hbounds⟩ := requireInt_ok hbaudrate
      obtain ⟨hversion, hoperation⟩ := validateEnvelope_ok henvelope
      exact create_effect hconnection
        { version := hversion
          operation := hoperation
          fields := validateFields_ok hfields henvelope
          device := requireString_ok hvalue
          clean := hclean
          below := hbelow
          baudrate := hbaudrate
          bounds := hbounds }
    · exact .noDevice device ⟨_, _, rfl, by decide⟩

/-- One call that uses the owned port, with a response or a failure after it. -/
theorem effect_use (request : Request) (env : Env) (op : Op) {port : ℕ} (hport : b.connection = some port)
    (huses : op.Uses port) (hconnection : (answer env op b).2.connection = b.connection)
    (hports : (answer env op b).2.ports.length = b.ports.length)
    (hcalls : (answer env op b).2.calls = b.calls ++ [op]) (r : Except Raised Response)
    (hr : Executed r) : Effect request b (r, (answer env op b).2) := by
  refine .used port hport [op] ?_ _ hconnection hports hcalls r hr
  intro op' hop
  rw [List.mem_singleton.mp hop]
  exact huses

theorem write_effect : Effect request b ((SerialAgent.write request).eval (answer env) b) := by
  refine effect_validator (validateFields_expected _ _ _) fun _ _ => ?_
  refine effect_requireConnection fun port hport => ?_
  refine effect_validator (decodePayload_expected _) fun payload _ => ?_
  have huse := effect_use request env (.write port payload) hport rfl rfl
    (Bench.length_update ..) rfl
  rw [Program.eval_call]
  cases (answer env (.write port payload) b).1 with
  | ok count => exact huse _ ⟨_, rfl⟩
  | error message => exact huse _ ⟨message, rfl⟩

theorem resetInput_effect :
    Effect request b ((SerialAgent.resetInput request).eval (answer env) b) := by
  refine effect_validator (validateFields_expected _ _ _) fun _ _ => ?_
  refine effect_requireConnection fun port hport => ?_
  have huse := effect_use request env (.resetInputBuffer port) hport rfl rfl
    rfl rfl
  rw [Program.eval_call]
  cases (answer env (.resetInputBuffer port) b).1 with
  | ok _ => exact huse _ ⟨_, rfl⟩
  | error message => exact huse _ ⟨message, rfl⟩

theorem resetOutput_effect :
    Effect request b ((SerialAgent.resetOutput request).eval (answer env) b) := by
  refine effect_validator (validateFields_expected _ _ _) fun _ _ => ?_
  refine effect_requireConnection fun port hport => ?_
  have huse := effect_use request env (.resetOutputBuffer port) hport rfl rfl
    rfl rfl
  rw [Program.eval_call]
  cases (answer env (.resetOutputBuffer port) b).1 with
  | ok _ => exact huse _ ⟨_, rfl⟩
  | error message => exact huse _ ⟨message, rfl⟩

/-- Reading a port leaves the slot and the number of ports. -/
theorem answer_read (env : Env) (b : Bench) (port : ℕ) (size : ℤ) :
    (answer env (.read port size) b).2.connection = b.connection ∧
      (answer env (.read port size) b).2.ports.length = b.ports.length ∧
      (answer env (.read port size) b).2.calls = b.calls ++ [.read port size] := by
  rw [answer]
  cases hread : env.read (b.record (.read port size)).calls with
  | ok bytes => simp
  | error message => simp

theorem read_effect (henvelope : validateEnvelope request = .ok (codes "read")) :
    Effect request b ((SerialAgent.read request).eval (answer env) b) := by
  refine effect_validator (validateFields_expected _ _ _) fun _ hfields => ?_
  refine effect_requireConnection fun port hport => ?_
  refine effect_validator (requireInt_expected _ _ _ _) fun size hsize => ?_
  rcases requireTimeout_raises request with ⟨hoverflow, heq⟩ | ⟨-, hexpected⟩
  · rw [heq]
    exact .overflow ⟨henvelope, hfields, by rw [hport]; rfl, ⟨size, hsize⟩, hoverflow⟩
  · refine effect_validator hexpected fun timeout _ => ?_
    have huse := effect_use request env (.setTimeout port timeout) hport rfl
      rfl (Bench.length_update ..) rfl
    rw [Program.eval_call]
    cases (answer env (.setTimeout port timeout) b).1 with
    | error message => exact huse _ ⟨message, rfl⟩
    | ok _ =>
      obtain ⟨hconnection, hports, hcalls⟩ :=
        answer_read env (answer env (.setTimeout port timeout) b).2 port size
      have hboth : ∀ r : Except Raised Response, _ → Effect request b (r, _) := fun r =>
        .used port hport [.setTimeout port timeout, .read port size] (by simp [Op.Uses]) _ hconnection
          (hports.trans (Bench.length_update ..)) (hcalls.trans (by simp [answer])) r
      rw [Program.eval_call]
      cases (answer env (.read port size) (answer env (.setTimeout port timeout) b).2).1 with
      | ok payload => exact hboth _ ⟨_, rfl⟩
      | error message => exact hboth _ ⟨message, rfl⟩

theorem close_effect : Effect request b ((SerialAgent.closeOperation request).eval (answer env) b) := by
  refine effect_validator (validateFields_expected _ _ _) fun _ _ => ?_
  rw [Program.eval_bind, SerialAgent.close, Program.eval_call, Program.eval_call]
  cases hconnection : b.connection with
  | none =>
    have hsame : { b with connection := none } = b := by rw [← hconnection]
    simp only [answer, hconnection, Program.eval_pure, hsame]
    exact .answered _
  | some port =>
    have hclosed : ∀ r : Except Raised Response, _ → Effect request b (r, _) := .closed port hconnection
    simp only [answer, hconnection, Program.eval_call, ofSerial, Program.eval_ofExcept]
    generalize env.close _ = r
    cases r with
    | ok _ => exact hclosed _ ⟨_, rfl⟩
    | error message => exact hclosed _ ⟨message, rfl⟩

/-- The result of `handle` for a body that ended in `r`. -/
def SerialAgent.result (stop : Bool) (r : Except Raised Response) : Except Raised (Response × Bool) :=
  (r.map fun response => (response, stop)).mapError SerialAgent.translate

theorem eval_answered (stop : Bool) (m : AgentM Response) :
    ((SerialAgent.answered stop m).tryCatch fun e => .throw (SerialAgent.translate e)).eval
        (answer env) b
      = (SerialAgent.result stop (m.eval (answer env) b).1, (m.eval (answer env) b).2) := by
  rw [Program.eval_tryCatch, SerialAgent.answered, Program.eval_bind]
  rcases m.eval (answer env) b with ⟨r, t⟩
  cases r <;> rfl

end Effects

/-- One request, handled. -/
def handled (env : Env) (request : Request) (b : Bench) : Except Raised (Response × Bool) × Bench :=
  (SerialAgent.handle request).eval (answer env) b

/-- **The effect of a request.** -/
theorem handle_effect (env : Env) (request : Request) (b : Bench) :
    ∃ r b' stop, Effect request b (r, b') ∧ handled env request b = (SerialAgent.result stop r, b') ∧
      (stop = true → validateEnvelope request = .ok (codes "close")) := by
  rw [handled, SerialAgent.handle, Program.eval_bind, Program.eval_ofExcept]
  cases henvelope : validateEnvelope request with
  | error e =>
    obtain ⟨code, message, rfl, hcode⟩ := validateEnvelope_expected request e henvelope
    exact ⟨_, b, false, .refused ⟨code, message, rfl, hcode⟩, rfl, by simp⟩
  | ok operation =>
    have hanswered : ∀ (stop : Bool) (m : AgentM Response),
        Effect request b (m.eval (answer env) b) → (stop = true → operation = codes "close") →
        ∃ r b' stop', Effect request b (r, b') ∧
          ((SerialAgent.answered stop m).tryCatch fun e => .throw (SerialAgent.translate e)).eval
            (answer env) b = (SerialAgent.result stop' r, b') ∧
          (stop' = true → (.ok operation : Except Raised Str) = .ok (codes "close")) :=
      fun stop m hm hstop => ⟨_, _, stop, hm, eval_answered stop m, fun h => congrArg _ (hstop h)⟩
    show ∃ r b' stop, Effect request b (r, b') ∧
      ((SerialAgent.dispatch request operation).tryCatch _).eval (answer env) b = _ ∧ _
    unfold SerialAgent.dispatch
    split_ifs with hhello hopen hwrite hread hinput houtput hclose
    · exact hanswered _ _ hello_effect (by simp)
    · rw [hopen] at henvelope
      exact hanswered _ _ (open_effect henvelope) (by simp)
    · exact hanswered _ _ write_effect (by simp)
    · rw [hread] at henvelope
      exact hanswered _ _ (read_effect henvelope) (by simp)
    · exact hanswered _ _ resetInput_effect (by simp)
    · exact hanswered _ _ resetOutput_effect (by simp)
    · exact hanswered _ _ close_effect fun _ => hclose
    · exact ⟨.error (.agentError _ _), b, false, .refused ⟨_, _, rfl, by decide⟩, rfl, by simp⟩

/-! ## Ownership -/

/-- A port that was created and never closed. -/
def Live (b : Bench) (port : ℕ) : Prop := port < b.ports.length ∧ .close port ∉ b.calls

/-- The owned port is the one that is live; only created ports were closed. -/
structure Owned (b : Bench) : Prop where
  live : ∀ port, Live b port ↔ b.connection = some port
  closed : ∀ port, .close port ∈ b.calls → port < b.ports.length

theorem owned_initial : Owned .initial where
  live := by simp [Live, Bench.initial]
  closed := by simp [Bench.initial]

/-- Calls that neither create nor close a port leave the ownership as it is. -/
theorem Owned.keep {b b' : Bench} (h : Owned b) (ops : List Op) (hcalls : b'.calls = b.calls ++ ops)
    (hops : ∀ port, .close port ∉ ops) (hconnection : b'.connection = b.connection)
    (hports : b'.ports.length = b.ports.length) : Owned b' := by
  have hclose : ∀ port, .close port ∈ b'.calls ↔ .close port ∈ b.calls := by
    intro port
    rw [hcalls, List.mem_append]
    exact or_iff_left (hops port)
  constructor
  · intro port
    rw [hconnection, ← h.live port, Live, Live, hports, hclose port]
  · intro port hport
    rw [hports]
    exact h.closed port ((hclose port).mp hport)

theorem Op.Uses.ne_close {op : Op} {port : ℕ} (h : op.Uses port) (p : ℕ) : op ≠ .close p := by
  rintro rfl
  exact h

/-- **Every effect keeps the ownership.** -/
theorem Effect.owned {request : Request} {b b' : Bench} {r : Except Raised Response}
    (heffect : Effect request b (r, b')) (h : Owned b) : Owned b' := by
  cases heffect with
  | answered => exact h
  | refused => exact h
  | overflow => exact h
  | noDevice device => exact h.keep [.isCharDevice device] rfl (by simp) rfl rfl
  | notCreated p => exact h.keep [.isCharDevice p.port, .serialFactory p] (by simp) (by simp) rfl rfl
  | used port hport ops hops _ hconnection hports hcalls =>
    exact h.keep ops hcalls (fun p hp => (hops _ hp).ne_close p rfl) hconnection hports
  | created p hnone =>
    -- the new port is the first one that no call has closed
    have hnew : .close b.ports.length ∉ b.calls := fun hc => absurd (h.closed _ hc) (lt_irrefl _)
    constructor
    · intro port
      have hold := h.live port
      rw [hnone] at hold
      simp only [Live, Bench.record_calls, List.length_append, List.length_singleton, List.mem_append,
        List.mem_singleton, reduceCtorEq, or_false, Option.some.injEq] at hold ⊢
      constructor
      · rintro ⟨hlt, hclose⟩
        by_contra hne
        exact absurd ⟨by omega, hclose⟩ hold.mp
      · rintro rfl
        exact ⟨by omega, hnew⟩
    · intro port hport
      simp only [Bench.record_calls, List.mem_append, List.mem_singleton, reduceCtorEq, or_false] at hport
      have := h.closed port hport
      simp only [List.length_append, List.length_singleton]
      omega
  | closed port hport =>
    have hlive : Live b port := (h.live port).mpr hport
    constructor
    · intro q
      have hold := h.live q
      rw [hport] at hold
      simp only [Live, Bench.record_calls, Bench.record_ports, List.mem_append, List.mem_singleton,
        Op.close.injEq, reduceCtorEq, iff_false, Option.some.injEq] at hold ⊢
      rintro ⟨hlt, hclose⟩
      push Not at hclose
      exact hclose.2 (hold.mp ⟨hlt, hclose.1⟩).symm
    · intro q hq
      simp only [Bench.record_calls, List.mem_append, List.mem_singleton, Op.close.injEq] at hq
      rcases hq with hq | rfl
      · exact h.closed q hq
      · exact hlive.1

/-- The calls of one request. -/
def newCalls (b b' : Bench) : List Op := b'.calls.drop b.calls.length

/-- What one request may do, from the bench `b` to `b'`. -/
structure Respects (request : Request) (b b' : Bench) (result : Except Raised (Response × Bool)) :
    Prop where
  history : b.calls <+: b'.calls
  /-- The factory is called for a valid `open` only, while nothing is owned. -/
  factory : ∀ p, .serialFactory p ∈ newCalls b b' → OpensDevice request p ∧ b.connection = none
  /-- Reads, writes, resets and timeouts reach the owned port only. -/
  reaches : ∀ op ∈ newCalls b b', ∀ port, op.Uses port → b.connection = some port
  /-- A refused request changes nothing. -/
  unchanged : ∀ code message, result = .error (.agentError code message) → code ≠ serialIo →
    b'.connection = b.connection ∧ b'.ports = b.ports

theorem Op.Uses.unique {op : Op} {p q : ℕ} (hp : op.Uses p) (hq : op.Uses q) : p = q := by
  cases op <;> first | exact hp.symm.trans hq | exact absurd hp id

/-- A failure of the library is answered as `serial_io`. -/
theorem result_serialError {r : Except Raised Response} {stop : Bool} {code message : Str}
    (hr : Executed r) (h : SerialAgent.result stop r = .error (.agentError code message)) : code = serialIo := by
  cases r with
  | ok response => cases h
  | error e =>
    obtain ⟨m, rfl⟩ := hr
    cases h
    rfl

/-- **Every effect respects the ownership.** -/
theorem Effect.respects {request : Request} {b b' : Bench} {r : Except Raised Response} {stop : Bool}
    (heffect : Effect request b (r, b')) : Respects request b b' (SerialAgent.result stop r) := by
  have hcalls : ∃ ops, b'.calls = b.calls ++ ops ∧
      (∀ p, .serialFactory p ∈ ops → OpensDevice request p ∧ b.connection = none) ∧
      (∀ op ∈ ops, ∀ port, op.Uses port → b.connection = some port) := by
    cases heffect with
    | answered => exact ⟨[], (List.append_nil _).symm, by simp, by simp⟩
    | refused => exact ⟨[], (List.append_nil _).symm, by simp, by simp⟩
    | overflow => exact ⟨[], (List.append_nil _).symm, by simp, by simp⟩
    | noDevice device => exact ⟨[.isCharDevice device], rfl, by simp, by simp [Op.Uses]⟩
    | created p hnone hopens =>
      exact ⟨[.isCharDevice p.port, .serialFactory p], by simp, by simpa using ⟨hopens, hnone⟩,
        by simp [Op.Uses]⟩
    | notCreated p hnone hopens =>
      exact ⟨[.isCharDevice p.port, .serialFactory p], by simp, by simpa using ⟨hopens, hnone⟩,
        by simp [Op.Uses]⟩
    | used port hport ops hops _ _ _ hcalls =>
      refine ⟨ops, hcalls, fun p hp => absurd (hops _ hp) id, fun op hop q hq => ?_⟩
      rw [hport, (hops op hop).unique hq]
    | closed port => exact ⟨[.close port], rfl, by simp, by simp [Op.Uses]⟩
  obtain ⟨ops, hcalls, hfactory, hreaches⟩ := hcalls
  have hnew : newCalls b b' = ops := by rw [newCalls, hcalls, List.drop_left]
  constructor
  · exact ⟨ops, hcalls.symm⟩
  · rw [hnew]
    exact hfactory
  · rw [hnew]
    exact hreaches
  · intro code message hresult hcode
    cases heffect with
    | answered => exact ⟨rfl, rfl⟩
    | refused => exact ⟨rfl, rfl⟩
    | overflow => exact ⟨rfl, rfl⟩
    | noDevice => exact ⟨rfl, rfl⟩
    | created => cases hresult
    | notCreated p _ _ m =>
      cases hresult
      exact absurd rfl hcode
    | used _ _ _ _ _ _ _ _ _ hr => exact absurd (result_serialError hr hresult) hcode
    | closed _ _ _ hr => exact absurd (result_serialError hr hresult) hcode

/-- The bench after a sequence of requests. -/
def after (env : Env) (requests : List Request) (b : Bench) : Bench :=
  requests.foldl (fun b request => (handled env request b).2) b

theorem after_owned (env : Env) (requests : List Request) {b : Bench} (h : Owned b) :
    Owned (after env requests b) := by
  induction requests generalizing b with
  | nil => exact h
  | cons request requests ih =>
    obtain ⟨r, b', stop, heffect, hresult, -⟩ := handle_effect env request b
    refine ih ?_
    show Owned (handled env request b).2
    rw [hresult]
    exact heffect.owned h

/-- **Over every sequence of requests** the port that is created and not closed is the one in the
slot, and every next request respects it. -/
theorem owns_one (env : Env) (requests : List Request) :
    let b := after env requests .initial
    (∀ port, Live b port ↔ b.connection = some port) ∧
      ∀ request, Respects request b (handled env request b).2 (handled env request b).1 := by
  refine ⟨(after_owned env requests (owned_initial)).live, fun request => ?_⟩
  obtain ⟨r, b', stop, heffect, hresult, -⟩ :=
    handle_effect env request (after env requests .initial)
  rw [hresult]
  exact heffect.respects

end HardwareTest.Agent
