import HardwareTest.Lib.Shell
import HardwareTest.Transport.Echo
import HardwareTest.Transport.Lifecycle

/-!
# The command lines of the transports

The transports build lines for a command shell out of configured and given texts, with `shlex.quote`
around each of them.  The shell reads a quoted text as one literal word, whatever its characters, so every
line means the one command that it was built for.

* `reads_quote` — a quoted text reads as the text;
* `run_nonInteractiveText` — the line of a command with non-interactive `sudo`;
* `remote_lines_exact` — the lines that start the remote programs.
-/

namespace HardwareTest.Transport

open HardwareTest.Lib HardwareTest.Lib.Shell HardwareTest.Python

/-! ## Quoted texts -/

theorem isPlain_of_isShellSafe {c : Char} (h : isShellSafe c = true) : isPlain c = true :=
  isPlain_of (by decide) h

/-- Between the outer quotes a quoted text reads as the text. -/
theorem feed_quoted (s : Text) (w : Word) (ts : List Token) :
    feed ⟨.single, some w, ts⟩ (Newline.replace ['\''] ['\'', '"', '\'', '"', '\''] s)
      = some ⟨.single, some (w ++ literal true s), ts⟩ := by
  rw [Newline.replace_singleton]
  induction s generalizing w with
  | nil => rw [List.flatMap_nil, feed_nil, literal_nil, List.append_nil]
  | cons c s ih =>
    have hfirst : feed ⟨.single, some w, ts⟩ (if c = '\'' then ['\'', '"', '\'', '"', '\''] else [c])
        = some ⟨.single, some (w ++ [.char c true]), ts⟩ := by
      by_cases hc : c = '\''
      · rw [if_pos hc, hc]
        rfl
      · rw [if_neg hc, ← List.singleton_append]
        exact feed_single (s := [c]) (fun h => hc (List.mem_singleton.mp h).symm) w ts
    rw [List.flatMap_cons, feed_append, hfirst, Option.bind_some, ih, literal_cons, List.append_assoc,
      List.singleton_append]

/-- **A quoted text reads as the text.** -/
theorem reads_quote (s : Text) : ∃ quoted, Reads (quote s) (literal quoted s) := by
  unfold quote
  split_ifs with hnil hsafe
  · rw [hnil]
    exact ⟨true, reads_single (s := []) (by decide)⟩
  · exact ⟨false, reads_plain (fun c hc => isPlain_of_isShellSafe (List.all_eq_true.mp hsafe c hc)) hnil⟩
  · refine ⟨true, fun w ts => ?_⟩
    have hopen : step ⟨.bare, w, ts⟩ '\'' = some ⟨.single, some (w.getD []), ts⟩ := rfl
    rw [List.cons_append, feed_cons, hopen, Option.bind_some, feed_append, feed_quoted]
    rfl

theorem readsAs_quote (s : Text) : ReadsAs (quote s) s := reads_quote s

theorem isPlain_of_isDigit {c : Char} (h : c.isDigit) : isPlain c = true := isPlain_of (by decide) h

/-- A printed number reads as itself. -/
theorem readsAs_str (n : ℤ) : ReadsAs (str n) (str n) := by
  have hdigits : ∀ c ∈ Nat.toDigits 10 n.natAbs, isPlain c = true := fun c hc =>
    isPlain_of_isDigit (isDigit_of_mem_toDigits hc)
  refine ⟨false, reads_plain ?_ ?_⟩
  · intro c hc
    unfold str at hc
    split_ifs at hc with hneg
    · rcases List.mem_cons.mp hc with rfl | hc
      · decide
      · exact hdigits c hc
    · exact hdigits c hc
  · unfold str
    split_ifs with hneg
    · exact List.cons_ne_nil _ _
    · exact Nat.toDigits_ne_nil

/-! ## The lines that start the remote programs -/

/-- What the transports start on the remote host. -/
inductive RemoteProgram
  | testDevice
  | picocom
  | serialAgent

section Remote

variable {σ : Type*} (sh : Utilities σ) (s : Shell.State σ)

/-- The tests of the serial device: each is made when the one before it succeeded. -/
def testFlags (flags : List Text) (device : Text) (s : Shell.State σ) : Option (Shell.State σ) :=
  match flags with
  | [] => some s
  | flag :: flags =>
    if s.status = 0 then (sh.utility [] "test".toList [flag, device] s).bind (testFlags flags device)
    else some s

/-- The program with its arguments. -/
def RemoteProgram.start (config : Lifecycle.Config) : RemoteProgram → Option (Shell.State σ)
  | .testDevice => (sh.utility [] "test".toList ["-c".toList, config.serialDevice] s).bind
      (testFlags sh ["-r".toList, "-w".toList] config.serialDevice)
  | .picocom => sh.utility [] "picocom".toList
      ["--quiet".toList, "--baud".toList, str config.baudrate, config.serialDevice] s
  | .serialAgent => sh.utility [] config.serialAgentCommand [] s

/-- The line that looks at the serial device. -/
def verifyLine (config : Lifecycle.Config) : Text :=
  let path := quote config.serialDevice
  "test -c ".toList ++ path ++ " && test -r ".toList ++ path ++ " && test -w ".toList ++ path

theorem parse_verifyLine (config : Lifecycle.Config) : ∃ quoted,
    let path := literal quoted config.serialDevice
    let test := fun flag => Simple.mk [] [literal false "test".toList, literal false flag, path]
    parse (verifyLine config) = some [(test "-c".toList, [test "-r".toList, test "-w".toList])] := by
  obtain ⟨quoted, hpath⟩ := reads_quote config.serialDevice
  have htest : Reads "test".toList (literal false "test".toList) := reads_fixed (by decide)
  have hjoin : ∀ {a b c p t f g h : Text}, a = t ++ ' ' :: (f ++ [' ']) →
      b = ' ' :: '&' :: '&' :: ' ' :: (t ++ ' ' :: (g ++ [' '])) →
      c = ' ' :: '&' :: '&' :: ' ' :: (t ++ ' ' :: (h ++ [' '])) →
      a ++ p ++ b ++ p ++ c ++ p = t ++ ' ' :: (f ++ ' ' :: (p ++ ' ' :: '&' :: '&' :: ' ' :: (t ++ ' ' :: (g
        ++ ' ' :: (p ++ ' ' :: '&' :: '&' :: ' ' :: (t ++ ' ' :: (h ++ ' ' :: p))))))) := by
    intro a b c p t f g h ha hb hc
    simp [ha, hb, hc]
  have hline : verifyLine config = _ :=
    hjoin (t := "test".toList) (f := "-c".toList) (g := "-r".toList) (h := "-w".toList)
      (by decide) (by decide) (by decide)
  refine ⟨quoted, ?_⟩
  intro path test
  rw [parse, tokens_eq, hline, readFrom_word htest, readFrom_word (reads_fixed (by decide)), readFrom_word hpath,
    readFrom_andIf, readFrom_blank, readFrom_word htest, readFrom_word (reads_fixed (by decide)),
    readFrom_word hpath, readFrom_andIf, readFrom_blank, readFrom_word htest,
    readFrom_word (reads_fixed (by decide)), readFrom_last hpath]
  rfl

theorem run_verifyLine (config : Lifecycle.Config) :
    run sh (verifyLine config) s = RemoteProgram.testDevice.start sh s config := by
  obtain ⟨quoted, hparse⟩ := parse_verifyLine config
  have hcall : ∀ flag s', execSimple sh ⟨[], [literal false "test".toList, literal false flag,
      literal quoted config.serialDevice]⟩ s' = sh.utility [] "test".toList [flag, config.serialDevice] s' := by
    intro flag s'
    have hexec := execSimple_literal sh s' (false, "test".toList) [(false, flag), (quoted, config.serialDevice)]
    rw [List.map_cons, List.map_cons, List.map_cons, List.map_nil] at hexec
    rw [hexec]
    exact call_utility sh s' (by decide) _
  have hrest : ∀ flags s', execAnd sh (flags.map fun flag => ⟨[], [literal false "test".toList,
      literal false flag, literal quoted config.serialDevice]⟩) s' = testFlags sh flags config.serialDevice s' := by
    intro flags
    induction flags with
    | nil => exact fun _ => rfl
    | cons flag flags ih =>
      intro s'
      rw [List.map_cons, execAnd, testFlags, hcall]
      split_ifs
      · exact congrArg _ (funext ih)
      · rfl
  rw [run, hparse, Option.bind_some, exec_cons]
  change (execAndOr sh _ s).bind some = _
  rw [Option.bind_fun_some, execAndOr, hcall, RemoteProgram.start]
  exact congrArg _ (funext (hrest ["-r".toList, "-w".toList]))

theorem run_picocomCommand (config : Lifecycle.Config) :
    run sh (Lifecycle.Picocom.picocomCommand config) s = RemoteProgram.picocom.start sh s config := by
  have hjoin : ∀ {a t f g b p : Text}, a = t ++ ' ' :: (f ++ ' ' :: (g ++ [' '])) →
      a ++ b ++ [' '] ++ p = [' '].intercalate [t, f, g, b, p] := by
    intro a t f g b p ha
    simp [ha, List.intercalate_cons_cons]
  have hline : Lifecycle.Picocom.picocomCommand config = _ :=
    hjoin (t := "picocom".toList) (f := "--quiet".toList) (g := "--baud".toList) (b := str config.baudrate)
      (p := quote config.serialDevice) (by decide)
  have hname : Reads "picocom".toList (literal false "picocom".toList) := reads_fixed (by decide)
  rw [hline, run_words sh s (false, "picocom".toList) hname (by decide)
    (.cons (readsAs_plain (by decide)) (.cons (readsAs_plain (by decide))
      (.cons (readsAs_str _) (.cons (readsAs_quote _) .nil))))]
  exact call_utility sh s (by decide) _

/-- A command name: as one word it neither assigns nor is a word or a built-in command of the shell. -/
def IsProgram (name : Text) : Prop :=
  IsCommand (literal false name) ∧ name ∉ ["eval", "export", "printf"].map String.toList

instance (name : Text) : Decidable (IsProgram name) := inferInstanceAs (Decidable (_ ∧ _))

/-- Quoted characters make no assignment and no word of the shell. -/
theorem isCommand_literal {quoted : Bool} {name : Text} (h : IsCommand (literal false name)) :
    IsCommand (literal quoted name) := by
  cases quoted with
  | false => exact h
  | true =>
    cases name with
    | nil => exact h
    | cons c name =>
      have hsplit : splitName (literal true (c :: name)) = ([], literal true (c :: name)) := rfl
      refine ⟨?_, fun hmem => ?_⟩
      · rw [assignment?, hsplit]
        split
        · rename_i heq
          cases heq
        · rfl
      · obtain ⟨word, -, hword⟩ := List.mem_map.mp hmem
        cases word with
        | nil => cases hword
        | cons d word =>
          rw [literal_cons, literal_cons] at hword
          cases hword

theorem run_quote {name : Text} (h : IsProgram name) : run sh (quote name) s = sh.utility [] name [] s := by
  obtain ⟨quoted, hread⟩ := reads_quote name
  have hline : quote name = [' '].intercalate [quote name] := List.intercalate_singleton.symm
  rw [hline, run_words sh s (quoted, name) hread (isCommand_literal h.1) .nil]
  exact call_utility sh s h.2 []

/-- **A command with non-interactive `sudo`** hands its query to the shell of the other user. -/
theorem run_nonInteractiveText (command : UnixCommand) : run sh command.nonInteractiveText s
    = sh.utility [] "sudo".toList ["-n".toList, "--".toList, "sh".toList, "-c".toList, command.query] s := by
  have hjoin : ∀ {a t f g b d p : Text}, a = t ++ ' ' :: (f ++ ' ' :: (g ++ ' ' :: (b ++ ' ' :: (d ++ [' '])))) →
      a ++ p = [' '].intercalate [t, f, g, b, d, p] := by
    intro a t f g b d p ha
    simp [ha, List.intercalate_cons_cons]
  have hline : command.nonInteractiveText = _ :=
    hjoin (t := "sudo".toList) (f := "-n".toList) (g := "--".toList) (b := "sh".toList) (d := "-c".toList)
      (p := quote command.query) (by decide)
  have hname : Reads "sudo".toList (literal false "sudo".toList) := reads_fixed (by decide)
  rw [hline, run_words sh s (false, "sudo".toList) hname (by decide)
    (.cons (readsAs_plain (by decide)) (.cons (readsAs_plain (by decide)) (.cons (readsAs_plain (by decide))
      (.cons (readsAs_plain (by decide)) (.cons (readsAs_quote _) .nil)))))]
  exact call_utility sh s (by decide) _

end Remote

/-! ## The lines of the transports -/

/-- The programs that a transport starts on the remote host. -/
def remotePrograms : Lifecycle.Kind → List RemoteProgram
  | .picocomOverSsh => [.testDevice, .picocom]
  | .pySerialOverSsh => [.serialAgent]
  | .pySerial => []
  | .ssh => []

/-- The line that a call hands to the remote shell. -/
def commandLine? : Lifecycle.Op → Option Text
  | .act (.clientExecCommand line) => some line
  | .act (.execCommand line) => some line
  | _ => none

/-- The lines handed to the remote shell in a run. -/
def handedLines (trace : List (Sigma Lifecycle.Op.Answer)) : List Text :=
  trace.filterMap fun call => commandLine? call.1

/-- A line of this call starts one of the programs, and nothing else. -/
def StartsOwn (config : Lifecycle.Config) (kind : Lifecycle.Kind) (op : Lifecycle.Op) : Prop :=
  ∀ line, commandLine? op = some line → ∃ p ∈ remotePrograms kind,
    ∀ (σ : Type) (sh : Utilities σ) (s : Shell.State σ), run sh line s = p.start sh s config

section Lines

open Lifecycle

variable {config : Config} {kind : Kind} {α : Type}

theorem startsOwn_of_none {op : Op} (h : commandLine? op = none) : StartsOwn config kind op := by
  intro line hline
  rw [h] at hline
  cases hline

theorem only_act {a : Action} (h : StartsOwn config kind (.act a)) : (act a).Only (StartsOwn config kind) :=
  ⟨h, fun x => Program.only_ofExcept x⟩

/-- Methods whose calls hand over no line. -/
theorem only_none {m : Method α} (h : m.Only fun op => commandLine? op = none) :
    m.Only (StartsOwn config kind) := by
  induction m with
  | pure a => trivial
  | throw e => trivial
  | call op k ih => exact ⟨startsOwn_of_none h.1, fun x => ih x (h.2 x)⟩

theorem none_act {a : Action} (h : commandLine? (.act a) = none) :
    (act a).Only fun op => commandLine? op = none :=
  ⟨h, fun x => Program.only_ofExcept x⟩

theorem none_ask (q : Question) : (ask q).Only fun op => commandLine? op = none := ⟨rfl, fun _ => trivial⟩

theorem none_self : self.Only fun op => commandLine? op = none := ⟨rfl, fun _ => trivial⟩

theorem none_setSelf (client channel console : Option ℕ) :
    (setSelf client channel console).Only fun op => commandLine? op = none := ⟨rfl, fun _ => trivial⟩

theorem none_create : create.Only fun op => commandLine? op = none := ⟨rfl, fun x => Program.only_ofExcept x⟩

theorem none_close (resource : ℕ) : (closeResource resource).Only fun op => commandLine? op = none :=
  ⟨rfl, fun x => Program.only_ofExcept x⟩

theorem none_activeTransport (message : Text) :
    (activeTransport message).Only fun op => commandLine? op = none := by
  refine Program.Only.bind (none_act rfl) fun _ => (none_ask _).bind fun active => ?_
  cases active <;> trivial

theorem none_configureHostKeyPolicy : (configureHostKeyPolicy config).Only fun op => commandLine? op = none := by
  have hload : (loadKnownHosts config).Only fun op => commandLine? op = none := by
    unfold loadKnownHosts
    split
    · trivial
    · refine Program.Only.tryCatch (none_act rfl) fun e => ?_
      split_ifs <;> trivial
  have hpolicy : (setHostKeyPolicy config).Only fun op => commandLine? op = none := by
    unfold setHostKeyPolicy
    split
    · exact none_act rfl
    · trivial
    · exact none_act rfl
    · exact none_act rfl
  exact Program.Only.bind (none_act rfl) fun _ => hload.bind fun _ => hpolicy

theorem only_connectOverSsh {opening channelClose : Method Unit} {prepare : ℕ → Method Unit}
    (hopening : opening.Only (StartsOwn config kind))
    (hprepare : ∀ client, (prepare client).Only fun op => commandLine? op = none)
    (hclose : channelClose.Only fun op => commandLine? op = none) :
    (connectOverSsh config opening prepare channelClose).Only (StartsOwn config kind) := by
  have hundo : ∀ client e, (undoConnect client channelClose e).Only fun op => commandLine? op = none := by
    intro client e
    unfold undoConnect
    split_ifs
    · refine none_self.bind fun s => ?_
      have hrest : Program.Only (fun op => commandLine? op = none) (do
          setSelf none none none
          closeResource client
          (.throw e : Method Unit)) :=
        (none_setSelf _ _ _).bind fun _ => (none_close client).bind fun _ => trivial
      split_ifs
      · exact hclose.bind fun _ => hrest
      · exact hrest
    · trivial
  refine Program.Only.bind (only_none none_self) fun s => ?_
  split_ifs
  · trivial
  · refine (only_none none_create).bind fun client => (only_none none_configureHostKeyPolicy).bind fun _ => ?_
    exact Program.Only.tryCatch (hopening.bind fun _ => only_none (hprepare client)) fun e =>
      only_none (hundo client e)

theorem only_verifySerialDevice :
    (Picocom.verifySerialDevice config).Only (StartsOwn config .picocomOverSsh) := by
  have hline : StartsOwn config .picocomOverSsh (.act (.clientExecCommand (verifyLine config))) := by
    intro line hline
    cases hline
    exact ⟨.testDevice, List.mem_cons_self, fun σ sh s => run_verifyLine sh s config⟩
  refine Program.Only.bind (only_act hline) fun _ => only_none ?_
  refine (none_act rfl).bind fun _ => (none_ask _).bind fun zero => ?_
  cases zero
  · exact Program.Only.bind ⟨rfl, fun x => Program.only_ofExcept x⟩ fun _ => trivial
  · trivial

theorem only_picocom_opening : (Picocom.opening config).Only (StartsOwn config .picocomOverSsh) := by
  have hline : StartsOwn config .picocomOverSsh (.act (.execCommand (Picocom.picocomCommand config))) := by
    intro line hline
    cases hline
    exact ⟨.picocom, List.mem_cons_of_mem _ List.mem_cons_self, fun σ sh s => run_picocomCommand sh s config⟩
  exact (only_none (none_act rfl)).bind fun _ => only_verifySerialDevice.bind fun _ =>
    (only_none (none_activeTransport _)).bind fun _ => (only_none (none_act rfl)).bind fun _ =>
    (only_none (none_act rfl)).bind fun _ => only_act hline

theorem only_agent_opening (hagent : IsProgram config.serialAgentCommand) :
    (PySerialOverSsh.opening config).Only (StartsOwn config .pySerialOverSsh) := by
  have hline : StartsOwn config .pySerialOverSsh (.act (.execCommand (quote config.serialAgentCommand))) := by
    intro line hline
    cases hline
    exact ⟨.serialAgent, List.mem_cons_self, fun σ sh s => run_quote sh s hagent⟩
  exact (only_none (none_act rfl)).bind fun _ => (only_none (none_activeTransport _)).bind fun _ =>
    (only_none (none_act rfl)).bind fun _ => (only_act hline).bind fun _ =>
    (only_none (none_act rfl)).bind fun _ => only_none (none_act rfl)

theorem none_picocom_channelClose : Picocom.channelClose.Only fun op => commandLine? op = none := by
  have hexit : Picocom.sendExit.Only fun op => commandLine? op = none := by
    refine Program.Only.bind (none_ask _) fun closed => ?_
    cases closed
    · exact none_act rfl
    · trivial
  exact hexit.bind fun _ => none_act rfl

theorem none_agent_channelClose : PySerialOverSsh.channelClose.Only fun op => commandLine? op = none := by
  refine Program.Only.tryFinally (Program.Only.tryCatch ?_ fun e => ?_) (none_act rfl)
  · refine Program.Only.bind (none_ask _) fun closed => ?_
    cases closed
    · exact none_act rfl
    · trivial
  · split_ifs <;> trivial

theorem none_closeOverSsh {channelClose : Method Unit}
    (hclose : channelClose.Only fun op => commandLine? op = none) :
    (closeOverSsh channelClose).Only fun op => commandLine? op = none := by
  refine Program.Only.bind none_self fun s => Program.Only.bind (none_setSelf _ _ _) fun _ =>
    Program.Only.tryFinally ?_ ?_
  · split_ifs
    · exact hclose
    · trivial
  · cases s.client with
    | none => trivial
    | some client => exact none_close client

theorem none_pySerial_close : PySerial.close.Only fun op => commandLine? op = none := by
  refine Program.Only.bind none_self fun s => (none_setSelf _ _ _).bind fun _ => ?_
  cases s.channel with
  | none => trivial
  | some port =>
    refine Program.Only.tryCatch (none_close port) fun e => ?_
    split_ifs <;> trivial

theorem none_pySerial_connect : (PySerial.connect config).Only fun op => commandLine? op = none := by
  have hopen : PySerial.isOpen.Only fun op => commandLine? op = none := by
    refine Program.Only.bind none_self fun s => ?_
    split_ifs
    · exact (none_ask _).bind fun _ => trivial
    · trivial
  have hundo : ∀ e, (PySerial.undoConnect config e).Only fun op => commandLine? op = none := by
    intro e
    unfold PySerial.undoConnect
    split_ifs
    · exact none_pySerial_close.bind fun _ => trivial
    · exact none_pySerial_close.bind fun _ => trivial
    · trivial
  refine hopen.bind fun isOpen => ?_
  cases isOpen
  · exact Program.Only.tryCatch (Program.Only.bind none_create fun port => none_self.bind fun s =>
      (none_setSelf _ _ _).bind fun _ => none_act rfl) hundo
  · trivial

theorem none_ssh_connect : (SSH.connect config).Only fun op => commandLine? op = none := by
  refine Program.Only.bind none_self fun s => ?_
  split_ifs
  · trivial
  · exact none_create.bind fun client => none_configureHostKeyPolicy.bind fun _ =>
      (none_act rfl).bind fun _ => none_self.bind fun s => none_setSelf _ _ _

theorem none_ssh_close : SSH.close.Only fun op => commandLine? op = none := by
  refine Program.Only.bind none_self fun s => ?_
  cases s.client with
  | none => trivial
  | some client => exact (none_close client).bind fun _ => none_setSelf _ _ _

/-- The calls of `connect` and `close`. -/
theorem only_connect (hagent : IsProgram config.serialAgentCommand) (kind : Kind) :
    (kind.connect config).Only (StartsOwn config kind) := by
  cases kind with
  | picocomOverSsh =>
    refine only_connectOverSsh only_picocom_opening (fun client => ?_) (none_act rfl)
    have hsession : Picocom.consoleSession.Only fun op => commandLine? op = none := by
      refine Program.Only.bind none_self fun s => ?_
      cases s.channel with
      | none => trivial
      | some channel =>
        refine Program.Only.bind (none_ask _) fun closed => ?_
        cases closed
        · cases s.console with
          | none => exact (none_setSelf _ _ _).bind fun _ => trivial
          | some console => trivial
        · trivial
    exact Program.Only.bind none_self fun s => (none_setSelf _ _ _).bind fun _ =>
      hsession.bind fun _ => none_act rfl
  | pySerialOverSsh =>
    exact only_connectOverSsh (only_agent_opening hagent)
      (fun client => Program.Only.bind (none_setSelf _ _ _) fun _ => none_act rfl) none_agent_channelClose
  | pySerial => exact only_none none_pySerial_connect
  | ssh => exact only_none none_ssh_connect

theorem only_close (kind : Kind) : kind.close.Only (StartsOwn config kind) := by
  cases kind with
  | picocomOverSsh => exact only_none (none_closeOverSsh none_picocom_channelClose)
  | pySerialOverSsh => exact only_none (none_closeOverSsh none_agent_channelClose)
  | pySerial => exact only_none none_pySerial_close
  | ssh => exact only_none none_ssh_close

/-- **The remote shell starts the configured programs and nothing else.**  In every run of `connect` or
`close` of every transport, a line that is handed to the remote shell starts one of the transport's programs
with exactly the configured values as its arguments, whatever their characters. -/
theorem remote_lines_exact (hagent : IsProgram config.serialAgentCommand) {method : Method Unit}
    (hmethod : method = kind.connect config ∨ method = kind.close) {trace : List (Sigma Op.Answer)}
    {r : Except Raised Unit} (hrun : method.Runs trace r) {line : Text}
    (hline : line ∈ handedLines trace) :
    ∃ p ∈ remotePrograms kind, ∀ (σ : Type) (sh : Utilities σ) (s : Shell.State σ),
      run sh line s = p.start sh s config := by
  have honly : method.Only (StartsOwn config kind) := by
    rcases hmethod with rfl | rfl
    · exact only_connect hagent kind
    · exact only_close kind
  obtain ⟨call, hmem, hcall⟩ := List.mem_filterMap.mp hline
  exact honly.runs hrun call hmem line hcall

/-! ## A device path with a quote -/

def quotedConfig : Config := { Lifecycle.sampleConfig with serialDevice := "/dev/serial/usb's port".toList }

/-- An environment that keeps these lines. -/
def recorded (env : Environment) (op : Op) (s : Lifecycle.State × List Text) :
    op.Answer × Lifecycle.State × List Text :=
  ((answer env op s.1).1, (answer env op s.1).2, s.2 ++ (commandLine? op).toList)

theorem recorded_lines (env : Environment) {α : Type} (m : Method α) :
    ∃ trace r, m.Runs trace r ∧ handedLines trace = (m.eval (recorded env) (.fresh, [])).2.2 := by
  have hcall : ∀ (op : Op) (s : Lifecycle.State × List Text) (trace : List (Sigma Op.Answer)),
      handedLines trace = s.2 →
      handedLines (trace ++ [⟨op, (recorded env op s).1⟩]) = (recorded env op s).2.2 := by
    intro op s trace h
    rw [handedLines, List.filterMap_append, ← handedLines, h]
    cases hline : commandLine? op <;> simp [recorded, hline]
  have hstart : handedLines [] = ((Lifecycle.State.fresh, []) : Lifecycle.State × List Text).2 := rfl
  obtain ⟨trace, hrun, hlines⟩ := Program.runs_of_eval
    (I := fun (s : Lifecycle.State × List Text) trace => handedLines trace = s.2) hcall m hstart
  exact ⟨trace, _, hrun, hlines⟩

theorem remote_lines_exact_sample : ∃ p ∈ remotePrograms .picocomOverSsh,
    ∀ (σ : Type) (sh : Utilities σ) (s : Shell.State σ),
      run sh (Picocom.picocomCommand quotedConfig) s = p.start sh s quotedConfig := by
  obtain ⟨trace, r, hrun, hlines⟩ := recorded_lines (sampleEnvironment [])
    (Kind.connect quotedConfig .picocomOverSsh)
  refine remote_lines_exact (by decide) (.inl rfl) hrun ?_
  rw [hlines]
  decide +kernel

end Lines

end HardwareTest.Transport
