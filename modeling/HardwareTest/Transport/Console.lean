import HardwareTest.Lib.Utf8
import HardwareTest.Python.Text

/-!
# The console session over a byte channel

`LinuxConsoleSession` works on a channel it polls.  A read loop looks at the channel until its
deadline: it finds a chunk of bytes, nothing yet, or the end of the remote process.  Here the `Poll`s
a loop makes before its deadline are a list, and the end of the list is the deadline.  Every chunking
and every delay is such a list.

* `readLoop` — the loop of both readers: after each chunk the whole buffer is examined again;
* `readLoop_returned` — what a loop returned, it examined after some chunk;
* `readLoop_leaves_iff` — when a loop returns before it has read everything;
* `prepare`, `execute` — the two operations of a session.
-/

namespace HardwareTest.Transport

open HardwareTest.Lib HardwareTest.Python

abbrev Bytes := List UInt8

/-! ## Commands, results and failures -/

structure UnixCommand where
  query : Text
  useSudo : Bool
  nonInteractive : Bool

namespace UnixCommand

def sudoText (command : UnixCommand) : Text := "sudo ".toList ++ command.query

def nonInteractiveText (command : UnixCommand) : Text :=
  "sudo -n -- sh -c ".toList ++ quote command.query

/-- The text submitted to the command interpreter. -/
def text (command : UnixCommand) : Text :=
  if ¬command.useSudo then command.query
  else if command.nonInteractive then command.nonInteractiveText
  else command.sudoText

end UnixCommand

structure CommandResult where
  stdout : Text
  stderr : Text
  exitCode : ℤ
  deriving DecidableEq

/-- What a call raises.  A timeout quotes the text received so far: its message is
`f"{message}; received: {received!r}"`. -/
inductive Failure
  | transportError (message : String)
  | transportTimeoutError (message : String) (received : Text)
  | runtimeError (message : String)
  | valueError
  deriving DecidableEq

/-! ## Configuration -/

/-- A console marker as the inventory accepts it: at least one character, and none of NUL, CR and
LF. -/
structure ConsoleMarker where
  text : Text
  nonempty : text ≠ []
  clean : ∀ c ∈ text, c ∉ ['\x00', '\r', '\n']

theorem clean_of_all {value : Text} (h : (value.all fun c => decide (c ∉ ['\x00', '\r', '\n'])) = true) :
    ∀ c ∈ value, c ∉ ['\x00', '\r', '\n'] :=
  fun c hc => of_decide_eq_true (List.all_eq_true.mp h c hc)

/-- `Field(min_length=1)` and `validate_console_marker`. -/
def validateConsoleMarker (value : Text) : Except String ConsoleMarker :=
  if hempty : value = [] then .error "String should have at least 1 character"
  else if hclean : value.all fun c => decide (c ∉ ['\x00', '\r', '\n']) then
    .ok ⟨value, hempty, clean_of_all hclean⟩
  else .error "prompt must not contain control characters"

/-- `ConsoleSessionInventoryConfig`. -/
structure ConsoleSessionInventoryConfig where
  prompt : ConsoleMarker
  initialPromptSuffix : ConsoleMarker
  loginPrompt : ConsoleMarker
  passwordPrompt : ConsoleMarker

/-- `ConsoleSessionConfig`: what a session is created with. -/
structure ConsoleSessionConfig where
  prompt : Text
  initialPromptSuffix : Text
  loginPrompt : Text
  passwordPrompt : Text
  username : Option Text
  password : Option Text

/-- The session configuration of an inventory entry and its resolved credentials. -/
def ConsoleSessionInventoryConfig.resolve (console : ConsoleSessionInventoryConfig)
    (username password : Option Text) : ConsoleSessionConfig where
  prompt := console.prompt.text
  initialPromptSuffix := console.initialPromptSuffix.text
  loginPrompt := console.loginPrompt.text
  passwordPrompt := console.passwordPrompt.text
  username := username
  password := password

/-! ## The channel -/

/-- What one pass of a read loop finds. -/
inductive Poll
  | chunk (bytes : Bytes)
  | idle
  | closed
  deriving DecidableEq

/-- The bytes of one poll. -/
def Poll.bytes : Poll → Bytes
  | .chunk bs => bs
  | .idle => []
  | .closed => []

/-- The bytes that a list of polls reads. -/
def received (polls : List Poll) : Bytes := polls.flatMap Poll.bytes

@[simp] theorem received_nil : received [] = [] := rfl

@[simp] theorem received_cons (p : Poll) (polls : List Poll) :
    received (p :: polls) = p.bytes ++ received polls := rfl

@[simp] theorem received_append (ps qs : List Poll) : received (ps ++ qs) = received ps ++ received qs :=
  List.flatMap_append

/-- A console channel: what was sent, what the coming read loops find up to their deadlines, and what
the last loop left unread. -/
structure Channel where
  closed : Bool
  sent : List Bytes
  reads : List (List Poll)
  unread : List Poll

/-- A computation that talks to the channel and may raise. -/
abbrev Session := ExceptT Failure (StateM Channel)

def sendall (s : Bytes) : Session Unit :=
  modify fun ch => { ch with sent := ch.sent ++ [s] }

/-- A read loop finds what the one before it left, then what arrives before its own deadline. -/
def reading {α : Type} (loop : List Poll → Except Failure α × List Poll) : Session α := do
  let ch ← get
  let (answer, rest) := loop (ch.unread ++ ch.reads.headD [])
  set { ch with reads := ch.reads.tail, unread := rest }
  match answer with
  | .ok a => return a
  | .error e => throw e

/-- Running a computation on a channel: its result and the channel it leaves. -/
def Session.exec {α : Type} (m : Session α) (ch : Channel) : Except Failure α × Channel := m.run.run ch

theorem Session.exec_bind {α β : Type} (m : Session α) (f : α → Session β) (ch : Channel) :
    Session.exec (m >>= f) ch = match Session.exec m ch with
      | (.ok a, ch') => Session.exec (f a) ch'
      | (.error e, ch') => (.error e, ch') := by
  show (ExceptT.bind m f).run.run ch = _
  simp only [Session.exec, ExceptT.bind, ExceptT.run, ExceptT.mk, StateT.run]
  show (StateT.bind m (ExceptT.bindCont f)) ch = _
  simp only [StateT.bind]
  rcases m ch with ⟨r, ch'⟩
  cases r <;> rfl

theorem exec_sendall (s : Bytes) (ch : Channel) :
    Session.exec (sendall s) ch = (.ok (), { ch with sent := ch.sent ++ [s] }) := rfl

theorem exec_reading {α : Type} (loop : List Poll → Except Failure α × List Poll) (ch : Channel) :
    Session.exec (reading loop) ch
      = ((loop (ch.unread ++ ch.reads.headD [])).1,
        { ch with reads := ch.reads.tail, unread := (loop (ch.unread ++ ch.reads.headD [])).2 }) := by
  unfold reading
  rw [Session.exec_bind]
  show Session.exec _ ch = _
  rcases h : loop (ch.unread ++ ch.reads.headD []) with ⟨answer, rest⟩
  cases answer <;> rfl

/-! ## The read loops -/

/-- `_normalize_bytes` and the decoding that follows it everywhere. -/
def normalizedText (buffer : Bytes) : Text := Utf8.decode (Newline.unify buffer)

/-- How a read loop ended. -/
inductive Ending (α : Type)
  | returned (a : α)
  | closed
  | expired (buffer : Bytes)

/-- The loop of both readers, with the polls after the one it stopped at. -/
def readLoop {α : Type} (examine : Bytes → Option α) : Bytes → List Poll → Ending α × List Poll
  | buffer, [] => (.expired buffer, [])
  | buffer, .chunk bs :: polls =>
    match examine (buffer ++ bs) with
    | some a => (.returned a, polls)
    | none => readLoop examine (buffer ++ bs) polls
  | buffer, .idle :: polls => readLoop examine buffer polls
  | _, .closed :: polls => (.closed, polls)

/-- `_redact_console_password`. -/
def redactConsolePassword (password : Option Text) (value : Text) : Text :=
  match password with
  | none => value
  | some secret =>
    let stars := "**********".toList
    -- replacing the empty string puts the stars around every character
    if secret = [] then stars ++ value.flatMap fun c => c :: stars
    else Newline.replace secret stars value

/-- `_read_until_any`. -/
def readUntilAny (password : Option Text) (markers : List Text) (context : String)
    (redactPassword : Bool) (polls : List Poll) : Except Failure Text × List Poll :=
  match readLoop (fun buffer => markers.find? fun marker => marker <:+ normalizedText buffer) [] polls with
  | (.returned marker, rest) => (.ok marker, rest)
  | (.closed, rest) =>
    (.error (.transportError ("Console channel closed while waiting for " ++ context)), rest)
  | (.expired buffer, rest) =>
    let partialText := normalizedText buffer
    let shown := if redactPassword then redactConsolePassword password partialText else partialText
    (.error (.transportTimeoutError ("Timed out waiting for " ++ context) shown), rest)

/-- `\d+\n` at the start of the text, after the sign that was matched: the group and the text after
the match.  The digits are taken greedily; no shorter run of them is followed by an LF. -/
def matchDigits (sign s : Text) : Option (Text × Text) :=
  match s.takeWhile isDecimal, s.dropWhile isDecimal with
  | d :: ds, '\n' :: tail => some (sign ++ d :: ds, tail)
  | _, _ => none

/-- `(-?\d+)\n` at the start of the text. -/
def matchStatus : Text → Option (Text × Text)
  | '-' :: s => matchDigits ['-'] s
  | s => matchDigits [] s

/-- `\n{token}(-?\d+)\n` at the start of the text. -/
def matchMarker (token s : Text) : Option (Text × Text) :=
  if '\n' :: token <+: s then matchStatus (s.drop (token.length + 1)) else none

/-- A match of the marker: the text before it, its group and the text after it. -/
structure MarkerMatch where
  before : Text
  group : Text
  tail : Text
  deriving DecidableEq

/-- `marker.search`: the leftmost match. -/
def searchMarker (token : Text) : Text → Option MarkerMatch
  | [] => none
  | c :: s =>
    match matchMarker token (c :: s) with
    | some (group, tail) => some ⟨[], group, tail⟩
    | none => (searchMarker token s).map fun m => { m with before := c :: m.before }

/-- What `_read_command_response` does with the buffer after each chunk. -/
def examineResponse (prompt token : Text) (buffer : Bytes) : Option (Except Failure (Text × ℤ)) :=
  match searchMarker token (normalizedText buffer) with
  | none => none
  | some m =>
    if prompt <:+ m.tail then
      some (match int m.group with
        | some code => .ok (m.before, code)
        | none => .error .valueError)
    else none

/-- `_read_command_response`. -/
def readCommandResponse (prompt token : Text) (polls : List Poll) :
    Except Failure (Text × ℤ) × List Poll :=
  match readLoop (examineResponse prompt token) [] polls with
  | (.returned answer, rest) => (answer, rest)
  | (.closed, rest) => (.error (.transportError "Console channel closed while a command was running"), rest)
  | (.expired buffer, rest) =>
    (.error (.transportTimeoutError "Console command timed out" (normalizedText buffer)), rest)

/-! ## The two operations of a session -/

/-- `_read_console_state`. -/
def readConsoleState (config : ConsoleSessionConfig) (redactPassword : Bool) : Session Text :=
  reading (readUntilAny config.password
    [config.prompt, config.loginPrompt, config.passwordPrompt, config.initialPromptSuffix]
    "device console state" redactPassword)

/-- `_send_console_username`. -/
def sendConsoleUsername (config : ConsoleSessionConfig) : Session Unit :=
  match config.username, config.password with
  | some username, some _ => sendall (Utf8.encode (username ++ ['\r']))
  | _, _ => throw
    (.transportError "Device console requires login, but console credentials are not configured")

/-- `_send_console_password`. -/
def sendConsolePassword (config : ConsoleSessionConfig) : Session Unit :=
  match config.password with
  | some password => sendall (Utf8.encode (password ++ ['\r']))
  | none => throw
    (.transportError "Device console requires a password, but console credentials are not configured")

/-- The line that sets the prompt, without its CR. -/
def exportLine (prompt : Text) : Text := "export PS1=".toList ++ quote prompt

/-- The last step of `prepare`: set PS1 and wait for the new prompt. -/
def setPrompt (config : ConsoleSessionConfig) : Session Unit := do
  sendall (Utf8.encode (exportLine config.prompt ++ ['\r']))
  let _ ← reading (readUntilAny config.password [config.prompt] "shell prompt" false)

/-- The first steps of `prepare`: the state the console is left in after the login, or `none` when it
showed the prompt at once. -/
def detectState (config : ConsoleSessionConfig) : Session (Option Text) := do
  sendall (Utf8.encode ['\r'])
  let mut state ← readConsoleState config false
  if state = config.prompt then return none
  if state = config.loginPrompt then
    sendConsoleUsername config
    state ← readConsoleState config false
  if state = config.passwordPrompt then
    sendConsolePassword config
    state ← readConsoleState config true
  if state = config.loginPrompt ∨ state = config.passwordPrompt then
    throw (.transportError "Device console authentication failed")
  if state ≠ config.initialPromptSuffix ∧ state ≠ config.prompt then
    throw (.transportError "Device console did not reach a recognized shell prompt")
  return some state

/-- `prepare`: detect the console state, authenticate when needed, and set PS1. -/
def prepare (config : ConsoleSessionConfig) : Session Unit := do
  match ← detectState config with
  | none => return
  | some state => if state ≠ config.prompt then setPrompt config

/-- `uuid4().hex`. -/
structure Hex where
  digits : Text
  length_eq : digits.length = 32
  isHex : ∀ c ∈ digits, c ∈ "0123456789abcdef".toList

theorem Hex.eq_of_digits {h h' : Hex} (heq : h.digits = h'.digits) : h = h' := by
  cases h
  cases h'
  cases heq
  rfl

instance : DecidableEq Hex := fun h h' =>
  decidable_of_iff (h.digits = h'.digits) ⟨Hex.eq_of_digits, congrArg Hex.digits⟩

/-- The exit token of one call. -/
def exitToken (h : Hex) : Text := "__HARDWARE_TEST_EXIT_".toList ++ h.digits ++ "__".toList

/-- The shell variable that holds the status of one call. -/
def statusName (h : Hex) : Text := "__hardware_test_status_".toList ++ h.digits

/-- The line `execute` submits, without its CR. -/
def submittedLine (prompt : Text) (command : UnixCommand) (token status : Hex) : Text :=
  "eval ".toList ++ quote command.text ++ "; ".toList ++ statusName status ++ "=$?; ".toList
    ++ "PS1=".toList ++ quote prompt ++ "; ".toList
    ++ "printf '\\n".toList ++ exitToken token ++ "%s\\n' \"$".toList ++ statusName status ++ "\"".toList

/-- `_remove_echo`. -/
def removeEcho (response submitted : Text) : Text :=
  let normalized := lstripNewlines response
  if submitted <+: normalized then lstripNewlines (normalized.drop submitted.length) else normalized

/-- `execute`, with the two identifiers it generates. -/
def execute (config : ConsoleSessionConfig) (command : UnixCommand) (token status : Hex) :
    Session CommandResult := do
  if (← get).closed then throw (.runtimeError "Console channel is closed")
  let submitted := submittedLine config.prompt command token status
  sendall (Utf8.encode (submitted ++ ['\r']))
  let (response, exitCode) ← reading (readCommandResponse config.prompt (exitToken token))
  return { stdout := removeEcho response submitted, stderr := [], exitCode := exitCode }

/-! ## What a read loop returns -/

/-- A channel that is not closed during the polls. -/
def Open (polls : List Poll) : Prop := .closed ∉ polls

section ReadLoop

variable {α : Type} {examine : Bytes → Option α}

/-- The buffers that a loop has after each of its chunks. -/
def chunkEnds : Bytes → List Poll → List Bytes
  | _, [] => []
  | buffer, .chunk bs :: polls => (buffer ++ bs) :: chunkEnds (buffer ++ bs) polls
  | buffer, .idle :: polls => chunkEnds buffer polls
  | buffer, .closed :: polls => chunkEnds buffer polls

theorem isPrefix_of_mem_chunkEnds {polls : List Poll} {buffer p : Bytes}
    (h : p ∈ chunkEnds buffer polls) : buffer <+: p ∧ p <+: buffer ++ received polls := by
  induction polls generalizing buffer with
  | nil => cases h
  | cons q polls ih =>
    cases q with
    | idle => exact ih h
    | closed => exact ih h
    | chunk bs =>
      rcases List.mem_cons.mp h with rfl | h
      · exact ⟨List.prefix_append _ _, by simp [Poll.bytes]⟩
      · obtain ⟨hfrom, hto⟩ := ih h
        exact ⟨(List.prefix_append _ _).trans hfrom, by simpa [Poll.bytes] using hto⟩

/-- **What a loop returned, it examined after one of the chunks.** -/
theorem readLoop_returned {polls rest : List Poll} {buffer : Bytes} {a : α}
    (h : readLoop examine buffer polls = (.returned a, rest)) :
    ∃ read, polls = read ++ rest ∧ buffer ++ received read ∈ chunkEnds buffer polls ∧
      examine (buffer ++ received read) = some a := by
  induction polls generalizing buffer with
  | nil => cases h
  | cons p polls ih =>
    cases p with
    | idle =>
      obtain ⟨read, hpolls, hend, ha⟩ := ih h
      exact ⟨.idle :: read, by rw [hpolls]; rfl, hend, ha⟩
    | closed => cases h
    | chunk bs =>
      rw [readLoop] at h
      split at h
      · rename_i b hb
        cases h
        exact ⟨[.chunk bs], rfl, by simp [chunkEnds, Poll.bytes], by simpa [Poll.bytes] using hb⟩
      · obtain ⟨read, hpolls, hend, ha⟩ := ih h
        have hbuffer : buffer ++ received (.chunk bs :: read) = buffer ++ bs ++ received read := by
          simp [Poll.bytes]
        exact ⟨.chunk bs :: read, by rw [hpolls]; rfl,
          by rw [hbuffer]; exact List.mem_cons_of_mem _ hend, by rw [hbuffer]; exact ha⟩

/-- **A loop runs to its deadline** exactly when the channel stays open and nothing is accepted; then it
has everything that was received. -/
theorem readLoop_expired_iff {polls rest : List Poll} {buffer final : Bytes} :
    readLoop examine buffer polls = (.expired final, rest) ↔
      Open polls ∧ (∀ p ∈ chunkEnds buffer polls, examine p = none) ∧
        final = buffer ++ received polls ∧ rest = [] := by
  induction polls generalizing buffer with
  | nil => simp [readLoop, Open, chunkEnds, eq_comm]
  | cons p polls ih =>
    cases p with
    | idle => simp [readLoop, ih, Open, chunkEnds, Poll.bytes]
    | closed => simp [readLoop, Open]
    | chunk bs =>
      rw [readLoop]
      cases hexam : examine (buffer ++ bs) with
      | some a => simp [chunkEnds, hexam]
      | none => simp [ih, Open, chunkEnds, hexam, Poll.bytes]

/-- A loop returns at the latest where a chunk completes a buffer it accepts. -/
theorem readLoop_stops {polls : List Poll} {buffer p : Bytes} (hopen : Open polls)
    (hend : p ∈ chunkEnds buffer polls) (haccept : (examine p).isSome) :
    ∃ a rest read, readLoop examine buffer polls = (.returned a, rest) ∧ polls = read ++ rest ∧
      buffer ++ received read <+: p := by
  induction polls generalizing buffer with
  | nil => cases hend
  | cons q polls ih =>
    have hopen' : Open polls := fun hc => hopen (List.mem_cons_of_mem q hc)
    cases q with
    | idle =>
      obtain ⟨a, rest, read, hloop, hpolls, hpre⟩ := ih hopen' hend
      exact ⟨a, rest, .idle :: read, hloop, by rw [hpolls]; rfl, hpre⟩
    | closed => exact absurd List.mem_cons_self hopen
    | chunk bs =>
      have hbuffer : ∀ read, buffer ++ received (.chunk bs :: read) = buffer ++ bs ++ received read := by
        intro read
        simp [Poll.bytes]
      rw [readLoop]
      cases hexam : examine (buffer ++ bs) with
      | some a =>
        refine ⟨a, polls, [.chunk bs], rfl, rfl, ?_⟩
        rw [hbuffer, received_nil, List.append_nil]
        rcases List.mem_cons.mp hend with rfl | hend
        · exact List.prefix_refl _
        · exact (isPrefix_of_mem_chunkEnds hend).1
      | none =>
        rcases List.mem_cons.mp hend with rfl | hend
        · rw [hexam] at haccept
          cases haccept
        · obtain ⟨a, rest, read, hloop, hpolls, hpre⟩ := ih hopen' hend
          exact ⟨a, rest, .chunk bs :: read, hloop, by rw [hpolls]; rfl, by rw [hbuffer]; exact hpre⟩

/-- **A loop leaves bytes unread exactly when a chunk ends where the buffer is accepted too early.** -/
theorem readLoop_leaves_iff {polls : List Poll} {reply : Bytes} (hopen : Open polls)
    (hreply : received polls = reply) :
    (∀ a rest, readLoop examine [] polls = (.returned a, rest) → received rest = []) ↔
      ∀ p ∈ chunkEnds [] polls, p ≠ reply → examine p = none := by
  have hwhole : ∀ read rest, polls = read ++ rest → (received rest = [] ↔ received read = reply) := by
    intro read rest hpolls
    rw [hpolls, received_append] at hreply
    rw [← hreply, List.self_eq_append_right]
  constructor
  · intro hall p hp hproper
    by_contra hsome
    obtain ⟨a, rest, read, hloop, hpolls, hpre⟩ :=
      readLoop_stops hopen hp (Option.isSome_iff_ne_none.mpr hsome)
    have hread := (hwhole read rest hpolls).mp (hall a rest hloop)
    rw [List.nil_append, hread] at hpre
    apply hproper
    have hto := (isPrefix_of_mem_chunkEnds hp).2
    rw [List.nil_append, hreply] at hto
    exact hto.eq_of_length (le_antisymm hto.length_le hpre.length_le)
  · intro hnone a rest hloop
    obtain ⟨read, hpolls, hend, ha⟩ := readLoop_returned hloop
    by_contra hrest
    have hproper : [] ++ received read ≠ reply := fun heq => hrest ((hwhole read rest hpolls).mpr heq)
    rw [hnone _ hend hproper] at ha
    cases ha

/-- **When only the whole reply is accepted, the loop reads it to its end.** -/
theorem readLoop_whole {polls : List Poll} {buffer reply : Bytes} {a : α} (hopen : Open polls)
    (hreply : buffer ++ received polls = reply) (hbuffer : buffer ≠ reply)
    (haccept : examine reply = some a)
    (honly : ∀ p, p <+: reply → p ≠ reply → examine p = none) :
    ∃ rest, readLoop examine buffer polls = (.returned a, rest) ∧ received rest = [] := by
  induction polls generalizing buffer with
  | nil => exact absurd (by simpa using hreply) hbuffer
  | cons p polls ih =>
    have hopen' : Open polls := fun hc => hopen (List.mem_cons_of_mem p hc)
    cases p with
    | idle => exact ih hopen' (by simpa [Poll.bytes] using hreply) hbuffer
    | closed => exact absurd List.mem_cons_self hopen
    | chunk bs =>
      have hnext : (buffer ++ bs) ++ received polls = reply := by
        simpa [Poll.bytes] using hreply
      rw [readLoop]
      by_cases hfull : buffer ++ bs = reply
      · refine ⟨polls, by rw [hfull, haccept], ?_⟩
        have hlen := congrArg List.length hnext
        rw [hfull, List.length_append] at hlen
        exact List.length_eq_zero_iff.mp (by omega)
      · rw [honly _ ⟨_, hnext⟩ hfull]
        exact ih hopen' hnext hfull

end ReadLoop

end HardwareTest.Transport
