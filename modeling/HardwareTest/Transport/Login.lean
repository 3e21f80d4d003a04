import HardwareTest.Lib.Program
import HardwareTest.Transport.Preparation

/-!
# The login dialogue

`prepare` against a console that answers as it likes: every read loop finds whatever the console has
sent in answer to all that was written before, in any chunks.

* `Dialogue.prepare` — the procedure as a program over its writes and its read loops;
* `onChannel_prepare` — on a channel it is `prepare`;
* `prepare_dialogue` — the writes and the reads of every run, in their order.
-/

namespace HardwareTest.Transport

open HardwareTest.Lib HardwareTest.Python

/-- What a session asks of its channel: a write, or all that a read loop finds before its deadline. -/
inductive ConsoleCall
  | sendall (s : Bytes)
  | readUntilAny (markers : List Text)

/-- The channel may raise in place of an answer. -/
abbrev ConsoleCall.Answer : ConsoleCall → Type
  | .sendall _ => Except Failure Unit
  | .readUntilAny _ => Except Failure (List Poll)

abbrev Dialogue (α : Type) := Program ConsoleCall ConsoleCall.Answer Failure α

namespace Dialogue

def sendall (s : Bytes) : Dialogue Unit := .call (.sendall s) .ofExcept

def readUntilAny (password : Option Text) (markers : List Text) (context : String)
    (redactPassword : Bool) : Dialogue Text :=
  .call (.readUntilAny markers) fun found => .ofExcept do
    (Transport.readUntilAny password markers context redactPassword (← found)).1

/-- The markers of `_read_console_state`, in the order in which they are looked for. -/
def markers (config : ConsoleSessionConfig) : List Text :=
  [config.prompt, config.loginPrompt, config.passwordPrompt, config.initialPromptSuffix]

/-- `_read_console_state`. -/
def readConsoleState (config : ConsoleSessionConfig) (redactPassword : Bool) : Dialogue Text :=
  readUntilAny config.password (markers config) "device console state" redactPassword

/-- `_send_console_username`. -/
def sendConsoleUsername (config : ConsoleSessionConfig) : Dialogue Unit :=
  match config.username, config.password with
  | some username, some _ => sendall (Utf8.encode (username ++ ['\r']))
  | _, _ => .throw
    (.transportError "Device console requires login, but console credentials are not configured")

/-- `_send_console_password`. -/
def sendConsolePassword (config : ConsoleSessionConfig) : Dialogue Unit :=
  match config.password with
  | some password => sendall (Utf8.encode (password ++ ['\r']))
  | none => .throw
    (.transportError "Device console requires a password, but console credentials are not configured")

/-- The step of `prepare` at a login prompt. -/
def answerLogin (config : ConsoleSessionConfig) (state : Text) : Dialogue Text :=
  if state = config.loginPrompt then do
    sendConsoleUsername config
    readConsoleState config false
  else return state

/-- The step of `prepare` at a password prompt. -/
def answerPassword (config : ConsoleSessionConfig) (state : Text) : Dialogue Text :=
  if state = config.passwordPrompt then do
    sendConsolePassword config
    readConsoleState config true
  else return state

/-- The last steps of `prepare`. -/
def setPrompt (config : ConsoleSessionConfig) (state : Text) : Dialogue Unit :=
  if state = config.loginPrompt ∨ state = config.passwordPrompt then
    .throw (.transportError "Device console authentication failed")
  else if state ≠ config.initialPromptSuffix ∧ state ≠ config.prompt then
    .throw (.transportError "Device console did not reach a recognized shell prompt")
  else if state ≠ config.prompt then do
    sendall (Utf8.encode (exportLine config.prompt ++ ['\r']))
    let _ ← readUntilAny config.password [config.prompt] "shell prompt" false
  else return

/-- `prepare`. -/
def prepare (config : ConsoleSessionConfig) : Dialogue Unit := do
  sendall (Utf8.encode ['\r'])
  let state ← readConsoleState config false
  if state = config.prompt then return
  let state ← answerLogin config state
  let state ← answerPassword config state
  setPrompt config state

end Dialogue

/-! ## The dialogue on a channel -/

/-- A channel answers with what it finds, and keeps what the loop leaves unread. -/
def Channel.answer : (call : ConsoleCall) → Channel → call.Answer × Channel
  | .sendall s, ch => (.ok (), { ch with sent := ch.sent ++ [s] })
  | .readUntilAny markers, ch =>
    let polls := ch.unread ++ ch.reads.headD []
    (.ok polls, { ch with
      reads := ch.reads.tail
      unread := (readUntilAny none markers "" false polls).2 })

/-- The dialogue as a computation on a channel. -/
def Dialogue.onChannel {α : Type} (p : Dialogue α) : Session α := ExceptT.mk (p.eval Channel.answer)

theorem exec_onChannel {α : Type} (p : Dialogue α) (ch : Channel) :
    Session.exec p.onChannel ch = p.eval Channel.answer ch := rfl

namespace Dialogue

variable {α β : Type}

theorem onChannel_pure (a : α) : (pure a : Dialogue α).onChannel = pure a := rfl

theorem onChannel_throw (e : Failure) : Dialogue.onChannel (.throw e : Dialogue α) = throw e := rfl

theorem onChannel_bind (p : Dialogue α) (f : α → Dialogue β) :
    (p >>= f).onChannel = p.onChannel >>= fun a => (f a).onChannel := by
  funext ch
  show Session.exec (p >>= f).onChannel ch = Session.exec (p.onChannel >>= fun a => (f a).onChannel) ch
  rw [Session.exec_bind, exec_onChannel, exec_onChannel, Program.eval_bind]
  rcases p.eval Channel.answer ch with ⟨r, ch'⟩
  cases r <;> rfl

theorem onChannel_ite {c : Prop} [Decidable c] (p q : Dialogue α) :
    (if c then p else q).onChannel = if c then p.onChannel else q.onChannel := by
  split <;> rfl

theorem onChannel_sendall (s : Bytes) : (sendall s).onChannel = Transport.sendall s := rfl

/-- What a read leaves does not depend on how its errors are told. -/
theorem readUntilAny_rest (password : Option Text) (markers : List Text) (context : String)
    (redactPassword : Bool) (polls : List Poll) :
    (Transport.readUntilAny password markers context redactPassword polls).2
      = (Transport.readUntilAny none markers "" false polls).2 := by
  unfold Transport.readUntilAny
  split <;> rfl

theorem onChannel_readUntilAny (password : Option Text) (markers : List Text) (context : String)
    (redactPassword : Bool) : (readUntilAny password markers context redactPassword).onChannel
      = reading (Transport.readUntilAny password markers context redactPassword) := by
  funext ch
  show Session.exec (readUntilAny password markers context redactPassword).onChannel ch
    = Session.exec (reading (Transport.readUntilAny password markers context redactPassword)) ch
  unfold readUntilAny
  rw [exec_onChannel, Program.eval_call, Program.eval_ofExcept, exec_reading]
  simp only [Channel.answer, readUntilAny_rest password markers context redactPassword]
  rfl

theorem onChannel_sendConsoleUsername (config : ConsoleSessionConfig) :
    (sendConsoleUsername config).onChannel = Transport.sendConsoleUsername config := by
  unfold sendConsoleUsername Transport.sendConsoleUsername
  cases config.username with
  | none => rfl
  | some username => cases config.password <;> rfl

theorem onChannel_sendConsolePassword (config : ConsoleSessionConfig) :
    (sendConsolePassword config).onChannel = Transport.sendConsolePassword config := by
  unfold sendConsolePassword Transport.sendConsolePassword
  cases config.password <;> rfl

theorem onChannel_readConsoleState (config : ConsoleSessionConfig) (redactPassword : Bool) :
    (readConsoleState config redactPassword).onChannel
      = Transport.readConsoleState config redactPassword :=
  onChannel_readUntilAny _ _ _ _

end Dialogue

theorem ite_bind {α β : Type} {c : Prop} [Decidable c] (m n : Session α) (f : α → Session β) :
    (if c then m else n) >>= f = if c then m >>= f else n >>= f := by
  split <;> rfl

theorem throw_bind {α β : Type} (e : Failure) (f : α → Session β) :
    (throw e : Session α) >>= f = throw e := rfl

/-- **On a channel the dialogue is `prepare`.** -/
theorem onChannel_prepare (config : ConsoleSessionConfig) :
    (Dialogue.prepare config).onChannel = prepare config := by
  unfold Dialogue.prepare prepare detectState Dialogue.answerLogin Dialogue.answerPassword
    Dialogue.setPrompt setPrompt
  simp only [Dialogue.onChannel_bind, Dialogue.onChannel_ite, Dialogue.onChannel_pure,
    Dialogue.onChannel_throw, Dialogue.onChannel_sendall, Dialogue.onChannel_readUntilAny,
    Dialogue.onChannel_readConsoleState, Dialogue.onChannel_sendConsoleUsername,
    Dialogue.onChannel_sendConsolePassword, bind_assoc]
  congr 1
  funext _
  congr 1
  funext state
  -- both decide by the same comparisons in the same order
  simp only [ite_bind, throw_bind, bind_assoc, pure_bind]

/-! ## The runs of the dialogue -/

abbrev ConsoleTrace := List (Sigma ConsoleCall.Answer)

/-- What a run writes. -/
def writes (trace : ConsoleTrace) : List Bytes :=
  trace.filterMap fun x => match x.1 with
    | .sendall s => some s
    | .readUntilAny _ => none

/-- A read that returned the marker: after one of the chunks, the text so far ended with it and with
none of the markers before it. -/
def ReadEnded (marker : Text) (x : Sigma ConsoleCall.Answer) : Prop :=
  ∃ markers read rest, x = ⟨.readUntilAny markers, .ok (read ++ rest)⟩ ∧
    (markers.find? fun m => m <:+ normalizedText (received read)) = some marker ∧
    marker <:+ normalizedText (received read)

/-- The run so far ends with a read that ended with the marker. -/
def AfterRead (marker : Text) (trace : ConsoleTrace) : Prop :=
  ∃ before x, trace = before ++ [x] ∧ ReadEnded marker x

/-- One exchange: the line is written, and unless the channel raises, its answer is read. -/
inductive Exchange (line : Bytes) (markers : List Text) : ConsoleTrace → Prop
  | raised (e : Failure) : Exchange line markers [⟨.sendall line, .error e⟩]
  | answered (found : Except Failure (List Poll)) :
    Exchange line markers [⟨.sendall line, .ok ()⟩, ⟨.readUntilAny markers, found⟩]

theorem Exchange.writes {line : Bytes} {markers : List Text} {trace : ConsoleTrace}
    (h : Exchange line markers trace) : writes trace = [line] := by
  cases h <;> rfl

section Read

variable {password : Option Text} {markers : List Text} {context : String} {redactPassword : Bool}
  {trace : ConsoleTrace} {r : Except Failure Text}

/-- The run of one read. -/
theorem runs_read
    (h : Program.Runs (Dialogue.readUntilAny password markers context redactPassword) trace r) :
    ∃ found, trace = [⟨.readUntilAny markers, found⟩] ∧
      r = found >>= fun polls => (readUntilAny password markers context redactPassword polls).1 := by
  cases h with
  | call found h =>
    obtain ⟨rfl, rfl⟩ := Program.Runs.ofExcept h
    exact ⟨found, rfl, rfl⟩

/-- A read that returns a marker has ended with it. -/
theorem runs_readUntilAny
    (h : Program.Runs (Dialogue.readUntilAny password markers context redactPassword) trace r) :
    ∃ found, trace = [⟨.readUntilAny markers, found⟩] ∧
      ∀ marker, r = .ok marker → marker ∈ markers ∧ ReadEnded marker ⟨.readUntilAny markers, found⟩ := by
  obtain ⟨found, rfl, rfl⟩ := runs_read h
  refine ⟨found, rfl, ?_⟩
  intro marker hr
  cases found with
  | error e => cases hr
  | ok polls =>
    have hread : (readUntilAny password markers context redactPassword polls).1 = .ok marker := hr
    have hloop := readUntilAny_ok_iff.mp (Prod.ext hread rfl)
    obtain ⟨read, hpolls, -, hfind⟩ := readLoop_returned hloop
    rw [List.nil_append] at hfind
    exact ⟨List.mem_of_find?_eq_some hfind, markers, read, _, by rw [hpolls], hfind,
      by simpa using List.find?_some hfind⟩

/-- A line and the read of its answer are one exchange. -/
theorem runs_exchange {line : Bytes}
    (h : Program.Runs (Dialogue.sendall line >>= fun _ =>
      Dialogue.readUntilAny password markers context redactPassword) trace r) :
    Exchange line markers trace ∧
      ∀ marker, r = .ok marker → marker ∈ markers ∧ AfterRead marker trace := by
  rcases h.bind with ⟨first, rest, _, rfl, hsend, hread⟩ | ⟨e, hsend, rfl⟩
  · cases hsend with
    | call x hsend =>
      obtain ⟨rfl, hx⟩ := Program.Runs.ofExcept hsend
      obtain ⟨found, rfl, hended⟩ := runs_readUntilAny hread
      subst hx
      refine ⟨.answered found, fun marker hr => ?_⟩
      obtain ⟨hmem, hmarker⟩ := hended marker hr
      exact ⟨hmem, [_], _, rfl, hmarker⟩
  · cases hsend with
    | call x hsend =>
      obtain ⟨rfl, hx⟩ := Program.Runs.ofExcept hsend
      subst hx
      exact ⟨.raised e, fun marker hr => nomatch hr⟩

end Read

theorem AfterRead.append {marker : Text} {trace : ConsoleTrace} (before : ConsoleTrace)
    (h : AfterRead marker trace) : AfterRead marker (before ++ trace) := by
  obtain ⟨start, x, rfl, hx⟩ := h
  exact ⟨before ++ start, x, (List.append_assoc _ _ _).symm, hx⟩

section Steps

variable {config : ConsoleSessionConfig} {state : Text} {before trace : ConsoleTrace}

/-- At a login prompt the username is answered, when both credentials are there. -/
theorem runs_answerLogin {r : Except Failure Text} (hbefore : AfterRead state before)
    (h : Program.Runs (Dialogue.answerLogin config state) trace r) :
    (trace = [] ∨ AfterRead config.loginPrompt before ∧
      ∃ username password, config.username = some username ∧ config.password = some password ∧
        Exchange (Utf8.encode (username ++ ['\r'])) (Dialogue.markers config) trace) ∧
      ∀ next, r = .ok next → AfterRead next (before ++ trace) := by
  unfold Dialogue.answerLogin at h
  split at h
  · rename_i hstate
    rw [hstate] at hbefore
    unfold Dialogue.sendConsoleUsername at h
    split at h
    · rename_i username password husername hpassword
      obtain ⟨hexchange, hnext⟩ := runs_exchange h
      exact ⟨.inr ⟨hbefore, username, password, husername, hpassword, hexchange⟩,
        fun next hr => (hnext next hr).2.append before⟩
    · cases h
      exact ⟨.inl rfl, fun next hr => nomatch hr⟩
  · cases h
    refine ⟨.inl rfl, fun next hr => ?_⟩
    rw [List.append_nil, ← Except.ok.inj hr]
    exact hbefore

/-- At a password prompt the password is answered, when it is there. -/
theorem runs_answerPassword {r : Except Failure Text} (hbefore : AfterRead state before)
    (h : Program.Runs (Dialogue.answerPassword config state) trace r) :
    (trace = [] ∨ AfterRead config.passwordPrompt before ∧
      ∃ password, config.password = some password ∧
        Exchange (Utf8.encode (password ++ ['\r'])) (Dialogue.markers config) trace) ∧
      ∀ next, r = .ok next → AfterRead next (before ++ trace) := by
  unfold Dialogue.answerPassword at h
  split at h
  · rename_i hstate
    rw [hstate] at hbefore
    unfold Dialogue.sendConsolePassword at h
    split at h
    · rename_i password hpassword
      obtain ⟨hexchange, hnext⟩ := runs_exchange h
      exact ⟨.inr ⟨hbefore, password, hpassword, hexchange⟩,
        fun next hr => (hnext next hr).2.append before⟩
    · cases h
      exact ⟨.inl rfl, fun next hr => nomatch hr⟩
  · cases h
    refine ⟨.inl rfl, fun next hr => ?_⟩
    rw [List.append_nil, ← Except.ok.inj hr]
    exact hbefore

/-- At the initial prompt the new prompt is set and awaited; at the prompt nothing is left to do. -/
theorem runs_setPrompt {r : Except Failure Unit} (hbefore : AfterRead state before)
    (h : Program.Runs (Dialogue.setPrompt config state) trace r) :
    (trace = [] ∨ AfterRead config.initialPromptSuffix before ∧
      Exchange (Utf8.encode (exportLine config.prompt ++ ['\r'])) [config.prompt] trace) ∧
      (r = .ok () → AfterRead config.prompt (before ++ trace)) := by
  unfold Dialogue.setPrompt at h
  split at h
  · cases h
    exact ⟨.inl rfl, fun hr => nomatch hr⟩
  split at h
  · cases h
    exact ⟨.inl rfl, fun hr => nomatch hr⟩
  rename_i hknown
  split at h
  · rename_i hprompt
    have hstate : state = config.initialPromptSuffix := by
      by_contra hne
      exact hknown ⟨hne, hprompt⟩
    rw [hstate] at hbefore
    rw [← Program.bind_assoc] at h
    rcases h.bind with ⟨exchange, rest, marker, rfl, hrun, hreturn⟩ | ⟨e, hrun, rfl⟩
    · cases hreturn
      obtain ⟨hexchange, hended⟩ := runs_exchange hrun
      obtain ⟨hmem, hafter⟩ := hended marker rfl
      rw [List.mem_singleton.mp hmem] at hafter
      rw [List.append_nil]
      exact ⟨.inr ⟨hbefore, hexchange⟩, fun _ => hafter.append before⟩
    · exact ⟨.inr ⟨hbefore, (runs_exchange hrun).1⟩, fun hr => nomatch hr⟩
  · rename_i hprompt
    cases h
    rw [List.append_nil, ← not_not.mp hprompt]
    exact ⟨.inl rfl, fun _ => hbefore⟩

theorem writes_append (t u : ConsoleTrace) : writes (t ++ u) = writes t ++ writes u :=
  List.filterMap_append

theorem writes_parts {line : Bytes} {markers : List Text} {first users passwords exports : ConsoleTrace}
    (hfirst : Exchange line markers first) (htrace : trace = first ++ users ++ passwords ++ exports) :
    writes trace = line :: (writes users ++ writes passwords ++ writes exports) := by
  simp only [htrace, writes_append, hfirst.writes, List.cons_append, List.nil_append]

/-- **Credentials are released only on request.**  Whatever the console answers, a run of `prepare` is the
exchange of the CR that wakes it; the exchange of the username, if the read before ended with the
login prompt; the exchange of the password, if the read directly before ended with the password prompt;
and the exchange of the line that sets the prompt, if the read before ended with the initial prompt.
When `prepare` returns, the last read ended with the prompt. -/
theorem prepare_dialogue {r : Except Failure Unit}
    (h : Program.Runs (Dialogue.prepare config) trace r) :
    ∃ first users passwords exports, trace = first ++ users ++ passwords ++ exports ∧
      writes trace = Utf8.encode ['\r'] :: (writes users ++ writes passwords ++ writes exports) ∧
      Exchange (Utf8.encode ['\r']) (Dialogue.markers config) first ∧
      (users = [] ∨ AfterRead config.loginPrompt first ∧
        ∃ username password, config.username = some username ∧ config.password = some password ∧
          Exchange (Utf8.encode (username ++ ['\r'])) (Dialogue.markers config) users) ∧
      (passwords = [] ∨ AfterRead config.passwordPrompt (first ++ users) ∧
        ∃ password, config.password = some password ∧
          Exchange (Utf8.encode (password ++ ['\r'])) (Dialogue.markers config) passwords) ∧
      (exports = [] ∨ AfterRead config.initialPromptSuffix (first ++ users ++ passwords) ∧
        Exchange (Utf8.encode (exportLine config.prompt ++ ['\r'])) [config.prompt] exports) ∧
      (r = .ok () → AfterRead config.prompt trace) := by
  unfold Dialogue.prepare at h
  rw [← Program.bind_assoc] at h
  rcases h.bind with ⟨first, rest, state, rfl, hrun, h⟩ | ⟨e, hrun, rfl⟩
  · obtain ⟨hfirst, hstate⟩ := runs_exchange hrun
    have hafter := (hstate state rfl).2
    split at h
    · rename_i hprompt
      cases h
      rw [hprompt] at hafter
      exact ⟨first, [], [], [], by simp, writes_parts hfirst (by simp), hfirst, .inl rfl, .inl rfl, .inl rfl,
        fun _ => by simpa using hafter⟩
    rcases h.bind with ⟨users, rest, state, rfl, hrun, h⟩ | ⟨e, hrun, rfl⟩
    · obtain ⟨husers, hstate⟩ := runs_answerLogin hafter hrun
      have hafter := hstate state rfl
      rcases h.bind with ⟨passwords, exports, state, rfl, hrun, h⟩ | ⟨e, hrun, rfl⟩
      · obtain ⟨hpasswords, hstate⟩ := runs_answerPassword hafter hrun
        obtain ⟨hexports, hreturned⟩ := runs_setPrompt (hstate state rfl) h
        refine ⟨first, users, passwords, exports, by simp, writes_parts hfirst (by simp), hfirst, husers,
          hpasswords, hexports, fun hr => ?_⟩
        simpa using hreturned hr
      · exact ⟨first, users, rest, [], by simp, writes_parts hfirst (by simp), hfirst, husers,
          (runs_answerPassword hafter hrun).1, .inl rfl, fun hr => nomatch hr⟩
    · exact ⟨first, rest, [], [], by simp, writes_parts hfirst (by simp), hfirst,
        (runs_answerLogin hafter hrun).1, .inl rfl, .inl rfl, fun hr => nomatch hr⟩
  · exact ⟨trace, [], [], [], by simp, writes_parts (runs_exchange hrun).1 (by simp), (runs_exchange hrun).1,
      .inl rfl, .inl rfl, .inl rfl, fun hr => nomatch hr⟩

end Steps

/-- **A channel answers one of these runs**, and is sent what the run writes. -/
theorem prepare_on_channel (config : ConsoleSessionConfig) (ch : Channel) :
    ∃ trace, Program.Runs (Dialogue.prepare config) trace (Session.exec (prepare config) ch).1 ∧
      (Session.exec (prepare config) ch).2.sent = ch.sent ++ writes trace := by
  rw [← onChannel_prepare, exec_onChannel]
  have hcall : ∀ (call : ConsoleCall) (ch' : Channel) (trace : ConsoleTrace),
      ch'.sent = ch.sent ++ writes trace →
      (Channel.answer call ch').2.sent
        = ch.sent ++ writes (trace ++ [⟨call, (Channel.answer call ch').1⟩]) := by
    intro call ch' trace hsent
    rw [writes_append, ← List.append_assoc, ← hsent]
    cases call with
    | sendall s => rfl
    | readUntilAny markers => exact (List.append_nil _).symm
  have hstart : ch.sent = ch.sent ++ writes [] := (List.append_nil ch.sent).symm
  exact Program.runs_of_eval (I := fun (ch' : Channel) trace => ch'.sent = ch.sent ++ writes trace)
    hcall (Dialogue.prepare config) hstart

/-- A console that asks for both credentials is logged in. -/
theorem prepare_dialogue_sample :
    ∃ trace, Program.Runs (Dialogue.prepare
        (sampleConsole.resolve (some "root".toList) (some "secret".toList))) trace (.ok ()) ∧
      writes trace = [Utf8.encode "\r".toList, Utf8.encode "root\r".toList, Utf8.encode "secret\r".toList,
        Utf8.encode (exportLine sampleConsole.prompt.text ++ ['\r'])] ∧
      AfterRead sampleConsole.prompt.text trace := by
  let config := sampleConsole.resolve (some "root".toList) (some "secret".toList)
  let ch : Channel :=
    { closed := false, sent := [], unread := []
      reads := [[.chunk (Utf8.encode "board login:".toList)], [.idle, .chunk (Utf8.encode "Password:".toList)],
        [.chunk (Utf8.encode "\r\nroot@board:~# ".toList)],
        [.chunk (Utf8.encode sampleConsole.prompt.text)]] }
  have hok : (Session.exec (prepare config) ch).1 = .ok () := by decide +kernel
  have hsent : (Session.exec (prepare config) ch).2.sent
      = [Utf8.encode "\r".toList, Utf8.encode "root\r".toList, Utf8.encode "secret\r".toList,
        Utf8.encode (exportLine sampleConsole.prompt.text ++ ['\r'])] := by decide +kernel
  obtain ⟨trace, hrun, hwrites⟩ := prepare_on_channel config ch
  rw [hok] at hrun
  rw [hsent] at hwrites
  obtain ⟨-, -, -, -, -, -, -, -, -, -, hended⟩ := prepare_dialogue hrun
  exact ⟨trace, hrun, hwrites.symm, hended rfl⟩

end HardwareTest.Transport
