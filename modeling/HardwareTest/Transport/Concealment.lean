import HardwareTest.Transport.Login

/-!
# The password and the timeouts

A timeout quotes the text that was received.  The read that follows the password masks it there; the
wait for the shell prompt, which comes later, does not, and a console can echo late.

* `redactConsolePassword_conceals` — masking leaves no occurrence;
* `PasswordSent` — where a run has sent the password;
* `EchoedLate` — a wait that runs to its deadline on a text with the password;
* `prepare_conceals_iff` — no exception of `prepare` shows the password exactly when the wait for the
  shell prompt is not of this kind.
-/

namespace HardwareTest.Transport

open HardwareTest.Lib HardwareTest.Python

/-! ## What an exception shows -/

/-- The received text that an exception quotes. -/
def Failure.quoted : Failure → Option Text
  | .transportError _ => none
  | .transportTimeoutError _ received => some received
  | .runtimeError _ => none
  | .valueError => none

/-- The exception of the channel in place of an answer. -/
def raisedBy : Sigma ConsoleCall.Answer → Option Failure
  | ⟨.sendall _, .error e⟩ => some e
  | ⟨.sendall _, .ok _⟩ => none
  | ⟨.readUntilAny _, .error e⟩ => some e
  | ⟨.readUntilAny _, .ok _⟩ => none

/-- What a run raises is passed on from the channel, in its last call, or quotes no text with the
secret. -/
def Conceals (secret : Text) (trace : ConsoleTrace) (r : Except Failure Unit) : Prop :=
  ∀ e, r = .error e →
    (∃ x ∈ trace.getLast?, raisedBy x = some e) ∨ ∀ text ∈ e.quoted, ¬secret <:+: text

section Conceals

variable {secret : Text} {trace : ConsoleTrace}

theorem conceals_ok : Conceals secret trace (.ok ()) := by
  intro e he
  cases he

theorem conceals_unquoted {e : Failure} (h : e.quoted = none) : Conceals secret trace (.error e) := by
  intro e' he
  cases he
  refine .inr fun text htext => ?_
  rw [h] at htext
  cases htext

theorem conceals_raised {x : Sigma ConsoleCall.Answer} {e : Failure} (h : raisedBy x = some e) :
    Conceals secret (trace ++ [x]) (.error e) := by
  intro e' he
  cases he
  exact .inl ⟨x, List.getLast?_concat, h⟩

end Conceals

/-- **Masking leaves no occurrence** of a password without stars. -/
theorem redactConsolePassword_conceals {secret : Text} (hne : secret ≠ []) (hstar : '*' ∉ secret)
    (value : Text) : ¬secret <:+: redactConsolePassword (some secret) value := by
  rw [redactConsolePassword, if_neg hne]
  refine Newline.not_infix_replace hne (by simp) (fun c hc => ?_) value
  obtain rfl : c = '*' := by simpa using hc
  exact hstar

/-! ## Where the password is sent -/

namespace Dialogue

/-- `prepare` up to the step at the password prompt: the state it is in, or `none` when the console
showed the prompt at once. -/
def untilPassword (config : ConsoleSessionConfig) : Dialogue (Option Text) := do
  sendall (Utf8.encode ['\r'])
  let state ← readConsoleState config false
  if state = config.prompt then return none
  let state ← answerLogin config state
  return some state

/-- The rest of `prepare`. -/
def fromPassword (config : ConsoleSessionConfig) : Option Text → Dialogue Unit
  | none => return
  | some state => do
    let state ← answerPassword config state
    setPrompt config state

theorem prepare_eq (config : ConsoleSessionConfig) :
    prepare config = untilPassword config >>= fromPassword config := by
  unfold prepare untilPassword
  rw [Program.bind_assoc]
  congr 1
  funext _
  rw [Program.bind_assoc]
  congr 1
  funext state
  split
  · rfl
  · rw [Program.bind_assoc]
    rfl

end Dialogue

/-- The run has sent the password, which is at this place between the calls before and after it. -/
structure PasswordSent (config : ConsoleSessionConfig) (secret : Text)
    (trace before after : ConsoleTrace) : Prop where
  password : config.password = some secret
  prompted : Program.Runs (Dialogue.untilPassword config) before (.ok (some config.passwordPrompt))
  sent : trace = before ++ ⟨.sendall (Utf8.encode (secret ++ ['\r'])), .ok ()⟩ :: after

/-- The steps from the password prompt on. -/
theorem fromPassword_eq {config : ConsoleSessionConfig} {secret : Text}
    (hpassword : config.password = some secret) :
    Dialogue.fromPassword config (some config.passwordPrompt)
      = Dialogue.sendall (Utf8.encode (secret ++ ['\r'])) >>= fun _ =>
          Dialogue.readConsoleState config true >>= Dialogue.setPrompt config := by
  have hanswer : Dialogue.answerPassword config config.passwordPrompt
      = Dialogue.sendall (Utf8.encode (secret ++ ['\r'])) >>= fun _ =>
          Dialogue.readConsoleState config true := by
    rw [Dialogue.answerPassword, if_pos rfl, Dialogue.sendConsolePassword, hpassword]
  rw [Dialogue.fromPassword, hanswer, Program.bind_assoc]

/-- What follows the password: the state is read with masking, and the prompt is set. -/
theorem PasswordSent.runs_after {config : ConsoleSessionConfig} {secret : Text}
    {trace before after : ConsoleTrace} {r : Except Failure Unit}
    (hsent : PasswordSent config secret trace before after)
    (h : Program.Runs (Dialogue.prepare config) trace r) :
    Program.Runs (Dialogue.readConsoleState config true >>= Dialogue.setPrompt config) after r := by
  rw [Dialogue.prepare_eq, hsent.sent] at h
  have hrest := Program.Runs.of_append hsent.prompted h
  rw [fromPassword_eq hsent.password] at hrest
  cases hrest with
  | call _ hrest => exact hrest

/-! ## The reads after the password -/

/-- A wait for the prompt that runs to its deadline on a text with the secret. -/
structure EchoedLate (prompt secret : Text) (polls : List Poll) : Prop where
  opened : Open polls
  waiting : ∀ p ∈ chunkEnds [] polls, ¬prompt <:+ normalizedText p
  echoed : secret <:+: normalizedText (received polls)

/-- The run ends with such a wait for the shell prompt. -/
def EndsEchoed (config : ConsoleSessionConfig) (secret : Text) (after : ConsoleTrace) : Prop :=
  ∃ start polls, after = start ++ [⟨.readUntilAny [config.prompt], .ok polls⟩] ∧
    EchoedLate config.prompt secret polls

theorem endsEchoed_concat {config : ConsoleSessionConfig} {secret : Text} {start : ConsoleTrace}
    {x : Sigma ConsoleCall.Answer} : EndsEchoed config secret (start ++ [x]) ↔
      ∃ polls, x = ⟨.readUntilAny [config.prompt], .ok polls⟩ ∧ EchoedLate config.prompt secret polls := by
  constructor
  · rintro ⟨start', polls, heq, hlate⟩
    exact ⟨polls, (List.append_singleton_inj.mp heq).2, hlate⟩
  · rintro ⟨polls, rfl, hlate⟩
    exact ⟨start, polls, rfl, hlate⟩

/-- A read of the console state is not the wait for the shell prompt. -/
theorem not_endsEchoed_state {config : ConsoleSessionConfig} {secret : Text} {start : ConsoleTrace}
    {found : Except Failure (List Poll)} :
    ¬EndsEchoed config secret (start ++ [⟨.readUntilAny (Dialogue.markers config), found⟩]) := by
  rw [endsEchoed_concat]
  rintro ⟨polls, heq, -⟩
  have hcall := congrArg Sigma.fst heq
  simp [Dialogue.markers] at hcall

theorem not_endsEchoed_sendall {config : ConsoleSessionConfig} {secret : Text} {start : ConsoleTrace}
    {line : Bytes} {sent : Except Failure Unit} :
    ¬EndsEchoed config secret (start ++ [⟨.sendall line, sent⟩]) := by
  rw [endsEchoed_concat]
  rintro ⟨polls, heq, -⟩
  cases congrArg Sigma.fst heq

/-- A loop that runs to its deadline. -/
def Expires (markers : List Text) (polls : List Poll) : Prop :=
  Open polls ∧ ∀ p ∈ chunkEnds [] polls, (markers.find? fun m => m <:+ normalizedText p) = none

section Reads

variable {password : Option Text} {markers : List Text} {context : String} {redactPassword : Bool}
  {polls : List Poll}

/-- A read that runs to its deadline quotes everything that was received. -/
theorem readUntilAny_expired (h : Expires markers polls) :
    (readUntilAny password markers context redactPassword polls).1
      = .error (.transportTimeoutError ("Timed out waiting for " ++ context)
          (if redactPassword then redactConsolePassword password (normalizedText (received polls))
            else normalizedText (received polls))) := by
  rw [readUntilAny, readLoop_expired_iff.mpr ⟨h.1, h.2, rfl, rfl⟩]
  rfl

/-- Any other read returns, or raises without a text. -/
theorem readUntilAny_unquoted (h : ¬Expires markers polls) {e : Failure}
    (he : (readUntilAny password markers context redactPassword polls).1 = .error e) :
    e.quoted = none := by
  unfold readUntilAny at he
  split at he
  · cases he
  · cases he
    rfl
  · rename_i hloop
    obtain ⟨hopen, hnone, -, -⟩ := readLoop_expired_iff.mp hloop
    exact absurd ⟨hopen, hnone⟩ h

/-- The wait for the shell prompt. -/
theorem echoedLate_iff {prompt secret : Text} :
    EchoedLate prompt secret polls ↔
      Expires [prompt] polls ∧ secret <:+: normalizedText (received polls) := by
  have hfind : ∀ p, ([prompt].find? fun m => m <:+ normalizedText p) = none ↔
      ¬prompt <:+ normalizedText p := by
    intro p
    simp
  constructor
  · rintro ⟨hopen, hwaiting, hechoed⟩
    exact ⟨⟨hopen, fun p hp => (hfind p).mpr (hwaiting p hp)⟩, hechoed⟩
  · rintro ⟨⟨hopen, hnone⟩, hechoed⟩
    exact ⟨hopen, fun p hp => (hfind p).mp (hnone p hp), hechoed⟩

end Reads

section After

variable {config : ConsoleSessionConfig} {secret : Text} {start last : ConsoleTrace}

/-- **A masked read conceals the password.** -/
theorem readConsoleState_conceals (hne : secret ≠ []) (hstar : '*' ∉ secret)
    (hpassword : config.password = some secret) {e : Failure}
    (h : Program.Runs (Dialogue.readConsoleState config true) last (.error e)) :
    Conceals secret (start ++ last) (.error e) ∧ ¬EndsEchoed config secret (start ++ last) := by
  obtain ⟨found, rfl, hr⟩ := runs_read h
  refine ⟨?_, not_endsEchoed_state⟩
  cases found with
  | error e' =>
    cases hr
    exact conceals_raised rfl
  | ok polls =>
    replace hr : _ = (readUntilAny config.password (Dialogue.markers config) "device console state" true
      polls).1 := hr
    by_cases hexpires : Expires (Dialogue.markers config) polls
    · rw [readUntilAny_expired hexpires, hpassword] at hr
      cases hr
      intro e' he
      cases he
      refine .inr fun text htext => ?_
      cases htext
      exact redactConsolePassword_conceals hne hstar _
    · exact conceals_unquoted (readUntilAny_unquoted hexpires hr.symm)

/-- **The wait for the shell prompt does not mask.**  What it raises shows the password exactly when it
runs to its deadline on a text with the password. -/
theorem promptWait_conceals_iff {r : Except Failure Unit}
    (h : Program.Runs (Dialogue.readUntilAny config.password [config.prompt] "shell prompt" false
      >>= fun _ => pure ()) last r) :
    Conceals secret (start ++ last) r ↔ ¬EndsEchoed config secret (start ++ last) := by
  rcases h.bind with ⟨read, rest, marker, rfl, hread, hreturn⟩ | ⟨e, hread, rfl⟩
  · cases hreturn
    obtain ⟨found, rfl, hr⟩ := runs_read hread
    refine iff_of_true conceals_ok fun hends => ?_
    rw [List.append_nil, endsEchoed_concat] at hends
    obtain ⟨polls, heq, hlate⟩ := hends
    cases heq
    have hexpired : (readUntilAny config.password [config.prompt] "shell prompt" false polls).1 = _ :=
      readUntilAny_expired (echoedLate_iff.mp hlate).1
    exact absurd (hr.trans hexpired) (by simp)
  · obtain ⟨found, rfl, hr⟩ := runs_read hread
    rw [endsEchoed_concat]
    cases found with
    | error e' =>
      cases hr
      refine iff_of_true (conceals_raised rfl) ?_
      rintro ⟨polls, heq, -⟩
      cases heq
    | ok polls =>
      replace hr : _ = (readUntilAny config.password [config.prompt] "shell prompt" false polls).1 := hr
      have hsame : (∃ polls', (⟨.readUntilAny [config.prompt], .ok polls⟩ : Sigma ConsoleCall.Answer)
          = ⟨.readUntilAny [config.prompt], .ok polls'⟩ ∧ EchoedLate config.prompt secret polls') ↔
          EchoedLate config.prompt secret polls := by
        constructor
        · rintro ⟨polls', heq, hlate⟩
          cases heq
          exact hlate
        · exact fun hlate => ⟨polls, rfl, hlate⟩
      rw [hsame, echoedLate_iff]
      by_cases hexpires : Expires [config.prompt] polls
      · rw [readUntilAny_expired hexpires] at hr
        cases hr
        rw [and_iff_right hexpires]
        constructor
        · intro hconceals
          rcases hconceals _ rfl with ⟨x, hx, hraised⟩ | hquoted
          · rw [List.getLast?_concat] at hx
            cases hx
            cases hraised
          · exact hquoted _ rfl
        · intro hclean e' he
          cases he
          refine .inr fun text htext => ?_
          cases htext
          exact hclean
      · exact iff_of_true (conceals_unquoted (readUntilAny_unquoted hexpires hr.symm))
          fun hlate => hexpires hlate.1

/-- The end of `prepare`, when the calls before it do not end with the wait. -/
theorem setPrompt_conceals_iff {state : Text} {r : Except Failure Unit}
    (hstart : ¬EndsEchoed config secret start) (h : Program.Runs (Dialogue.setPrompt config state) last r) :
    Conceals secret (start ++ last) r ↔ ¬EndsEchoed config secret (start ++ last) := by
  unfold Dialogue.setPrompt at h
  split at h
  · cases h
    rw [List.append_nil]
    exact iff_of_true (conceals_unquoted rfl) hstart
  split at h
  · cases h
    rw [List.append_nil]
    exact iff_of_true (conceals_unquoted rfl) hstart
  split at h
  · cases h with
    | call sent h =>
      cases sent with
      | error e =>
        cases h
        exact iff_of_true (conceals_raised rfl) not_endsEchoed_sendall
      | ok _ =>
        rw [List.append_cons]
        exact promptWait_conceals_iff h
  · cases h
    rw [List.append_nil]
    exact iff_of_true conceals_ok hstart

end After

/-! ## The dialogue on a channel that asks for the password -/

theorem runs_on_channel {α : Type} (p : Dialogue α) (ch : Channel) :
    ∃ trace, Program.Runs p trace (p.eval Channel.answer ch).1 ∧ ∀ x ∈ trace, raisedBy x = none := by
  have hcall : ∀ (call : ConsoleCall) (ch : Channel) (trace : ConsoleTrace),
      (∀ x ∈ trace, raisedBy x = none) →
      ∀ x ∈ trace ++ [⟨call, (Channel.answer call ch).1⟩], raisedBy x = none := by
    intro call ch trace hquiet x hx
    rcases List.mem_append.mp hx with hx | hx
    · exact hquiet x hx
    · rw [List.mem_singleton.mp hx]
      cases call <;> rfl
  have hstart : ∀ x ∈ ([] : ConsoleTrace), raisedBy x = none := fun _ hx => nomatch hx
  exact Program.runs_of_eval (I := fun (_ : Channel) trace => ∀ x ∈ trace, raisedBy x = none) hcall p hstart

/-- **A channel that comes to the password prompt** makes a run that sends the password. -/
theorem passwordSent_on_channel {config : ConsoleSessionConfig} {secret : Text} {ch ch' : Channel}
    (hpassword : config.password = some secret)
    (huntil : (Dialogue.untilPassword config).eval Channel.answer ch
      = (.ok (some config.passwordPrompt), ch')) :
    ∃ trace before after, PasswordSent config secret trace before after ∧
      Program.Runs (Dialogue.prepare config) trace (Session.exec (prepare config) ch).1 ∧
      ∀ x ∈ trace, raisedBy x = none := by
  let line := Utf8.encode (secret ++ ['\r'])
  let rest := Dialogue.readConsoleState config true >>= Dialogue.setPrompt config
  obtain ⟨before, hbefore, hquiet⟩ := runs_on_channel (Dialogue.untilPassword config) ch
  obtain ⟨after, hafter, hquiet'⟩ := runs_on_channel rest (Channel.answer (.sendall line) ch').2
  rw [huntil] at hbefore
  have hresult : (Session.exec (prepare config) ch).1
      = (rest.eval Channel.answer (Channel.answer (.sendall line) ch').2).1 := by
    rw [← onChannel_prepare, exec_onChannel, Dialogue.prepare_eq, Program.eval_bind, huntil]
    dsimp only
    rw [fromPassword_eq hpassword]
    rfl
  refine ⟨_, before, after, ⟨hpassword, hbefore, rfl⟩, ?_, ?_⟩
  · rw [Dialogue.prepare_eq, hresult]
    refine hbefore.append ?_
    rw [fromPassword_eq hpassword]
    exact .call _ hafter
  · intro x hx
    rcases List.mem_append.mp hx with hx | hx
    · exact hquiet x hx
    rcases List.mem_cons.mp hx with rfl | hx
    · rfl
    · exact hquiet' x hx

def secretConsole : ConsoleSessionConfig :=
  sampleConsole.resolve (some "root".toList) (some "secret".toList)

/-- A channel that asks for both credentials, and these reads after that. -/
def asking (reads : List (List Poll)) : Channel where
  closed := false
  sent := []
  unread := []
  reads := [.chunk (Utf8.encode "board login:".toList)] :: [.chunk (Utf8.encode "Password:".toList)] :: reads

theorem untilPassword_asking (reads : List (List Poll)) :
    ∃ ch', (Dialogue.untilPassword secretConsole).eval Channel.answer (asking reads)
      = (.ok (some secretConsole.passwordPrompt), ch') :=
  ⟨_, rfl⟩

/-! ## The password and the exceptions -/

/-- **When the timeouts of `prepare` keep the password.**  In every run that has sent the password, whatever
the console answers, no exception that `prepare` raises quotes a text with the password, exactly when
the run does not end with the wait for the shell prompt, on a text with the password and at its
deadline. -/
theorem prepare_conceals_iff {config : ConsoleSessionConfig} {secret : Text} (hne : secret ≠ [])
    (hstar : '*' ∉ secret) {trace before after : ConsoleTrace} {r : Except Failure Unit}
    (hsent : PasswordSent config secret trace before after)
    (h : Program.Runs (Dialogue.prepare config) trace r) :
    Conceals secret trace r ↔ ¬EndsEchoed config secret trace := by
  have hrun := hsent.runs_after h
  rw [hsent.sent, List.append_cons]
  rcases hrun.bind with ⟨read, last, state, rfl, hread, hset⟩ | ⟨e, hread, rfl⟩
  · obtain ⟨found, rfl, -⟩ := runs_read hread
    rw [← List.append_assoc]
    exact setPrompt_conceals_iff not_endsEchoed_state hset
  · obtain ⟨hconceals, hends⟩ := readConsoleState_conceals hne hstar hsent.password hread
    exact iff_of_true hconceals hends

/-- A console that echoes the password at once and falls silent. -/
theorem prepare_conceals_echo : ∃ trace before after r,
    PasswordSent secretConsole "secret".toList trace before after ∧
      Program.Runs (Dialogue.prepare secretConsole) trace r ∧
      r = .error (.transportTimeoutError "Timed out waiting for device console state"
        "**********\n".toList) ∧
      ¬EndsEchoed secretConsole "secret".toList trace := by
  obtain ⟨ch', huntil⟩ := untilPassword_asking [[.chunk (Utf8.encode "secret\r\n".toList)]]
  obtain ⟨trace, before, after, hsent, hrun, -⟩ := passwordSent_on_channel rfl huntil
  have hresult : (Session.exec (prepare secretConsole)
      (asking [[.chunk (Utf8.encode "secret\r\n".toList)]])).1
      = .error (.transportTimeoutError "Timed out waiting for device console state"
        "**********\n".toList) := by decide +kernel
  rw [hresult] at hrun
  refine ⟨trace, before, after, _, hsent, hrun, rfl, ?_⟩
  refine (prepare_conceals_iff (by decide) (by decide) hsent hrun).mp fun e he => ?_
  cases he
  refine .inr fun text htext => ?_
  cases htext
  decide +kernel

/-- **A late echo shows the password**: the console echoes it after the line that sets the prompt, and no
prompt follows. -/
theorem prepare_shows_password : ∃ trace before after r,
    PasswordSent secretConsole "secret".toList trace before after ∧
      Program.Runs (Dialogue.prepare secretConsole) trace r ∧
      r = .error (.transportTimeoutError "Timed out waiting for shell prompt" "secret\n".toList) ∧
      ¬Conceals "secret".toList trace r := by
  let late : List (List Poll) :=
    [[.chunk (Utf8.encode "\r\nroot@board:~# ".toList)], [.chunk (Utf8.encode "secret\r\n".toList)]]
  obtain ⟨ch', huntil⟩ := untilPassword_asking late
  obtain ⟨trace, before, after, hsent, hrun, hquiet⟩ := passwordSent_on_channel rfl huntil
  have hresult : (Session.exec (prepare secretConsole) (asking late)).1
      = .error (.transportTimeoutError "Timed out waiting for shell prompt" "secret\n".toList) := by
    decide +kernel
  rw [hresult] at hrun
  refine ⟨trace, before, after, _, hsent, hrun, rfl, fun hconceals => ?_⟩
  rcases hconceals _ rfl with ⟨x, hx, hraised⟩ | hquoted
  · rw [hquiet x (List.mem_of_getLast? hx)] at hraised
    cases hraised
  · exact hquoted _ rfl (List.prefix_append _ _).isInfix

end HardwareTest.Transport
