import HardwareTest.Lib.Transition
import HardwareTest.Transport.Framing

/-!
# The commands of one session share one byte stream

A call that times out leaves its command running: what the console still writes for it stands in the
stream before the reply to the next command, and the session does not discard it.  A `Line` is that
stream together with what the calls returned, and a `Call` is one run of `execute` with what the
console writes for it and what its read loop finds before its deadline.

* `Own` — a result that comes from the call's own reply;
* `execute_ok` — what `execute` returns, it computed from the bytes its loop read;
* `results_own` — along every run in which no call reads into its own reply while bytes of an earlier
  command are unread, every result is the call's own.
-/

namespace HardwareTest.Transport

open HardwareTest.Lib HardwareTest.Python

/-- One call of `execute`: what the console writes for its command, and what the loop finds. -/
structure Call where
  command : UnixCommand
  token : Hex
  status : Hex
  emission : Bytes
  polls : List Poll

/-- The serial line: what the console has written, or will write, for the calls so far and the session
has not read, the tokens used, and what the calls gave. -/
structure Line where
  pending : Bytes
  tokens : List Hex
  results : List (Call × Except Failure CommandResult)

/-- A prepared session before its first command. -/
def Line.fresh : Line := ⟨[], [], []⟩

/-- The channel one call works on. -/
def Call.channel (call : Call) : Channel where
  closed := false
  sent := []
  reads := [call.polls]
  unread := []

/-- What a call reads is a part of what the console has written; its token is new, and no output
before the marker holds it. -/
def Call.Enabled (s : Line) (call : Call) : Prop :=
  received call.polls <+: s.pending ++ call.emission ∧ call.token ∉ s.tokens ∧
    ¬(Utf8.encode (exitToken call.token) <:+: s.pending)

instance (s : Line) (call : Call) : Decidable (call.Enabled s) :=
  inferInstanceAs (Decidable (_ ∧ _ ∧ _))

/-- One call on the line. -/
def callStep (config : ConsoleSessionConfig) (s : Line) (call : Call) : Option Line :=
  if call.Enabled s then
    let (result, ch) := Session.exec (execute config call.command call.token call.status) call.channel
    let unreceived := (s.pending ++ call.emission).drop (received call.polls).length
    some {
      pending := received ch.unread ++ unreceived
      tokens := call.token :: s.tokens
      results := s.results ++ [(call, result)] }
  else none

/-- **A result of the call's own reply**: it is computed from a part of what the console wrote for this
command, and when that is a well-formed reply, it is the output and the status of this command. -/
structure Own (config : ConsoleSessionConfig) (call : Call) (result : CommandResult) : Prop where
  part : ∃ p text, p <+: call.emission ∧
    examineResponse config.prompt (exitToken call.token) p = some (.ok (text, result.exitCode)) ∧
    result.stdout = removeEcho text (submittedLine config.prompt call.command call.token call.status)
  exact : ∀ output code, SingleLine call.command.text → SingleLine config.prompt →
    ¬(Utf8.encode (exitToken call.token) <:+: output) → code.natAbs < 10 ^ maxStrDigits →
    call.emission = commandReply config.prompt call.command call.token call.status output code →
    let submitted := submittedLine config.prompt call.command call.token call.status
    result.stdout = removeEcho (responseText submitted output) submitted ∧ result.exitCode = code

/-- Every result so far is the call's own. -/
def OwnResults (config : ConsoleSessionConfig) (s : Line) : Prop :=
  ∀ call result, (call, .ok result) ∈ s.results → Own config call result

/-! ## What a call returns -/

/-- `execute` on an open channel is one read loop over what the channel holds. -/
theorem exec_execute {config : ConsoleSessionConfig} {command : UnixCommand} {token status : Hex}
    {ch : Channel} (hclosed : ch.closed = false) :
    (Session.exec (execute config command token status) ch).1
      = (readCommandResponse config.prompt (exitToken token) (ch.unread ++ ch.reads.headD [])).1.map
        fun response =>
          ⟨removeEcho response.1 (submittedLine config.prompt command token status), [], response.2⟩ := by
  have hget : Session.exec get ch = (.ok ch, ch) := rfl
  unfold execute
  rw [Session.exec_bind, hget]
  simp only [hclosed, Bool.false_eq_true, if_false]
  change (Session.exec (sendall _ >>= _) _).1 = _
  rw [Session.exec_bind, exec_sendall]
  dsimp only
  rw [Session.exec_bind, exec_reading]
  dsimp only
  cases (readCommandResponse config.prompt (exitToken token) (ch.unread ++ ch.reads.headD [])).1 <;> rfl

/-- What the read loop accepts is in the result, without the echo. -/
theorem exec_execute_ok {config : ConsoleSessionConfig} {command : UnixCommand} {token status : Hex}
    {ch : Channel} {response : Text} {code : ℤ} (hclosed : ch.closed = false)
    (hread : (readCommandResponse config.prompt (exitToken token) (ch.unread ++ ch.reads.headD [])).1
      = .ok (response, code)) :
    (Session.exec (execute config command token status) ch).1
      = .ok ⟨removeEcho response (submittedLine config.prompt command token status), [], code⟩ := by
  rw [exec_execute hclosed, hread]
  rfl

/-- An accepted reply was accepted at a part of what the loop found. -/
theorem readCommandResponse_ok {prompt token response : Text} {code : ℤ} {polls : List Poll}
    (h : (readCommandResponse prompt token polls).1 = .ok (response, code)) :
    ∃ p, p <+: received polls ∧ examineResponse prompt token p = some (.ok (response, code)) := by
  rcases hloop : readLoop (examineResponse prompt token) [] polls with ⟨ending, rest⟩
  rw [readCommandResponse, hloop] at h
  cases ending with
  | returned answer =>
    obtain ⟨read, hpolls, -, ha⟩ := readLoop_returned hloop
    have hanswer : answer = .ok (response, code) := h
    rw [hanswer] at ha
    refine ⟨received read, ?_, ha⟩
    rw [hpolls, received_append]
    exact List.prefix_append _ _
  | closed => cases h
  | expired buffer => cases h

/-- What `execute` returns, it computed from the bytes that its loop read. -/
theorem execute_ok {config : ConsoleSessionConfig} {call : Call} {result : CommandResult} {ch : Channel}
    (h : Session.exec (execute config call.command call.token call.status) call.channel
      = (.ok result, ch)) :
    ∃ p text, p <+: received call.polls ∧
      examineResponse config.prompt (exitToken call.token) p = some (.ok (text, result.exitCode)) ∧
      result.stdout
        = removeEcho text (submittedLine config.prompt call.command call.token call.status) := by
  have hresult := congrArg Prod.fst h
  rw [exec_execute (show call.channel.closed = false from rfl)] at hresult
  rcases hanswer : (readCommandResponse config.prompt (exitToken call.token) call.polls).1 with e | response
  · simp [Call.channel, hanswer, Except.map] at hresult
  · obtain ⟨text, code⟩ := response
    obtain ⟨p, hp, hexam⟩ := readCommandResponse_ok hanswer
    simp only [Call.channel, List.nil_append, List.headD_cons, hanswer, Except.map] at hresult
    have hcode : result.exitCode = code := by rw [← Except.ok.inj hresult]
    have hstdout : result.stdout
        = removeEcho text (submittedLine config.prompt call.command call.token call.status) := by
      rw [← Except.ok.inj hresult]
    rw [← hcode] at hexam
    exact ⟨p, text, hp, hexam, hstdout⟩

/-- A result read from the call's own reply is its own. -/
theorem own_of_part {config : ConsoleSessionConfig} {call : Call} {result : CommandResult} {p : Bytes}
    {text : Text} (hp : p <+: call.emission)
    (hexam : examineResponse config.prompt (exitToken call.token) p
      = some (.ok (text, result.exitCode)))
    (hout : result.stdout
      = removeEcho text (submittedLine config.prompt call.command call.token call.status)) :
    Own config call result := by
  refine ⟨⟨p, text, hp, hexam, hout⟩, ?_⟩
  intro output code hcommand hprompt hfresh hcode hemission submitted
  have hf : Framed config.prompt submitted (exitToken call.token) output :=
    framed_submittedLine hcommand hprompt hfresh
  rw [hemission] at hp
  unfold examineResponse at hexam
  split at hexam
  · cases hexam
  rename_i m hm
  obtain ⟨hbefore, hgroup, -⟩ := searchMarker_of_prefix hf hp hm
  split_ifs at hexam
  rw [hgroup, int_str hcode] at hexam
  obtain ⟨htext, hexit⟩ : m.before = text ∧ code = result.exitCode := by simpa using hexam
  exact ⟨by rw [hout, ← htext, hbefore], hexit.symm⟩

/-- A buffer that does not hold the token is not accepted. -/
theorem examineResponse_of_missing {prompt : Text} {token : Hex} {p : Bytes}
    (h : ¬(Utf8.encode (exitToken token) <:+: p)) : examineResponse prompt (exitToken token) p = none := by
  unfold examineResponse
  split
  · rfl
  rename_i m hm
  exfalso
  apply h
  apply Newline.infix_of_infix_unify (lf_not_mem_encode (singleLine_exitToken token).2)
  apply Utf8.infix_of_infix_decode fun c hc => toNat_of_mem_exitToken hc
  have htext := (searchMarker_eq_some hm).2
  unfold normalizedText at htext
  rw [htext]
  exact ⟨m.before ++ ['\n'], m.group ++ '\n' :: m.tail, by simp⟩

/-! ## Runs -/

/-- A call adds its own entry to the results. -/
theorem callStep_results {config : ConsoleSessionConfig} {s t : Line} {call : Call}
    (h : callStep config s call = some t) : ∃ r, t.results = s.results ++ [(call, r)] := by
  unfold callStep at h
  split_ifs at h
  cases h
  exact ⟨_, rfl⟩

/-- The call begins with nothing of an earlier command unread, or reads nothing of its own reply. -/
def Separate (s : Line) (call : Call) : Prop :=
  s.pending = [] ∨ received call.polls <+: s.pending

/-- **One call.**  A call that is separate from the earlier ones adds an own result, or none. -/
theorem callStep_own {config : ConsoleSessionConfig} {s t : Line} {call : Call} (hs : OwnResults config s)
    (hsep : Separate s call) (h : callStep config s call = some t) : OwnResults config t := by
  unfold callStep at h
  split_ifs at h with henabled
  obtain ⟨hread, -, hfresh⟩ := henabled
  cases h
  intro call' result hmem
  rcases List.mem_append.mp hmem with hmem | hmem
  · exact hs call' result hmem
  · obtain ⟨rfl, hresult⟩ := Prod.mk.inj (List.mem_singleton.mp hmem)
    obtain ⟨p, text, hp, hexam, hout⟩ := execute_ok (Prod.ext hresult.symm rfl)
    rcases hsep with hnil | hpart
    · rw [hnil, List.nil_append] at hread
      exact own_of_part (hp.trans hread) hexam hout
    · have hnot : ¬(Utf8.encode (exitToken call'.token) <:+: p) := fun hin =>
        hfresh (hin.trans (hp.trans hpart).isInfix)
      rw [examineResponse_of_missing hnot] at hexam
      cases hexam

/-- **Every run of separate calls returns own results.** -/
theorem results_own {config : ConsoleSessionConfig} {calls : List Call} {t : Line}
    (hrun : Transition.run (callStep config) .fresh calls = some t)
    (hsep : Transition.Meets (callStep config) Separate .fresh calls) : OwnResults config t := by
  apply Transition.run_invariant_of_meets (fun _ _ _ hs hP h => callStep_own hs hP h) _ hsep hrun
  intro call result hmem
  cases hmem

/-! ## A late reply -/

/-- A session for the examples. -/
def sampleConfig : ConsoleSessionConfig where
  prompt := "# ".toList
  initialPromptSuffix := "$ ".toList
  loginPrompt := "login:".toList
  passwordPrompt := "Password:".toList
  username := none
  password := none

/-- A call whose command prints one word and whose loop finds the given polls. -/
def sampleCall (word : String) (token status : Hex) (code : ℤ) (polls : Bytes → List Poll) : Call where
  command := ⟨("echo " ++ word).toList, false, false⟩
  token := token
  status := status
  emission := commandReply "# ".toList ⟨("echo " ++ word).toList, false, false⟩ token status
    (Utf8.encode word.toList) code
  polls := polls (commandReply "# ".toList ⟨("echo " ++ word).toList, false, false⟩ token status
    (Utf8.encode word.toList) code)

/-- Two calls that read their replies, the second in two chunks. -/
theorem results_own_sample :
    let first := sampleCall "old" (sampleHex 'a' (by decide)) (sampleHex 'b' (by decide)) 0
      fun reply => [.idle, .chunk reply]
    let second := sampleCall "new" (sampleHex 'c' (by decide)) (sampleHex 'd' (by decide)) 1
      fun reply => [.chunk (reply.take 9), .chunk (reply.drop 9)]
    ∃ t, Transition.run (callStep sampleConfig) .fresh [first, second] = some t ∧
      OwnResults sampleConfig t := by
  intro first second
  have hsome : (Transition.run (callStep sampleConfig) .fresh [first, second]).isSome := by
    decide +kernel
  obtain ⟨t, ht⟩ := Option.isSome_iff_exists.mp hsome
  have hread : (callStep sampleConfig .fresh first).map Line.pending = some [] := by decide +kernel
  refine ⟨t, ht, results_own ht ⟨.inl rfl, fun s hs => ⟨.inl ?_, fun _ _ => trivial⟩⟩⟩
  rw [hs] at hread
  simpa using hread

/-- **A late reply stands in the next result.**  The first call times out before anything arrives; the
second reads the reply to the first and then its own, and its output holds the output of both. -/
theorem late_reply_in_next_result :
    ∃ (first second : Call) (t : Line) (result : CommandResult),
      Transition.run (callStep sampleConfig) .fresh [first, second] = some t ∧
      (second, .ok result) ∈ t.results ∧ "old\n".toList <:+: result.stdout ∧
      ¬OwnResults sampleConfig t := by
  let first := sampleCall "old" (sampleHex 'a' (by decide)) (sampleHex 'b' (by decide)) 0 fun _ => []
  let second := sampleCall "new" (sampleHex 'c' (by decide)) (sampleHex 'd' (by decide)) 1
    fun reply => [.chunk (first.emission ++ reply)]
  let run := Transition.run (callStep sampleConfig) .fresh [first, second]
  have hout : run.map (fun t => t.results.map fun r =>
      r.2.toOption.map fun result => decide ("old\n".toList <:+: result.stdout))
      = some [none, some true] := by decide +kernel
  obtain ⟨t, ht, hresults⟩ := Option.map_eq_some_iff.mp hout
  obtain ⟨s₁, hstep₁, hrest⟩ := Transition.run_cons ht
  obtain ⟨s₂, hstep₂, hnil⟩ := Transition.run_cons hrest
  cases hnil
  obtain ⟨r₁, hr₁⟩ := callStep_results hstep₁
  obtain ⟨r₂, hr₂⟩ := callStep_results hstep₂
  rw [hr₂, hr₁] at hresults
  cases r₂ with
  | error e => simp [Except.toOption, Line.fresh] at hresults
  | ok result =>
    have hold : "old\n".toList <:+: result.stdout := by
      simpa [Except.toOption, Line.fresh] using (List.cons.inj (List.cons.inj hresults).2).1
    have hmem : (second, Except.ok result) ∈ t.results := by
      rw [hr₂]
      simp
    refine ⟨first, second, t, result, ht, hmem, hold, fun hown => ?_⟩
    have hexact := (hown second result hmem).exact (Utf8.encode "new".toList) 1 (by decide)
      (by decide) (by decide +kernel) (lt_ten_pow_maxStrDigits (by decide)) rfl
    rw [hexact.1] at hold
    revert hold
    decide +kernel

end HardwareTest.Transport
