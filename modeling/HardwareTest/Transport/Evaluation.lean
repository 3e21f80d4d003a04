import HardwareTest.Transport.CommandLines
import HardwareTest.Transport.Isolation

/-!
# A console session evaluates command texts

On the other side of the channel stands a shell.  It reads the line that `execute` submits, carries it out,
and writes what the terminal makes of the output; then it shows its prompt.  So a session is a remote
evaluator: it gives for each command text what `eval` of this text writes, and its status.

* `run_submittedLine` — what the submitted line does in the shell;
* `session_evaluates` — every sequence of commands gives the outputs and statuses of the evaluations of their
  texts, in order.
-/

namespace HardwareTest.Transport

open HardwareTest.Lib HardwareTest.Lib.Shell HardwareTest.Python

/-! ## The submitted line in the shell -/

/-- The variable that holds the prompt. -/
def promptName : Text := "PS1".toList

section Line

variable {σ : Type} (sh : Utilities σ) {prompt : Text} {command : UnixCommand} {token status : Hex}

/-- The marker that the submitted line prints for a status. -/
def markerText (token : Hex) (code : ℕ) : Text := '\n' :: (exitToken token ++ (Nat.toDigits 10 code ++ ['\n']))

/-- What the line does after the command: the status is kept in a variable of its own, the prompt is set,
and the marker is printed. -/
def afterCommand (prompt : Text) (token status : Hex) (s : State σ) : State σ :=
  (((s.assign (statusName status) (Nat.toDigits 10 s.status)).assign promptName prompt).write
    (Utf8.encode (markerText token s.status))).withStatus 0

theorem isNameChar_hex {h : Hex} {c : Char} (hc : c ∈ h.digits) : isNameChar c = true := by
  have hall : "0123456789abcdef".toList.all isNameChar = true := by decide
  exact List.all_eq_true.mp hall c (h.isHex c hc)

theorem isName_statusName (status : Hex) : isName (statusName status) = true := by
  have hstart : isName "__hardware_test_status_".toList = true := by decide
  have happend : ∀ {n m : Text}, isName n = true → (∀ c ∈ m, isNameChar c = true) →
      isName (n ++ m) = true := by
    intro n m hn hm
    cases n with
    | nil => cases hn
    | cons c n =>
      rw [isName, Bool.and_eq_true] at hn
      rw [List.cons_append, isName, hn.1, Bool.true_and, List.all_append, hn.2, Bool.true_and]
      exact List.all_eq_true.mpr hm
  exact happend hstart fun c hc => isNameChar_hex hc

theorem statusName_ne_promptName (status : Hex) : statusName status ≠ promptName := by
  have hne : ∀ {n m p : Text}, n.head? = some '_' → p.head? = some 'P' → n ++ m ≠ p := by
    intro n m p hn hp h
    rw [← h, List.head?_append, hn] at hp
    cases hp
  exact hne (by decide) (by decide)

/-- The word of the format holds the token. -/
def formatText (token : Hex) : Text := "\\n".toList ++ (exitToken token ++ "%s\\n".toList)

theorem not_mem_formatText (token : Hex) : '\'' ∉ formatText token := by
  unfold formatText
  simp only [List.mem_append, not_or]
  exact ⟨by decide, not_mem_exitToken (by decide) (by decide), by decide⟩

/-- The commands of the submitted line. -/
def submittedScript (prompt : Text) (command : UnixCommand) (token status : Hex) (quoted quoted' : Bool) : Script :=
  [(⟨[], [literal false "eval".toList, literal quoted command.text]⟩, []),
    (⟨[(statusName status, [.status false])], []⟩, []),
    (⟨[(promptName, literal quoted' prompt)], []⟩, []),
    (⟨[], [literal false "printf".toList, literal true (formatText token),
      [.variable (statusName status) true]]⟩, [])]

theorem parse_submittedLine (prompt : Text) (command : UnixCommand) (token status : Hex) :
    ∃ quoted quoted', parse (submittedLine prompt command token status)
      = some (submittedScript prompt command token status quoted quoted') := by
  obtain ⟨quoted, hcommand⟩ := reads_quote command.text
  obtain ⟨quoted', hprompt⟩ := reads_quote prompt
  refine ⟨quoted, quoted', ?_⟩
  have hname : Reads (statusName status) (literal false (statusName status)) :=
    reads_plain (fun c hc => isPlain_of_isNameChar (nameChar_of_isName (isName_statusName status) c hc))
      (fun h => absurd (h ▸ isName_statusName status) (by decide))
  have hstatus : Reads (statusName status ++ ('=' :: "$?".toList))
      (literal false (statusName status) ++ (.char '=' false :: [.status false])) :=
    hname.append (Reads.append (s := ['=']) (reads_char (by decide)) reads_status)
  have hset : Reads (promptName ++ ('=' :: quote prompt))
      (literal false promptName ++ (.char '=' false :: literal quoted' prompt)) :=
    (reads_fixed (by decide)).append (Reads.append (s := ['=']) (reads_char (by decide)) hprompt)
  have hformat : Reads ('\'' :: (("\\n".toList ++ (exitToken token ++ "%s\\n".toList)) ++ ['\'']))
      (literal true (formatText token)) := reads_single (not_mem_formatText token)
  have hvariable := reads_variable (isName_statusName status)
  have hjoin : ∀ {a e q b n d p f g t h i : Text}, a = e ++ [' '] → b = [';', ' '] →
      d = '=' :: ("$?".toList ++ [';', ' ']) → f = promptName ++ ['='] →
      g = "printf".toList ++ (' ' :: '\'' :: "\\n".toList) →
      h = "%s\\n".toList ++ ['\'', ' ', '"', '$'] → i = ['"'] →
      a ++ q ++ b ++ n ++ d ++ f ++ p ++ b ++ g ++ t ++ h ++ n ++ i
        = e ++ ' ' :: (q ++ ';' :: ' ' :: ((n ++ ('=' :: "$?".toList)) ++ ';' :: ' ' :: ((promptName ++ ('=' :: p))
          ++ ';' :: ' ' :: ("printf".toList ++ ' ' :: (('\'' :: (("\\n".toList ++ (t ++ "%s\\n".toList)) ++ ['\'']))
            ++ ' ' :: ('"' :: '$' :: (n ++ ['"']))))))) := by
    intro a e q b n d p f g t h i ha hb hd hf hg hh hi
    subst ha hb hd hf hg hh hi
    simp only [List.append_assoc, List.cons_append, List.nil_append]
  have hline : submittedLine prompt command token status = _ :=
    hjoin (e := "eval".toList) (by decide) (by decide) (by decide) (by decide) (by decide) (by decide) (by decide)
  rw [parse, tokens_eq, hline, readFrom_word (reads_fixed (by decide)), readFrom_semi hcommand, readFrom_blank,
    readFrom_semi hstatus, readFrom_blank, readFrom_semi hset, readFrom_blank,
    readFrom_word (reads_fixed (by decide)), readFrom_word hformat, readFrom_last hvariable, Option.bind_some]
  have hassign : simple? [literal false (statusName status) ++ (.char '=' false :: [.status false])]
      = some ⟨[(statusName status, [.status false])], []⟩ := simple?_assignment (isName_statusName status) _
  have hprompt' : simple? [literal false promptName ++ (.char '=' false :: literal quoted' prompt)]
      = some ⟨[(promptName, literal quoted' prompt)], []⟩ := simple?_assignment (by decide) _
  have heval : simple? [literal false "eval".toList, literal quoted command.text] = _ :=
    simple?_command (by decide) _
  have hprintf : simple? [literal false "printf".toList, literal true (formatText token),
      [.variable (statusName status) true]] = _ := simple?_command (by decide) _
  simp only [List.nil_append, List.cons_append, parseFrom, hassign, hprompt', heval, hprintf, Option.bind_some,
    reduceCtorEq, false_and, if_false, Option.map_some]
  rfl

/-- The format prints the marker. -/
theorem formatAll_marker (token : Hex) (code : Text) :
    formatAll (formatText token) 2 [code] = some ('\n' :: (exitToken token ++ (code ++ ['\n']))) := by
  have htoken : '%' ∉ exitToken token ∧ '\\' ∉ exitToken token :=
    ⟨not_mem_exitToken (by decide) (by decide), not_mem_exitToken (by decide) (by decide)⟩
  have hend : format "%s\\n".toList [code] = some (code ++ ['\n'], []) := rfl
  have hformat : format (formatText token) [code] = some ('\n' :: (exitToken token ++ (code ++ ['\n'])), []) := by
    have hstart : format (formatText token) [code]
        = (format (exitToken token ++ "%s\\n".toList) [code]).map fun r => ('\n' :: r.1, r.2) := rfl
    rw [hstart, format_append htoken, hend]
    rfl
  rw [formatAll, hformat]
  rfl

/-- **The submitted line** evaluates the text of the command, whatever its characters, then keeps the status,
sets the prompt and prints the marker. -/
theorem run_submittedLine (s : State σ) : run sh (submittedLine prompt command token status) s
    = (sh.eval command.text s).map (afterCommand prompt token status) := by
  obtain ⟨quoted, quoted', hparse⟩ := parse_submittedLine prompt command token status
  have heval : ∀ s : State σ, execSimple sh ⟨[], [literal false "eval".toList, literal quoted command.text]⟩ s
      = sh.eval command.text s := by
    intro s
    have hexec := execSimple_literal sh s (false, "eval".toList) [(quoted, command.text)]
    rw [List.map_cons, List.map_cons, List.map_nil] at hexec
    rw [hexec]
    change sh.eval ([' '].intercalate [command.text]) s = _
    rw [List.intercalate_singleton]
  have hstatus : ∀ s : State σ, execSimple sh ⟨[(statusName status, [.status false])], []⟩ s
      = some ((s.assign (statusName status) (Nat.toDigits 10 s.status)).withStatus 0) := by
    intro s
    have hvalue : value s [.status false] = Nat.toDigits 10 s.status := List.append_nil _
    rw [← hvalue]
    rfl
  have hset : ∀ s : State σ, execSimple sh ⟨[(promptName, literal quoted' prompt)], []⟩ s
      = some ((s.assign promptName prompt).withStatus 0) := by
    intro s
    have hexec : execSimple sh ⟨[(promptName, literal quoted' prompt)], []⟩ s
        = some ((s.assign promptName (value s (literal quoted' prompt))).withStatus 0) := rfl
    rw [hexec, value_literal]
  have hprint : ∀ s : State σ, execSimple sh ⟨[], [literal false "printf".toList,
      literal true (formatText token), [.variable (statusName status) true]]⟩ s
      = some ((s.write (Utf8.encode ('\n' :: (exitToken token
        ++ (s.vars (statusName status) ++ ['\n']))))).withStatus 0) := by
    intro s
    have hfields : [literal false "printf".toList, literal true (formatText token),
        [.variable (statusName status) true]].mapM (field s)
        = some ["printf".toList, formatText token, s.vars (statusName status)] := by
      have hvariable : field s [.variable (statusName status) true] = some (s.vars (statusName status)) :=
        congrArg some (List.append_nil _)
      simp only [List.mapM_cons, List.mapM_nil, field_literal, hvariable]
      rfl
    rw [execSimple, if_neg (List.cons_ne_nil _ _), hfields, Option.bind_some]
    change printf [formatText token, s.vars (statusName status)] s = _
    rw [printf, List.length_singleton, formatAll_marker]
    rfl
  rw [run, hparse, Option.bind_some, submittedScript, exec_cons, execAndOr_single, heval]
  cases sh.eval command.text s with
  | none => rfl
  | some s' =>
    have hvars : ((((s'.assign (statusName status) (Nat.toDigits 10 s'.status)).withStatus 0).assign promptName
        prompt).withStatus 0).vars (statusName status) = Nat.toDigits 10 s'.status := by
      simp only [State.assign, State.withStatus]
      rw [Function.update_of_ne (statusName_ne_promptName status), Function.update_self]
    rw [Option.bind_some, exec_cons, execAndOr_single, hstatus, Option.bind_some, exec_cons, execAndOr_single, hset,
      Option.bind_some, exec_cons, execAndOr_single, hprint, hvars]
    rfl

end Line

/-! ## The console -/

/-- What the terminal makes of what a command writes. -/
def LineEnd.cook : LineEnd → Bytes → Bytes
  | .crlf, bs => bs.flatMap fun b => if b = 10 then [13, 10] else [b]
  | .lf, bs => bs

theorem LineEnd.cook_append (lineEnd : LineEnd) (as bs : Bytes) :
    lineEnd.cook (as ++ bs) = lineEnd.cook as ++ lineEnd.cook bs := by
  cases lineEnd with
  | crlf => exact List.flatMap_append
  | lf => rfl

/-- Bytes without a line end are written as they are. -/
theorem LineEnd.cook_of_not_mem (lineEnd : LineEnd) {bs : Bytes} (h : 10 ∉ bs) : lineEnd.cook bs = bs := by
  cases lineEnd with
  | crlf =>
    induction bs with
    | nil => rfl
    | cons b bs ih =>
      have hb : b ≠ 10 := fun heq => h (heq ▸ List.mem_cons_self)
      have hrest := ih fun hmem => h (List.mem_cons_of_mem _ hmem)
      rw [cook] at hrest ⊢
      rw [List.flatMap_cons, if_neg hb, hrest, List.singleton_append]
  | lf => rfl

/-- A shell behind a terminal. -/
structure Console (σ : Type) where
  shell : Utilities σ
  echo : Bool
  lineEnd : LineEnd

section Session

variable {σ : Type}

/-- The console reads a line, carries it out and shows its prompt. -/
def Console.answer (console : Console σ) (line : Text) (s : State σ) : Option (Bytes × State σ) :=
  (run console.shell line s.atLine).map fun s' =>
    (echoBytes console.echo line ++ console.lineEnd.cook s'.output
      ++ Utf8.encode (console.shell.prompt s' (s'.vars promptName)), s')

/-- A prompt that the shell shows as it is, and whose last character is no replacement. -/
structure Shown (prompt : Text) : Prop where
  plain : ∀ c ∈ prompt, c ∉ ['$', '`', '\\', '!']
  complete : Utf8.replacement ∉ prompt

/-- **What the console writes for a submitted line** is the raw reply to the command. -/
theorem Console.answer_submittedLine {console : Console σ} {prompt : Text} (hshown : Shown prompt)
    (command : UnixCommand) (token status : Hex) (s : State σ) :
    console.answer (submittedLine prompt command token status) s
      = (console.shell.eval command.text s.atLine).map fun s' =>
        (rawReply console.echo console.lineEnd prompt command token status (console.lineEnd.cook s'.output) s'.status,
          afterCommand prompt token status s') := by
  rw [answer, run_submittedLine, Option.map_map]
  refine congrArg (Option.map · _) (funext fun s' => Prod.ext ?_ rfl)
  have hprompt : (afterCommand prompt token status s').vars promptName = prompt := by
    simp only [afterCommand, State.assign, State.write, State.withStatus]
    rw [Function.update_self]
  have hstr : str (s'.status : ℤ) = Nat.toDigits 10 s'.status := by
    rw [str, if_neg (by omega), Int.natAbs_natCast]
  have hmarker : console.lineEnd.cook (Utf8.encode (markerText token s'.status))
      = console.lineEnd.bytes ++ Utf8.encode (exitToken token ++ str s'.status) ++ console.lineEnd.bytes := by
    have hbytes : Utf8.encode (markerText token s'.status)
        = 10 :: (Utf8.encode (exitToken token ++ str s'.status) ++ [10]) := by
      rw [markerText, Utf8.encode_cons, ← List.append_assoc, Utf8.encode_append, hstr]
      rfl
    have hline : 10 ∉ Utf8.encode (exitToken token ++ str s'.status) := by
      apply lf_not_mem_encode
      rw [List.mem_append, not_or]
      exact ⟨(singleLine_exitToken token).2, lf_not_mem_str _⟩
    have hend : console.lineEnd.cook [10] = console.lineEnd.bytes := by
      cases console.lineEnd <;> rfl
    rw [hbytes, ← List.singleton_append, LineEnd.cook_append, LineEnd.cook_append, hend,
      LineEnd.cook_of_not_mem _ hline, List.append_assoc]
  have houtput : (afterCommand prompt token status s').output
      = s'.output ++ Utf8.encode (markerText token s'.status) := rfl
  simp only [Function.comp_apply]
  rw [hprompt, console.shell.prompt_plain _ _ hshown.plain, houtput, LineEnd.cook_append, hmarker, rawReply]
  simp only [List.append_assoc]

/-! ## Sessions -/

/-- How a reply arrives: in any chunks, with any pauses, all of it before the deadline. -/
structure Arrival where
  polls : Bytes → List Poll
  received_polls : ∀ bytes, received (polls bytes) = bytes
  open_polls : ∀ bytes, Open (polls bytes)

/-- One call of `execute`, with the identifiers it draws. -/
structure Request where
  command : UnixCommand
  token : Hex
  status : Hex
  arrival : Arrival

/-- A session, the shell behind it and what the calls gave. -/
structure Conversation (σ : Type) where
  shell : State σ
  channel : Channel
  results : List (Except Failure CommandResult)

/-- The channel before a call whose read loop will find these polls. -/
def Channel.expecting (ch : Channel) (polls : List Poll) : Channel := { ch with reads := [polls] }

/-- One call: the console answers the submitted line, and the session reads the answer. -/
def converse (console : Console σ) (config : ConsoleSessionConfig) (c : Conversation σ) (request : Request) :
    Option (Conversation σ) :=
  (console.answer (submittedLine config.prompt request.command request.token request.status) c.shell).map
    fun answer =>
      let result := Session.exec (execute config request.command request.token request.status)
        (c.channel.expecting (request.arrival.polls answer.1))
      { shell := answer.2, channel := result.2, results := c.results ++ [result.1] }

/-- The abstract evaluator: a shell and the results so far. -/
structure Evaluator (σ : Type) where
  shell : State σ
  results : List CommandResult

/-- The text of an output: line ends are LF, and those at the start are left out. -/
def shownText (lineEnd : LineEnd) (output : Bytes) : Text :=
  lstripNewlines (normalizedText (ownOutput lineEnd (lineEnd.cook output)))

/-- One evaluation: the text of the command and nothing else, with its output and its status. -/
def evaluate (console : Console σ) (prompt : Text) (e : Evaluator σ) (request : Request) :
    Option (Evaluator σ) :=
  (console.shell.eval request.command.text e.shell.atLine).map fun s =>
    { shell := afterCommand prompt request.token request.status s
      results := e.results ++ [⟨shownText console.lineEnd s.output, [], s.status⟩] }

/-- The command is one line, and neither it nor its output holds the new token. -/
structure Apart (console : Console σ) (e : Evaluator σ) (request : Request) : Prop where
  line : SingleLine request.command.text
  fresh : ¬(exitToken request.token <:+: request.command.text)
  output : ∀ s, console.shell.eval request.command.text e.shell.atLine = some s →
    ¬(Utf8.encode (exitToken request.token) <:+: console.lineEnd.cook s.output)

/-- Nothing but pauses is left unread. -/
structure Idle (ch : Channel) : Prop where
  isOpen : ch.closed = false
  unread_open : Open ch.unread
  unread_empty : received ch.unread = []

/-- The session and the evaluator agree. -/
structure Agrees (first : List Bytes) (config : ConsoleSessionConfig) (requests : List Request)
    (c : Conversation σ) (e : Evaluator σ) : Prop where
  shell : c.shell = e.shell
  results : c.results = e.results.map .ok
  idle : Idle c.channel
  sent : c.channel.sent = first ++ requests.map fun request =>
    Utf8.encode (submittedLine config.prompt request.command request.token request.status ++ ['\r'])

/-! ## One call -/

/-- What `execute` leaves of the channel. -/
theorem exec_execute_channel {config : ConsoleSessionConfig} {command : UnixCommand} {token status : Hex}
    {ch : Channel} (hclosed : ch.closed = false) :
    (Session.exec (execute config command token status) ch).2
      = { ch with
          sent := ch.sent ++ [Utf8.encode (submittedLine config.prompt command token status ++ ['\r'])]
          reads := ch.reads.tail
          unread := (readCommandResponse config.prompt (exitToken token) (ch.unread ++ ch.reads.headD [])).2 } := by
  obtain ⟨closed, sent, reads, unread⟩ := ch
  cases hclosed
  have hget : Session.exec get ⟨false, sent, reads, unread⟩ = (.ok ⟨false, sent, reads, unread⟩, _) := rfl
  unfold execute
  rw [Session.exec_bind, hget]
  simp only [Bool.false_eq_true, if_false]
  change (Session.exec (sendall _ >>= _) _).2 = _
  rw [Session.exec_bind, exec_sendall]
  dsimp only
  rw [Session.exec_bind, exec_reading]
  dsimp only
  cases (readCommandResponse config.prompt (exitToken token) (unread ++ reads.headD [])).1 <;> rfl

/-- **The whole of a text with the marker is read.** -/
theorem readCommandResponse_whole {prompt token before : Text} {code : ℤ} {polls : List Poll}
    (htoken : '\n' ∉ token) (hprompt : '\n' ∉ prompt) (hne : prompt ≠ []) (hrepl : Utf8.replacement ∉ prompt)
    (hbefore : ¬('\n' :: token <:+: before)) (hlast : (received polls).getLast? ≠ some 10)
    (htext : normalizedText (received polls) = before ++ '\n' :: (token ++ (str code ++ '\n' :: prompt)))
    (hcode : code.natAbs < 10 ^ maxStrDigits) (hopen : Open polls) :
    ∃ rest, readCommandResponse prompt token polls = (.ok (before, code), rest) ∧ Open rest ∧
      received rest = [] := by
  have honly : ∀ p, p <+: received polls → p ≠ received polls → examineResponse prompt token p = none := by
    intro p hp hproper
    unfold examineResponse
    split
    · rfl
    rename_i m hm
    split_ifs with htail
    · exfalso
      obtain ⟨hb, hg, ⟨hpre, hstart⟩ | ⟨t, ht⟩⟩ := searchMarker_of_text htoken hprompt hbefore htext hp hm
      · -- the tail is the prompt, so the whole text has been read
        have heq : m.tail = prompt := hpre.eq_of_length (le_antisymm hpre.length_le htail.length_le)
        apply hproper
        apply eq_of_normalizedText_eq hp hstart _ hlast
        rw [(searchMarker_eq_some hm).2, hb, hg, heq, htext]
      · obtain ⟨s, c, rfl⟩ := (List.eq_nil_or_concat prompt).resolve_left hne
        obtain ⟨u, hu⟩ := htail
        rw [ht, List.concat_eq_append, ← List.append_assoc] at hu
        apply hrepl
        rw [← (List.cons.inj (List.append_inj' hu rfl).2).1]
        simp
    · rfl
  have hnonempty : [] ≠ received polls := by
    intro hnil
    rw [← hnil, show normalizedText [] = [] from rfl] at htext
    simp at htext
  obtain ⟨rest, hloop, hrest⟩ := readLoop_whole hopen (List.nil_append _) hnonempty
    (examineResponse_of_text htoken hprompt hbefore htext hcode) honly
  obtain ⟨read, hpolls, -, -⟩ := readLoop_returned hloop
  refine ⟨rest, by rw [readCommandResponse, hloop], fun hclosed => hopen ?_, hrest⟩
  rw [hpolls]
  exact List.mem_append_right _ hclosed

theorem getLast?_rawReply {echo : Bool} {lineEnd : LineEnd} {prompt : Text} {command : UnixCommand}
    {token status : Hex} {output : Bytes} {code : ℤ} (hne : prompt ≠ []) (hlf : '\n' ∉ prompt) :
    (rawReply echo lineEnd prompt command token status output code).getLast? ≠ some 10 := by
  intro h
  have hencode : Utf8.encode prompt ≠ [] := fun hnil =>
    hne (by rw [← Utf8.decode_encode prompt, hnil, Utf8.decode_nil])
  rw [rawReply, List.getLast?_append_of_ne_nil _ hencode] at h
  exact lf_not_mem_encode hlf (List.mem_of_getLast? h)

/-- The echo of a line without CR goes, and the newlines before and after it. -/
theorem removeEcho_shown {echo : Bool} {lineEnd : LineEnd} {prompt : Text} {command : UnixCommand}
    {token status : Hex} {output : Bytes} (hprompt : SingleLine prompt) (hcommand : SingleLine command.text)
    (houtput : ¬(Utf8.encode (exitToken token) <:+: lineEnd.cook output)) :
    removeEcho (echoText echo (submittedLine prompt command token status)
        ++ normalizedText (ownOutput lineEnd (lineEnd.cook output))) (submittedLine prompt command token status)
      = shownText lineEnd output := by
  rw [removeEcho_rawReply hprompt (not_infix_ownOutput houtput), if_neg fun h => hcommand.1 h.2]
  rfl

/-- **One call of the session** is one evaluation. -/
theorem converse_agrees {console : Console σ} {inventory : ConsoleSessionInventoryConfig}
    {username password : Option Text} (hshown : Shown inventory.prompt.text) {first : List Bytes}
    {requests : List Request} {c : Conversation σ} {e e' : Evaluator σ} {request : Request}
    (h : Agrees first (inventory.resolve username password) requests c e) (hapart : Apart console e request)
    (hstep : evaluate console inventory.prompt.text e request = some e') :
    ∃ c', converse console (inventory.resolve username password) c request = some c' ∧
      Agrees first (inventory.resolve username password) (requests ++ [request]) c' e' := by
  obtain ⟨s, heval, rfl⟩ := Option.map_eq_some_iff.mp hstep
  obtain ⟨command, token, status, arrival⟩ := request
  have hprompt := inventory.prompt.singleLine
  have houtput : ¬(Utf8.encode (exitToken token) <:+: console.lineEnd.cook s.output) := hapart.output s heval
  -- the reply stands alone in the channel, so the call reads all of it
  obtain ⟨reply, hreply⟩ : ∃ reply, reply = rawReply console.echo console.lineEnd inventory.prompt.text command
    token status (console.lineEnd.cook s.output) s.status := ⟨_, rfl⟩
  have hanswer : console.answer (submittedLine inventory.prompt.text command token status) c.shell
      = some (reply, afterCommand inventory.prompt.text token status s) := by
    rw [Console.answer_submittedLine hshown, h.shell, heval, hreply]
    rfl
  have hreceived : received (c.channel.unread ++ arrival.polls reply) = reply := by
    rw [received_append, h.idle.unread_empty, arrival.received_polls, List.nil_append]
  have hopen : Open (c.channel.unread ++ arrival.polls reply) := by
    intro hmem
    rcases List.mem_append.mp hmem with hmem | hmem
    · exact h.idle.unread_open hmem
    · exact arrival.open_polls reply hmem
  have htext : normalizedText (received (c.channel.unread ++ arrival.polls reply))
      = (echoText console.echo (submittedLine inventory.prompt.text command token status)
          ++ normalizedText (ownOutput console.lineEnd (console.lineEnd.cook s.output)))
        ++ '\n' :: (exitToken token ++ (str s.status ++ '\n' :: inventory.prompt.text)) := by
    rw [hreceived, hreply, normalizedText_rawReply hprompt]
  have hlast : (received (c.channel.unread ++ arrival.polls reply)).getLast? ≠ some 10 := by
    rw [hreceived, hreply]
    exact getLast?_rawReply inventory.prompt.nonempty hprompt.2
  have hcode : (s.status : ℤ).natAbs < 10 ^ maxStrDigits := by
    rw [Int.natAbs_natCast]
    calc s.status < 10 ^ 3 := (console.shell.eval_status _ _ _ heval).trans (by decide)
      _ ≤ 10 ^ maxStrDigits := Nat.pow_le_pow_right (by decide) (by decide)
  obtain ⟨rest, hread, hrestOpen, hrest⟩ := readCommandResponse_whole (singleLine_exitToken token).2 hprompt.2
    inventory.prompt.nonempty hshown.complete (not_infix_before hprompt hapart.fresh (not_infix_ownOutput houtput))
    hlast htext hcode hopen
  have hclosed : (c.channel.expecting (arrival.polls reply)).closed = false := h.idle.isOpen
  have hshow : removeEcho (echoText console.echo (submittedLine inventory.prompt.text command token status)
        ++ normalizedText (ownOutput console.lineEnd (console.lineEnd.cook s.output)))
        (submittedLine inventory.prompt.text command token status) = shownText console.lineEnd s.output :=
    removeEcho_shown hprompt hapart.line houtput
  have hresult : (Session.exec (execute (inventory.resolve username password) command token status)
      (c.channel.expecting (arrival.polls reply))).1 = .ok ⟨shownText console.lineEnd s.output, [], s.status⟩ :=
    (exec_execute_ok hclosed (congrArg Prod.fst hread)).trans
      (congrArg (fun t => Except.ok (CommandResult.mk t [] s.status)) hshow)
  have hchannel : (Session.exec (execute (inventory.resolve username password) command token status)
      (c.channel.expecting (arrival.polls reply))).2 = _ := exec_execute_channel hclosed
  have hunread : (readCommandResponse inventory.prompt.text (exitToken token)
      (c.channel.unread ++ arrival.polls reply)).2 = rest := congrArg Prod.snd hread
  refine ⟨⟨_, _, _⟩, congrArg (Option.map _) hanswer, rfl, ?_, ⟨?_, ?_, ?_⟩, ?_⟩
  · change c.results ++ [(Session.exec (execute (inventory.resolve username password) command token status)
      (c.channel.expecting (arrival.polls reply))).1] = _
    rw [hresult, h.results, List.map_append]
    rfl
  · exact (congrArg Channel.closed hchannel).trans h.idle.isOpen
  · have hleft := (congrArg Channel.unread hchannel).trans hunread
    exact hleft ▸ hrestOpen
  · have hleft := (congrArg Channel.unread hchannel).trans hunread
    exact hleft ▸ hrest
  · refine (congrArg Channel.sent hchannel).trans ?_
    change c.channel.sent ++ _ = _
    rw [h.sent, List.map_append, List.append_assoc]
    rfl

theorem converse_run {console : Console σ} {inventory : ConsoleSessionInventoryConfig}
    {username password : Option Text} (hshown : Shown inventory.prompt.text) {first : List Bytes}
    {requests done : List Request} {c : Conversation σ} {e e' : Evaluator σ}
    (h : Agrees first (inventory.resolve username password) done c e)
    (hapart : Transition.Meets (evaluate console inventory.prompt.text) (Apart console) e requests)
    (hrun : Transition.run (evaluate console inventory.prompt.text) e requests = some e') :
    ∃ c', Transition.run (converse console (inventory.resolve username password)) c requests = some c' ∧
      Agrees first (inventory.resolve username password) (done ++ requests) c' e' := by
  induction requests generalizing c e done with
  | nil =>
    cases hrun
    exact ⟨c, rfl, by rwa [List.append_nil]⟩
  | cons request requests ih =>
    obtain ⟨e₁, hfirst, hrest⟩ := Transition.run_cons hrun
    obtain ⟨c₁, hstep, hagrees⟩ := converse_agrees hshown h hapart.1 hfirst
    obtain ⟨c', hlast, hend⟩ := ih hagrees (hapart.2 e₁ hfirst) hrest
    refine ⟨c', ?_, ?_⟩
    · rw [Transition.run, hstep, Option.bind_some, hlast]
    · rwa [List.append_assoc, List.singleton_append] at hend

/-- Output without CR is shown as it is, without the newlines at its start. -/
theorem shownText_of_not_mem {lineEnd : LineEnd} {output : Bytes} (h : 13 ∉ output) :
    shownText lineEnd output = lstripNewlines (Utf8.decode output) := by
  have hcook : Newline.unify (LineEnd.crlf.cook output) = output := by
    induction output with
    | nil => rfl
    | cons b output ih =>
      have hrest := ih fun hmem => h (List.mem_cons_of_mem _ hmem)
      have hcr : b ≠ 13 := fun heq => h (heq ▸ List.mem_cons_self)
      rw [LineEnd.cook] at hrest ⊢
      rw [List.flatMap_cons]
      split_ifs with hlf
      · rw [List.cons_append, List.singleton_append, Newline.unify_cr_lf, hrest, hlf]
      · rw [List.singleton_append, Newline.unify_cons_of_ne hcr, hrest]
  cases lineEnd with
  | crlf => rw [shownText, ownOutput, if_neg fun h => absurd h.1 (by decide), normalizedText, hcook]
  | lf =>
    have hlast : output.getLast? ≠ some 13 := fun hlast => h (List.mem_of_getLast? hlast)
    rw [shownText, LineEnd.cook, ownOutput, if_neg fun h => hlast h.2, normalizedText, Newline.unify_of_not_mem h]

/-! ## Two commands -/

/-- A shell whose commands print their text and fail. -/
def echoingShell : Utilities Unit where
  eval t s := some ((s.write (Utf8.encode (t ++ ['\n']))).withStatus 3)
  eval_status t s s' h := by
    cases h
    exact (by decide : 3 < 256)
  utility _ _ _ _ := none
  prompt _ t := t
  prompt_plain _ _ _ := rfl

def echoingConsole : Console Unit := ⟨echoingShell, true, .crlf⟩

/-- A reply in two chunks with a pause between them. -/
def inHalves : Arrival where
  polls bytes := [.chunk (bytes.take 50), .idle, .chunk (bytes.drop 50)]
  received_polls bytes := by simp [Poll.bytes]
  open_polls bytes := by simp [Open]

def sampleRequests : List Request :=
  [⟨⟨"echo it's".toList, false, false⟩, sampleHex 'a' a_mem_digits, sampleHex 'b' b_mem_digits, inHalves⟩,
    ⟨⟨"ls \"$HOME\"".toList, true, true⟩, sampleHex 'b' b_mem_digits, sampleHex 'a' a_mem_digits, inHalves⟩]

def sampleConversation : Conversation Unit := ⟨⟨fun _ => [], 0, [], ()⟩, ⟨false, [], [], []⟩, []⟩

end Session

end HardwareTest.Transport
