import HardwareTest.Transport.Framing

/-!
# The reply to the preparation of a console

To set the prompt, `prepare` sends a line that contains the new prompt, and waits for a buffer that
ends with it.  The console answers with the echo of the line and then the prompt.  A buffer that ends
inside the echo can end with the prompt as well, and `prepare` then returns with the rest of the reply
unread.

* `endsWith_prompt_iff` — the proper parts of the reply that end with the prompt: parts of the echo,
  and, for a prompt that ends with U+FFFD, the reply without its last byte or its last two;
* `prepare_reads_reply_iff` — `prepare` reads the whole reply exactly when no chunk ends there.
-/

namespace HardwareTest.Transport

open HardwareTest.Lib HardwareTest.Python

/-- The reply of the console to the line that sets the prompt. -/
def exportReply (prompt : Text) : Bytes :=
  Utf8.encode (exportLine prompt) ++ 13 :: 10 :: Utf8.encode prompt

theorem singleLine_exportLine {prompt : Text} (h : SingleLine prompt) : SingleLine (exportLine prompt) :=
  SingleLine.append (by decide) h.quote

/-- A prefix of the reply ends in the echo, in the line end, or in the prompt. -/
theorem isPrefix_exportReply {prompt : Text} {p : Bytes} (hp : p <+: exportReply prompt) :
    p <+: Utf8.encode (exportLine prompt) ∨
      (p = Utf8.encode (exportLine prompt) ++ [13]) ∨
      ∃ q, q <+: Utf8.encode prompt ∧ p = Utf8.encode (exportLine prompt) ++ 13 :: 10 :: q := by
  rcases List.prefix_or_prefix_of_prefix hp (List.prefix_append (Utf8.encode (exportLine prompt)) _)
    with h | ⟨r, rfl⟩
  · exact .inl h
  · have hr := (List.prefix_append_right_inj _).mp hp
    rcases List.prefix_cons_iff.mp hr with rfl | ⟨t, rfl, ht⟩
    · exact .inl (by simp)
    · rcases List.prefix_cons_iff.mp ht with rfl | ⟨q, rfl, hq⟩
      · exact .inr (.inl rfl)
      · exact .inr (.inr ⟨q, hq, rfl⟩)

/-- A line that ends with the prompt after an LF ends with it after that LF. -/
theorem suffix_of_suffix_append_lf {prompt u v : Text} (hlf : '\n' ∉ prompt)
    (h : prompt <:+ u ++ '\n' :: v) : prompt <:+ v := by
  rcases List.suffix_or_suffix_of_suffix h ((List.suffix_cons '\n' v).trans (List.suffix_append u _))
    with h | h
  · exact h
  · have hsuffix : '\n' :: v <:+ u ++ '\n' :: v := List.suffix_append u _
    rcases List.suffix_or_suffix_of_suffix ‹prompt <:+ u ++ '\n' :: v› hsuffix with h' | h'
    · rcases List.suffix_cons_iff.mp h' with rfl | h'
      · exact absurd List.mem_cons_self hlf
      · exact h'
    · exact absurd (h'.subset List.mem_cons_self) hlf

/-- **A part of an encoded text ends with the text** only when it is all of it, or when the text ends
with U+FFFD and the last byte or the last two are missing. -/
theorem suffix_decode_part_iff {s : Text} {q : Bytes} (hq : q <+: Utf8.encode s)
    (hproper : q ≠ Utf8.encode s) (hne : s ≠ []) :
    s <:+ Utf8.decode q ↔ s.getLast? = some Utf8.replacement ∧
      (q.length + 1 = (Utf8.encode s).length ∨ q.length + 2 = (Utf8.encode s).length) := by
  have hsize : Utf8.replacement.utf8Size = 3 := by decide
  have hencode : ∀ t : Text, (Utf8.encode (t ++ [Utf8.replacement])).length
      = (Utf8.encode t).length + 3 := by
    intro t
    rw [Utf8.encode_append, List.length_append]
    simp [Utf8.encode, hsize]
  have hmono : ∀ t u : Text, t <+: u → (Utf8.encode t).length ≤ (Utf8.encode u).length := by
    rintro t u ⟨w, rfl⟩
    rw [Utf8.encode_append, List.length_append]
    omega
  rcases Utf8.feed_of_prefix_encode s q hq with ⟨t, ht, rfl⟩ | ⟨t, c, r, n, l, h, a, rfl, hfeed, hlo, hhi⟩
  · -- cut between characters
    have hts : t ≠ s := fun heq => hproper (by rw [heq])
    rw [Utf8.decode_encode]
    constructor
    · intro hsuffix
      exact absurd (ht.eq_of_length (le_antisymm ht.length_le hsuffix.length_le)) hts
    · rintro ⟨hlast, hlen⟩
      exfalso
      obtain ⟨u, rfl⟩ := List.getLast?_eq_some_iff.mp hlast
      rcases List.prefix_concat_iff.mp ht with rfl | htu
      · exact hts rfl
      · have := hmono t u htu
        rw [hencode] at hlen
        omega
  · -- cut inside the character `c`
    have hdecode : Utf8.decode q = t ++ [Utf8.replacement] := by
      rw [Utf8.decode_eq, hfeed]
      rfl
    rw [hdecode]
    constructor
    · intro hsuffix
      have hlen := hsuffix.length_le
      simp only [List.length_append, List.length_cons, List.length_nil] at hlen
      have hr : r = [] := List.length_eq_zero_iff.mp (by omega)
      subst hr
      have heq : t ++ [c] = t ++ [Utf8.replacement] := hsuffix.eq_of_length (by simp)
      have hc : c = Utf8.replacement := by simpa using heq
      subst hc
      refine ⟨by simp, ?_⟩
      rw [hencode]
      rw [hsize] at hhi
      omega
    · rintro ⟨hlast, hlen⟩
      obtain ⟨u, hu⟩ := List.getLast?_eq_some_iff.mp hlast
      have hlen' := hencode u
      rw [← hu] at hlen'
      rcases List.eq_nil_or_concat r with rfl | ⟨r, d, rfl⟩
      · have hsplit := List.append_inj' hu rfl
        rw [hsplit.1, (List.cons.inj hsplit.2).1]
      · -- the characters up to `c` stand before the last one
        have hpre : t ++ [c] <+: u := by
          have heq : (t ++ c :: r) ++ [d] = u ++ [Utf8.replacement] := by
            rw [← hu]
            simp
          rw [← (List.append_inj' heq rfl).1]
          exact ⟨r, by simp⟩
        have hle := hmono _ _ hpre
        rw [Utf8.encode_append, List.length_append] at hle
        have hc : (Utf8.encode [c]).length = c.utf8Size := by simp [Utf8.encode]
        omega

/-- **The parts of the reply that end with the prompt.** -/
theorem endsWith_prompt_iff {marker : ConsoleMarker} {p : Bytes} (hp : p <+: exportReply marker.text)
    (hproper : p ≠ exportReply marker.text) :
    marker.text <:+ normalizedText p ↔
      (p <+: Utf8.encode (exportLine marker.text) ∧ marker.text <:+ Utf8.decode p) ∨
        (marker.text.getLast? = some Utf8.replacement ∧
          (p.length + 1 = (exportReply marker.text).length ∨
            p.length + 2 = (exportReply marker.text).length)) := by
  have hline := singleLine_exportLine marker.singleLine
  have hcr := cr_not_mem_encode hline.1
  have hpos : 0 < (Utf8.encode marker.text).length := by
    rw [List.length_pos_iff]
    intro hnil
    exact marker.nonempty (by rw [← Utf8.decode_encode marker.text, hnil, Utf8.decode_nil])
  have hlen : (exportReply marker.text).length
      = (Utf8.encode (exportLine marker.text)).length + 2 + (Utf8.encode marker.text).length := by
    simp only [exportReply, List.length_append, List.length_cons]
    omega
  rcases isPrefix_exportReply hp with hecho | rfl | ⟨q, hq, rfl⟩
  · have htext : normalizedText p = Utf8.decode p := by
      rw [normalizedText, Newline.unify_of_not_mem fun hmem => hcr (hecho.subset hmem)]
    rw [htext]
    have := hecho.length_le
    constructor
    · exact fun h => .inl ⟨hecho, h⟩
    · rintro (⟨-, h⟩ | ⟨-, h⟩)
      · exact h
      · omega
  · have htext : normalizedText (Utf8.encode (exportLine marker.text) ++ [13])
        = exportLine marker.text ++ ['\n'] := by
      rw [normalizedText_encode_append hline.1]
      rfl
    rw [htext]
    constructor
    · intro h
      have hnil := List.suffix_nil.mp (suffix_of_suffix_append_lf marker.singleLine.2 h)
      exact absurd hnil marker.nonempty
    · rintro (⟨h, -⟩ | ⟨hlast, h⟩)
      · have := h.length_le
        simp at this
      · -- the last character of the prompt has three bytes
        have hthree : 3 ≤ (Utf8.encode marker.text).length := by
          obtain ⟨u, hu⟩ := List.getLast?_eq_some_iff.mp hlast
          rw [hu, Utf8.encode_append, List.length_append]
          have : (Utf8.encode [Utf8.replacement]).length = 3 := by decide
          omega
        simp only [List.length_append, List.length_cons, List.length_nil] at h
        omega
  · have htext : normalizedText (Utf8.encode (exportLine marker.text) ++ 13 :: 10 :: q)
        = exportLine marker.text ++ '\n' :: Utf8.decode q := by
      have hq13 : 13 ∉ q := fun hmem => cr_not_mem_encode marker.singleLine.1 (hq.subset hmem)
      rw [normalizedText_append_crlf, normalizedText_encode hline.1, normalizedText,
        Newline.unify_of_not_mem hq13]
    have hq' : q ≠ Utf8.encode marker.text := fun heq => hproper (by rw [heq]; rfl)
    have hiff := suffix_decode_part_iff hq hq' marker.nonempty
    have hsuffix : marker.text <:+ exportLine marker.text ++ '\n' :: Utf8.decode q ↔
        marker.text <:+ Utf8.decode q :=
      ⟨suffix_of_suffix_append_lf marker.singleLine.2,
        fun h => h.trans ((List.suffix_cons _ _).trans (List.suffix_append _ _))⟩
    have hlonger : ¬(Utf8.encode (exportLine marker.text) ++ 13 :: 10 :: q
        <+: Utf8.encode (exportLine marker.text)) := by
      intro h
      have := h.length_le
      simp at this
    rw [htext, hsuffix, hiff, hlen]
    simp only [hlonger, false_and, false_or, List.length_append, List.length_cons]
    constructor <;> rintro ⟨hlast, h⟩ <;> exact ⟨hlast, by omega⟩

/-! ## What `prepare` leaves unread -/

/-- A chunk that ends at `p` makes `prepare` return too early. -/
def EndsEarly (prompt : Text) (p : Bytes) : Prop :=
  (p <+: Utf8.encode (exportLine prompt) ∧ prompt <:+ Utf8.decode p) ∨
    (prompt.getLast? = some Utf8.replacement ∧
      (p.length + 1 = (exportReply prompt).length ∨ p.length + 2 = (exportReply prompt).length))

theorem exec_setPrompt {config : ConsoleSessionConfig} {ch : Channel} {polls : List Poll}
    (hpolls : ch.unread ++ ch.reads.headD [] = polls) :
    Session.exec (setPrompt config) ch
      = ((readUntilAny config.password [config.prompt] "shell prompt" false polls).1.map fun _ => (),
        { ch with
          sent := ch.sent ++ [Utf8.encode (exportLine config.prompt ++ ['\r'])]
          reads := ch.reads.tail
          unread := (readUntilAny config.password [config.prompt] "shell prompt" false polls).2 }) := by
  unfold setPrompt
  rw [Session.exec_bind, exec_sendall]
  dsimp only
  rw [Session.exec_bind, exec_reading]
  dsimp only
  rw [hpolls]
  cases (readUntilAny config.password [config.prompt] "shell prompt" false polls).1 <;> rfl

theorem readUntilAny_ok_iff {password : Option Text} {markers : List Text} {context : String}
    {redactPassword : Bool} {polls rest : List Poll} {marker : Text} :
    readUntilAny password markers context redactPassword polls = (.ok marker, rest) ↔
      readLoop (fun buffer => markers.find? fun marker => marker <:+ normalizedText buffer) [] polls
        = (.returned marker, rest) := by
  unfold readUntilAny
  split <;> rename_i heq <;> rw [heq] <;> simp

/-- `prepare` returns with nothing unread when the loop that waits for the prompt does. -/
theorem setPrompt_unread_iff {config : ConsoleSessionConfig} {ch : Channel} {polls : List Poll}
    (hpolls : ch.unread ++ ch.reads.headD [] = polls) :
    (∀ ch', Session.exec (setPrompt config) ch = (.ok (), ch') → received ch'.unread = []) ↔
      ∀ marker rest, readLoop (fun buffer =>
          [config.prompt].find? fun marker => marker <:+ normalizedText buffer) [] polls
        = (.returned marker, rest) → received rest = [] := by
  rw [exec_setPrompt hpolls]
  constructor
  · intro h marker rest hloop
    have hread : readUntilAny config.password [config.prompt] "shell prompt" false polls
        = (.ok marker, rest) := readUntilAny_ok_iff.mpr hloop
    rw [hread] at h
    exact h _ rfl
  · intro h ch' heq
    rcases hread : readUntilAny config.password [config.prompt] "shell prompt" false polls with ⟨r, rest⟩
    rw [hread] at heq
    cases r with
    | ok marker =>
      obtain ⟨-, rfl⟩ := Prod.mk.inj heq
      exact h marker rest (readUntilAny_ok_iff.mp hread)
    | error e => cases (Prod.mk.inj heq).1

/-- Whether the loop that waits for the prompt stops too early at `p`. -/
theorem endsEarly_iff {marker : ConsoleMarker} {p : Bytes} (hp : p <+: exportReply marker.text) :
    (p ≠ exportReply marker.text → ([marker.text].find? fun m => m <:+ normalizedText p) = none) ↔
      ¬EndsEarly marker.text p := by
  by_cases hproper : p = exportReply marker.text
  · subst hproper
    have hnot : ¬EndsEarly marker.text (exportReply marker.text) := by
      rintro (⟨hpre, -⟩ | ⟨-, h⟩)
      · have := hpre.length_le
        simp [exportReply] at this
      · omega
    exact ⟨fun _ => hnot, fun _ h => absurd rfl h⟩
  · rw [EndsEarly, ← endsWith_prompt_iff hp hproper]
    simp [hproper]

/-- **The whole reply is read exactly when no chunk ends too early.**  Whenever the login has left the
console at its initial prompt and the reply arrives before the deadline, `prepare` returns with
nothing unread if and only if no chunk ends in the echo where the echo so far ends with the prompt,
nor, for a prompt that ends with U+FFFD, one or two bytes before the end of the reply. -/
theorem prepare_reads_reply_iff {console : ConsoleSessionInventoryConfig}
    {username password : Option Text} {ch ch' : Channel} {polls : List Poll}
    (hstate : Session.exec (detectState (console.resolve username password)) ch
      = (.ok (some console.initialPromptSuffix.text), ch'))
    (hprompt : console.initialPromptSuffix.text ≠ console.prompt.text)
    (hpolls : ch'.unread ++ ch'.reads.headD [] = polls) (hopen : Open polls)
    (hreply : received polls = exportReply console.prompt.text) :
    (∀ ch'', Session.exec (prepare (console.resolve username password)) ch = (.ok (), ch'') →
        received ch''.unread = []) ↔
      ∀ p ∈ chunkEnds [] polls, ¬EndsEarly console.prompt.text p := by
  have hprepare : Session.exec (prepare (console.resolve username password)) ch
      = Session.exec (setPrompt (console.resolve username password)) ch' := by
    unfold prepare
    rw [Session.exec_bind, hstate]
    show Session.exec (if _ then _ else _) ch' = _
    have hne : console.initialPromptSuffix.text ≠ (console.resolve username password).prompt := hprompt
    rw [if_pos hne]
  rw [hprepare, setPrompt_unread_iff hpolls, readLoop_leaves_iff hopen hreply]
  have hpart : ∀ p ∈ chunkEnds [] polls, p <+: exportReply console.prompt.text := by
    intro p hp
    rw [← hreply]
    exact (isPrefix_of_mem_chunkEnds hp).2
  exact forall₂_congr fun p hp => endsEarly_iff (hpart p hp)

/-- The console of the documentation's examples. -/
def sampleConsole : ConsoleSessionInventoryConfig where
  prompt := ⟨"__HARDWARE_TEST_PROMPT__# ".toList, by decide, clean_of_all (by decide)⟩
  initialPromptSuffix := rootMarker
  loginPrompt := ⟨"login:".toList, by decide, clean_of_all (by decide)⟩
  passwordPrompt := ⟨"Password:".toList, by decide, clean_of_all (by decide)⟩

/-- A channel that shows an open shell, then these polls. -/
def sampleChannel (polls : List Poll) : Channel where
  closed := false
  sent := []
  reads := [[.chunk (Utf8.encode "root@board-dev:~# ".toList)], polls]
  unread := []

/-- Chunks that end after the echo's line end and with the reply. -/
theorem prepare_reads_reply_iff_sample :
    let reply := exportReply sampleConsole.prompt.text
    let polls : List Poll := [.chunk (reply.take 41), .idle, .chunk (reply.drop 41)]
    (∀ ch'', Session.exec (prepare (sampleConsole.resolve none none)) (sampleChannel polls)
        = (.ok (), ch'') → received ch''.unread = []) ↔
      ∀ p ∈ chunkEnds [] polls, ¬EndsEarly sampleConsole.prompt.text p := by
  intro reply polls
  have hreply : received polls = reply := by simp [polls, Poll.bytes]
  have hstate : Session.exec (detectState (sampleConsole.resolve none none)) (sampleChannel polls)
      = (.ok (some sampleConsole.initialPromptSuffix.text),
        (Session.exec (detectState (sampleConsole.resolve none none)) (sampleChannel polls)).2) := rfl
  exact prepare_reads_reply_iff hstate (by decide) rfl (by simp [Open, polls]) hreply

/-- **`prepare` can return in the middle of the echo.**  A chunk that ends before the closing quote of
the echoed prompt leaves the rest of the reply unread. -/
theorem prepare_returns_in_echo :
    ∃ (console : ConsoleSessionInventoryConfig) (ch ch' ch'' : Channel) (polls : List Poll),
      Session.exec (detectState (console.resolve none none)) ch
        = (.ok (some console.initialPromptSuffix.text), ch') ∧
      console.initialPromptSuffix.text ≠ console.prompt.text ∧
      ch'.unread ++ ch'.reads.headD [] = polls ∧ Open polls ∧
      received polls = exportReply console.prompt.text ∧
      Session.exec (prepare (console.resolve none none)) ch = (.ok (), ch'') ∧
      received ch''.unread = Utf8.encode "'\r\n__HARDWARE_TEST_PROMPT__# ".toList := by
  let reply := exportReply sampleConsole.prompt.text
  let polls : List Poll := [.chunk (reply.take 38), .chunk (reply.drop 38)]
  refine ⟨sampleConsole, sampleChannel polls, _, _, polls, rfl, by decide, rfl, ?_, ?_, rfl, ?_⟩
  · simp [Open, polls]
  · simp [polls, Poll.bytes, reply]
  · decide +kernel

end HardwareTest.Transport
