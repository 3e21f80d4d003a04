import HardwareTest.Transport.Console

/-!
# The framing of a command response

After the echo of the submitted line the console writes the output of the command, then a line with
the exit token and the status, then the prompt.  The reader looks for the marker line in everything
read so far, so the argument is about every prefix of the reply: its text is a prefix of the text of
the reply, up to one replacement character (`normalizedText_of_prefix`), and the text of the reply
holds the marker in one place only (`marker_unique`).

* `searchMarker_of_prefix` — in no prefix of the reply is anything else taken for the marker;
* `examineResponse_of_prefix` — no proper prefix of the reply is accepted;
* `examineResponse_reply` — the whole reply is accepted, with the output and the status.
-/

namespace HardwareTest.Transport

open HardwareTest.Lib HardwareTest.Python

/-! ## The text of a buffer -/

/-- A CRLF ends a line of the text. -/
theorem normalizedText_append_crlf (as bs : Bytes) :
    normalizedText (as ++ 13 :: 10 :: bs) = normalizedText as ++ '\n' :: normalizedText bs := by
  unfold normalizedText
  rw [Newline.unify_append_crlf]
  exact Utf8.decode_append_ascii _ _ 10 (by decide)

theorem cr_not_mem_encode {s : Text} (h : '\r' ∉ s) : 13 ∉ Utf8.encode s :=
  fun hmem => h (Utf8.mem_of_mem_encode (by decide) hmem)

theorem lf_not_mem_encode {s : Text} (h : '\n' ∉ s) : 10 ∉ Utf8.encode s :=
  fun hmem => h (Utf8.mem_of_mem_encode (by decide) hmem)

/-- Text without CR is read back as it was sent. -/
theorem normalizedText_encode {s : Text} (h : '\r' ∉ s) : normalizedText (Utf8.encode s) = s := by
  rw [normalizedText, Newline.unify_of_not_mem (cr_not_mem_encode h), Utf8.decode_encode]

/-- After text without CR the rest is read on its own. -/
theorem normalizedText_encode_append {s : Text} (h : '\r' ∉ s) (bs : Bytes) :
    normalizedText (Utf8.encode s ++ bs) = s ++ normalizedText bs := by
  unfold normalizedText
  have hstart : (Utf8.feed .start (Utf8.encode s)).2 = .start := by rw [Utf8.feed_encode]
  rw [Newline.unify_append_of_not_mem (cr_not_mem_encode h), Utf8.decode_append hstart,
    Utf8.decode_encode]

theorem normalizedText_lf_cons (bs : Bytes) : normalizedText (10 :: bs) = '\n' :: normalizedText bs := by
  unfold normalizedText
  rw [Newline.unify_cons_of_ne (by decide)]
  exact Utf8.decode_append_ascii [] _ 10 (by decide)

/-- **The text of a prefix** is a prefix of the text, up to one replacement character for a character
that the prefix leaves unfinished. -/
theorem normalizedText_of_prefix {p r : Bytes} (hp : p <+: r) :
    ∃ t x, normalizedText r = t ++ x ∧
      ((normalizedText p = t ∧ (Utf8.feed .start (Newline.unify p)).2 = .start) ∨
        normalizedText p = t ++ [Utf8.replacement]) := by
  obtain ⟨w, rfl⟩ := hp
  obtain ⟨u, hu⟩ := Newline.unify_isPrefix p w
  obtain ⟨x, hx⟩ := Utf8.emitted_isPrefix (Newline.unify p) u
  refine ⟨(Utf8.feed .start (Newline.unify p)).1,
    x ++ Utf8.flush (Utf8.feed .start (Newline.unify p ++ u)).2, ?_, ?_⟩
  · rw [normalizedText, ← hu, Utf8.decode_eq, ← hx, List.append_assoc]
  · rw [normalizedText, Utf8.decode_eq]
    cases hstate : (Utf8.feed .start (Newline.unify p)).2 with
    | start => exact .inl ⟨List.append_nil _, rfl⟩
    | inside => exact .inr rfl

/-- A prefix with the whole text is the whole input, unless the input ends with LF. -/
theorem eq_of_normalizedText_eq {p r : Bytes} (hp : p <+: r)
    (hstart : (Utf8.feed .start (Newline.unify p)).2 = .start)
    (h : normalizedText p = normalizedText r) (hlast : r.getLast? ≠ some 10) : p = r := by
  apply Newline.eq_of_unify_eq hp _ hlast
  obtain ⟨w, rfl⟩ := hp
  obtain ⟨u, hu⟩ := Newline.unify_isPrefix p w
  rw [normalizedText, normalizedText, ← hu, Utf8.decode_append hstart, List.self_eq_append_right] at h
  rw [← hu, Utf8.eq_nil_of_decode h, List.append_nil]

/-! ## Matching the marker -/

/-- A group holds no LF. -/
theorem lf_not_mem_group {sign s group tail : Text} (hsign : '\n' ∉ sign)
    (h : matchDigits sign s = some (group, tail)) :
    '\n' ∉ group ∧ ∃ ds, group = sign ++ ds ∧ s = ds ++ '\n' :: tail := by
  unfold matchDigits at h
  split at h
  · rename_i d ds tail' htake hdrop
    cases h
    refine ⟨?_, d :: ds, rfl, ?_⟩
    · intro hmem
      rcases List.mem_append.mp hmem with hmem | hmem
      · exact hsign hmem
      · have hdec : isDecimal '\n' = true := by
          rw [← htake] at hmem
          exact List.mem_takeWhile_imp hmem
        exact absurd hdec (by decide)
    · rw [← htake, ← hdrop, List.takeWhile_append_dropWhile]
  · cases h

theorem matchStatus_eq_some {s group tail : Text} (h : matchStatus s = some (group, tail)) :
    '\n' ∉ group ∧ s = group ++ '\n' :: tail := by
  unfold matchStatus at h
  split at h
  · obtain ⟨hlf, ds, rfl, rfl⟩ := lf_not_mem_group (by decide) h
    exact ⟨hlf, rfl⟩
  · obtain ⟨hlf, ds, rfl, rfl⟩ := lf_not_mem_group (by decide) h
    exact ⟨hlf, rfl⟩

/-- What the search returns stands in the text as the pattern says. -/
theorem searchMarker_eq_some {token s : Text} {m : MarkerMatch} (h : searchMarker token s = some m) :
    '\n' ∉ m.group ∧ s = m.before ++ '\n' :: (token ++ (m.group ++ '\n' :: m.tail)) := by
  induction s generalizing m with
  | nil => cases h
  | cons c s ih =>
    rw [searchMarker] at h
    split at h
    · rename_i group tail hmatch
      cases h
      rw [matchMarker] at hmatch
      split_ifs at hmatch with hpre
      obtain ⟨x, hx⟩ := hpre
      rw [← hx] at hmatch ⊢
      have hdrop : ('\n' :: token ++ x).drop (token.length + 1) = x := by simp
      rw [hdrop] at hmatch
      obtain ⟨hlf, rfl⟩ := matchStatus_eq_some hmatch
      exact ⟨hlf, rfl⟩
    · obtain ⟨m', hm', rfl⟩ := Option.map_eq_some_iff.mp h
      obtain ⟨hlf, hs⟩ := ih hm'
      exact ⟨hlf, by rw [hs]; rfl⟩

/-- Where the pattern stands in the text, the search finds it or an earlier match. -/
theorem searchMarker_isSome {token before s : Text} {r : Text × Text} (h : matchMarker token s = some r)
    (hs : s ≠ []) : (searchMarker token (before ++ s)).isSome := by
  induction before with
  | nil =>
    cases s with
    | nil => exact absurd rfl hs
    | cons c s =>
      rw [List.nil_append, searchMarker, h]
      rfl
  | cons c before ih =>
    rw [List.cons_append, searchMarker]
    split
    · rfl
    · simpa using ih

theorem isDecimal_of_isDigit {c : Char} (h : c.isDigit) : isDecimal c = true := by
  rw [isDecimal, decimalDigit_of_isDigit h]
  rfl

/-- A printed status matches as a whole. -/
theorem matchStatus_str (n : ℤ) (tail : Text) : matchStatus (str n ++ '\n' :: tail) = some (str n, tail) := by
  have hdigits : ∀ sign : Text, matchDigits sign (Nat.toDigits 10 n.natAbs ++ '\n' :: tail)
      = some (sign ++ Nat.toDigits 10 n.natAbs, tail) := by
    intro sign
    have hall : ∀ c ∈ Nat.toDigits 10 n.natAbs, isDecimal c = true := fun c hc =>
      isDecimal_of_isDigit (isDigit_of_mem_toDigits hc)
    have hlf : isDecimal '\n' = false := by decide
    unfold matchDigits
    rw [List.takeWhile_append_of_pos hall, List.dropWhile_append_of_pos hall]
    simp only [List.takeWhile_cons, List.dropWhile_cons, hlf, Bool.false_eq_true, if_false,
      List.append_nil]
    cases hs : Nat.toDigits 10 n.natAbs with
    | nil => exact absurd hs Nat.toDigits_ne_nil
    | cons d ds => rfl
  unfold str
  split_ifs with hneg
  · exact hdigits ['-']
  · cases hs : Nat.toDigits 10 n.natAbs with
    | nil => exact absurd hs Nat.toDigits_ne_nil
    | cons d ds =>
      have hd : d.isDigit := isDigit_of_mem_toDigits (n := n.natAbs) (by rw [hs]; exact List.mem_cons_self)
      have hne : d ≠ '-' := fun heq => absurd (heq ▸ hd) (by decide)
      rw [List.cons_append, matchStatus]
      · rw [← List.cons_append, ← hs]
        exact hdigits []
      · exact fun _ heq => absurd (List.cons.inj heq).1 hne

theorem lf_not_mem_str (n : ℤ) : '\n' ∉ str n := by
  unfold str
  split_ifs with hneg
  · intro h
    rcases List.mem_cons.mp h with h | h
    · exact absurd h (by decide)
    · exact absurd (isDigit_of_mem_toDigits h) (by decide)
  · exact fun h => absurd (isDigit_of_mem_toDigits h) (by decide)

theorem matchMarker_printed (token tail : Text) (n : ℤ) :
    matchMarker token ('\n' :: (token ++ (str n ++ '\n' :: tail))) = some (str n, tail) := by
  have hpre : '\n' :: token <+: '\n' :: (token ++ (str n ++ '\n' :: tail)) :=
    (List.prefix_cons_inj _).mpr (List.prefix_append _ _)
  have hdrop : ('\n' :: (token ++ (str n ++ '\n' :: tail))).drop (token.length + 1)
      = str n ++ '\n' :: tail := by
    simp
  rw [matchMarker, if_pos hpre, hdrop, matchStatus_str]

/-- The first LF ends the first line. -/
theorem line_unique {a b s t : Text} (ha : '\n' ∉ a) (hb : '\n' ∉ b)
    (h : a ++ '\n' :: s = b ++ '\n' :: t) : a = b ∧ s = t := by
  rcases List.append_eq_append_iff.mp h with ⟨c, hbc, hc⟩ | ⟨c, hac, hc⟩
  · cases c with
    | nil => exact ⟨by simpa using hbc.symm, (List.cons.inj hc).2⟩
    | cons d c =>
      rw [hbc, ← (List.cons.inj hc).1] at hb
      simp at hb
  · cases c with
    | nil => exact ⟨by simpa using hac, (List.cons.inj hc).2.symm⟩
    | cons d c =>
      rw [hac, ← (List.cons.inj hc).1] at ha
      simp at ha

/-- **The marker stands in one place.**  When neither the token nor the prompt holds an LF and no line
of the text before starts with the token, the pattern stands nowhere else in the text. -/
theorem marker_unique {token before status prompt u g v : Text} (htoken : '\n' ∉ token)
    (hstatus : '\n' ∉ status) (hprompt : '\n' ∉ prompt) (hg : '\n' ∉ g)
    (hbefore : ¬('\n' :: token <:+: before))
    (h : before ++ '\n' :: (token ++ (status ++ '\n' :: prompt))
      = u ++ '\n' :: (token ++ (g ++ '\n' :: v))) : u = before ∧ g = status ∧ v = prompt := by
  rcases List.append_eq_append_iff.mp h with ⟨a, hu, ha⟩ | ⟨a, hb, ha⟩
  · cases a with
    | nil =>
      have hrest := List.append_cancel_left (List.cons.inj ha).2
      obtain ⟨hgs, hvp⟩ := line_unique hstatus hg hrest
      exact ⟨by simpa using hu, hgs.symm, hvp.symm⟩
    | cons c a =>
      -- a later match needs two more line ends, and only one is left
      have hcount := congrArg (List.count '\n') (List.cons.inj ha).2
      simp only [List.count_append, List.count_cons, List.count_eq_zero_of_not_mem htoken,
        List.count_eq_zero_of_not_mem hstatus, List.count_eq_zero_of_not_mem hprompt] at hcount
      simp at hcount
      omega
  · cases a with
    | nil =>
      have hrest := List.append_cancel_left (List.cons.inj ha).2
      obtain ⟨hgs, hvp⟩ := line_unique hg hstatus hrest
      exact ⟨by simpa using hb.symm, hgs, hvp⟩
    | cons c a =>
      exfalso
      obtain ⟨rfl, hrest⟩ := List.cons.inj ha
      rcases List.append_eq_append_iff.mp hrest with ⟨b, hb', -⟩ | ⟨b, ht, hb'⟩
      · exact hbefore ⟨u, b, by rw [hb, hb']; simp⟩
      · cases b with
        | nil => exact hbefore ⟨u, [], by rw [hb, ht]; simp⟩
        | cons d b =>
          rw [ht, ← (List.cons.inj hb').1] at htoken
          simp at htoken

/-- **Nothing else is taken for the marker.**  When the text of `r` holds the marker and the prompt once,
a match in any prefix of `r` is that marker, with all of the text before it; what follows is a part of
the prompt, or ends with the replacement of an unfinished character. -/
theorem searchMarker_of_text {prompt token before : Text} {code : ℤ} {r p : Bytes}
    (htoken : '\n' ∉ token) (hprompt : '\n' ∉ prompt) (hbefore : ¬('\n' :: token <:+: before))
    (hr : normalizedText r = before ++ '\n' :: (token ++ (str code ++ '\n' :: prompt)))
    (hp : p <+: r) {m : MarkerMatch} (hm : searchMarker token (normalizedText p) = some m) :
    m.before = before ∧ m.group = str code ∧
      ((m.tail <+: prompt ∧ (Utf8.feed .start (Newline.unify p)).2 = .start) ∨
        ∃ t, m.tail = t ++ [Utf8.replacement]) := by
  obtain ⟨hlf, htext⟩ := searchMarker_eq_some hm
  obtain ⟨t, x, hreply, hcases⟩ := normalizedText_of_prefix hp
  rw [hr] at hreply
  have hunique : ∀ v, t ++ x = m.before ++ '\n' :: (token ++ (m.group ++ '\n' :: v)) →
      m.before = before ∧ m.group = str code ∧ v = prompt := by
    intro v hv
    rw [hv] at hreply
    exact marker_unique htoken (lf_not_mem_str code) hprompt hlf hbefore hreply
  rcases hcases with ⟨heq, hstart⟩ | heq
  · obtain ⟨hb, hg, hv⟩ := hunique (m.tail ++ x) (by rw [← heq, htext]; simp)
    exact ⟨hb, hg, .inl ⟨⟨x, hv⟩, hstart⟩⟩
  · rcases List.eq_nil_or_concat m.tail with hnil | ⟨tail, c, htail⟩
    · -- the match ends with LF, which is no replacement character
      have hshape : (m.before ++ '\n' :: (token ++ m.group)) ++ ['\n'] = t ++ [Utf8.replacement] := by
        rw [← heq, htext, hnil]
        simp
      have hc := (List.append_inj' hshape rfl).2
      exact absurd (List.cons.inj hc).1 (by decide)
    · rw [htext, htail] at heq
      have hshape : (m.before ++ '\n' :: (token ++ (m.group ++ '\n' :: tail))) ++ [c]
          = t ++ [Utf8.replacement] := by
        rw [← heq]
        simp
      obtain ⟨ht, hc⟩ := List.append_inj' hshape rfl
      obtain ⟨hb, hg, -⟩ := hunique (tail ++ x) (by rw [← ht]; simp)
      exact ⟨hb, hg, .inr ⟨tail, by rw [htail, List.cons.inj hc |>.1]; simp⟩⟩

/-- **The whole of it is accepted**, with the text before the marker and the status. -/
theorem examineResponse_of_text {prompt token before : Text} {code : ℤ} {r : Bytes}
    (htoken : '\n' ∉ token) (hprompt : '\n' ∉ prompt) (hbefore : ¬('\n' :: token <:+: before))
    (hr : normalizedText r = before ++ '\n' :: (token ++ (str code ++ '\n' :: prompt)))
    (hcode : code.natAbs < 10 ^ maxStrDigits) :
    examineResponse prompt token r = some (.ok (before, code)) := by
  have hsome : (searchMarker token (normalizedText r)).isSome := by
    rw [hr]
    exact searchMarker_isSome (matchMarker_printed token prompt code) (List.cons_ne_nil _ _)
  obtain ⟨m, hm⟩ := Option.isSome_iff_exists.mp hsome
  obtain ⟨hlf, hshape⟩ := searchMarker_eq_some hm
  rw [hr] at hshape
  obtain ⟨hb, hg, hv⟩ := marker_unique htoken (lf_not_mem_str code) hprompt hlf hbefore hshape
  rw [examineResponse, hm]
  simp only [hv, List.suffix_refl, if_true, hg, hb, int_str hcode]

/-! ## The reply to one command -/

/-- The reply of the console to one command: the echo of the submitted line, the output, the line of
the marker and the prompt. -/
def reply (prompt echo token : Text) (output : Bytes) (code : ℤ) : Bytes :=
  Utf8.encode echo ++ 13 :: 10 :: (output ++ 13 :: 10 ::
    (Utf8.encode (token ++ str code) ++ 13 :: 10 :: Utf8.encode prompt))

/-- The text of the echo and the output. -/
def responseText (echo : Text) (output : Bytes) : Text := normalizedText (Utf8.encode echo ++ 10 :: output)

/-- What the framing relies on: the echo and the prompt are single lines, the token is one printable
ASCII word, and the output does not hold it. -/
structure Framed (prompt echo token : Text) (output : Bytes) : Prop where
  echo_cr : '\r' ∉ echo
  echo_lf : '\n' ∉ echo
  prompt_cr : '\r' ∉ prompt
  prompt_lf : '\n' ∉ prompt
  token_ascii : ∀ c ∈ token, c.toNat ≤ 0x7F
  token_cr : '\r' ∉ token
  token_lf : '\n' ∉ token
  output_fresh : ¬(Utf8.encode token <:+: output)

theorem cr_not_mem_str (n : ℤ) : '\r' ∉ str n := by
  unfold str
  split_ifs with hneg
  · intro h
    rcases List.mem_cons.mp h with h | h
    · exact absurd h (by decide)
    · exact absurd (isDigit_of_mem_toDigits h) (by decide)
  · exact fun h => absurd (isDigit_of_mem_toDigits h) (by decide)

section Reply

variable {prompt echo token : Text} {output : Bytes} {code : ℤ}

theorem responseText_eq (hf : Framed prompt echo token output) :
    responseText echo output = echo ++ '\n' :: normalizedText output := by
  rw [responseText, normalizedText_encode_append hf.echo_cr, normalizedText_lf_cons]

/-- The text of the whole reply. -/
theorem normalizedText_reply (hf : Framed prompt echo token output) :
    normalizedText (reply prompt echo token output code)
      = responseText echo output ++ '\n' :: (token ++ (str code ++ '\n' :: prompt)) := by
  have hmarker : '\r' ∉ token ++ str code := by
    rw [List.mem_append, not_or]
    exact ⟨hf.token_cr, cr_not_mem_str code⟩
  rw [reply, normalizedText_append_crlf, normalizedText_append_crlf, normalizedText_append_crlf,
    normalizedText_encode hf.echo_cr, normalizedText_encode hmarker,
    normalizedText_encode hf.prompt_cr, responseText_eq hf]
  simp

/-- Output without the token has no text with it. -/
theorem not_infix_normalizedText {token : Text} {output : Bytes}
    (hascii : ∀ c ∈ token, c.toNat ≤ 0x7F) (hlf : '\n' ∉ token)
    (houtput : ¬(Utf8.encode token <:+: output)) : ¬(token <:+: normalizedText output) := by
  intro h
  apply houtput
  apply Newline.infix_of_infix_unify (lf_not_mem_encode hlf)
  exact Utf8.infix_of_infix_decode hascii h

/-- No line of the echo or the output starts with the token. -/
theorem not_infix_responseText (hf : Framed prompt echo token output) :
    ¬('\n' :: token <:+: responseText echo output) := by
  rw [responseText_eq hf]
  intro h
  -- the echo is one line, so the LF before the token is the one after the echo or a later one
  rcases Newline.infix_cons_or_infix hf.token_lf h with h | h
  · exact hf.echo_lf (h.subset List.mem_cons_self)
  · exact not_infix_normalizedText hf.token_ascii hf.token_lf hf.output_fresh h

/-- In no prefix of the reply is anything but the printed marker taken for it. -/
theorem searchMarker_of_prefix (hf : Framed prompt echo token output) {p : Bytes}
    (hp : p <+: reply prompt echo token output code) {m : MarkerMatch}
    (hm : searchMarker token (normalizedText p) = some m) :
    m.before = responseText echo output ∧ m.group = str code ∧
      ((m.tail <+: prompt ∧ (Utf8.feed .start (Newline.unify p)).2 = .start) ∨
        ∃ t, m.tail = t ++ [Utf8.replacement]) :=
  searchMarker_of_text hf.token_lf hf.prompt_lf (not_infix_responseText hf) (normalizedText_reply hf)
    hp hm

theorem getLast?_reply (hne : prompt ≠ []) (hlf : '\n' ∉ prompt) :
    (reply prompt echo token output code).getLast? ≠ some 10 := by
  intro h
  have hencode : Utf8.encode prompt ≠ [] := fun hnil =>
    hne (by rw [← Utf8.decode_encode prompt, hnil, Utf8.decode_nil])
  have hsplit : reply prompt echo token output code
      = (Utf8.encode echo ++ 13 :: 10 :: (output ++ 13 :: 10 ::
        (Utf8.encode (token ++ str code) ++ [13, 10]))) ++ Utf8.encode prompt := by
    simp [reply]
  rw [hsplit, List.getLast?_append_of_ne_nil _ hencode] at h
  exact lf_not_mem_encode hlf (List.mem_of_getLast? h)

/-- **No proper prefix of the reply is accepted.** -/
theorem examineResponse_of_prefix (hf : Framed prompt echo token output) (hne : prompt ≠ [])
    (hrepl : Utf8.replacement ∉ prompt) {p : Bytes} (hp : p <+: reply prompt echo token output code)
    (hproper : p ≠ reply prompt echo token output code) : examineResponse prompt token p = none := by
  unfold examineResponse
  split
  · rfl
  rename_i m hm
  split_ifs with htail
  · exfalso
    obtain ⟨hb, hg, ⟨hpre, hstart⟩ | ⟨t, ht⟩⟩ := searchMarker_of_prefix hf hp hm
    · -- the tail is the prompt, so the whole text has been read
      have heq : m.tail = prompt := hpre.eq_of_length (le_antisymm hpre.length_le htail.length_le)
      apply hproper
      apply eq_of_normalizedText_eq hp hstart _ (getLast?_reply hne hf.prompt_lf)
      rw [(searchMarker_eq_some hm).2, hb, hg, heq, normalizedText_reply hf]
    · obtain ⟨s, c, rfl⟩ := (List.eq_nil_or_concat prompt).resolve_left hne
      obtain ⟨u, hu⟩ := htail
      rw [ht, List.concat_eq_append, ← List.append_assoc] at hu
      have hc := (List.append_inj' hu rfl).2
      apply hrepl
      rw [← (List.cons.inj hc).1]
      simp
  · rfl

/-- **The whole reply is accepted**, with the text before the marker and the status. -/
theorem examineResponse_reply (hf : Framed prompt echo token output)
    (hcode : code.natAbs < 10 ^ maxStrDigits) :
    examineResponse prompt token (reply prompt echo token output code)
      = some (.ok (responseText echo output, code)) :=
  examineResponse_of_text hf.token_lf hf.prompt_lf (not_infix_responseText hf)
    (normalizedText_reply hf) hcode

end Reply

/-! ## The submitted line -/

/-- Text without CR and LF. -/
def SingleLine (s : Text) : Prop := '\r' ∉ s ∧ '\n' ∉ s

instance (s : Text) : Decidable (SingleLine s) := inferInstanceAs (Decidable (_ ∧ _))

theorem SingleLine.append {s t : Text} (hs : SingleLine s) (ht : SingleLine t) : SingleLine (s ++ t) := by
  simp only [SingleLine, List.mem_append, not_or]
  exact ⟨⟨hs.1, ht.1⟩, hs.2, ht.2⟩

theorem SingleLine.quote {s : Text} (hs : SingleLine s) : SingleLine (quote s) := by
  constructor <;> intro hmem <;> rcases mem_quote hmem with h | h | h
  · exact absurd h (by decide)
  · exact absurd h (by decide)
  · exact hs.1 h
  · exact absurd h (by decide)
  · exact absurd h (by decide)
  · exact hs.2 h

theorem ConsoleMarker.singleLine (marker : ConsoleMarker) : SingleLine marker.text :=
  ⟨fun h => marker.clean _ h (by decide), fun h => marker.clean _ h (by decide)⟩

/-- A hexadecimal digit is a printable ASCII character. -/
theorem mem_hex {h : Hex} {c : Char} (hc : c ∈ h.digits) : c.toNat ≤ 0x7F ∧ c ≠ '\r' ∧ c ≠ '\n' := by
  have hall : ("0123456789abcdef".toList.all fun d =>
      decide (d.toNat ≤ 0x7F ∧ d ≠ '\r' ∧ d ≠ '\n')) = true := by decide
  exact of_decide_eq_true (List.all_eq_true.mp hall c (h.isHex c hc))

theorem singleLine_hex (h : Hex) : SingleLine h.digits :=
  ⟨fun hc => (mem_hex hc).2.1 rfl, fun hc => (mem_hex hc).2.2 rfl⟩

theorem singleLine_exitToken (h : Hex) : SingleLine (exitToken h) :=
  (SingleLine.append (by decide) (singleLine_hex h)).append (by decide)

theorem singleLine_statusName (h : Hex) : SingleLine (statusName h) :=
  SingleLine.append (by decide) (singleLine_hex h)

theorem toNat_of_mem_exitToken {h : Hex} {c : Char} (hc : c ∈ exitToken h) : c.toNat ≤ 0x7F := by
  have hhead : ("__HARDWARE_TEST_EXIT_".toList.all fun d => decide (d.toNat ≤ 0x7F)) = true := by decide
  have htail : ("__".toList.all fun d => decide (d.toNat ≤ 0x7F)) = true := by decide
  rcases List.mem_append.mp hc with hc | hc
  · rcases List.mem_append.mp hc with hc | hc
    · exact of_decide_eq_true (List.all_eq_true.mp hhead c hc)
    · exact (mem_hex hc).1
  · exact of_decide_eq_true (List.all_eq_true.mp htail c hc)

/-- The submitted line is one line when the command and the prompt are. -/
theorem singleLine_submittedLine {prompt : Text} {command : UnixCommand} {token status : Hex}
    (hcommand : SingleLine command.text) (hprompt : SingleLine prompt) :
    SingleLine (submittedLine prompt command token status) := by
  have hstatus := singleLine_statusName status
  have heval : SingleLine ("eval ".toList ++ quote command.text ++ "; ".toList ++ statusName status
      ++ "=$?; ".toList) :=
    (((SingleLine.append (by decide) hcommand.quote).append (by decide)).append hstatus).append
      (by decide)
  have hset : SingleLine ("eval ".toList ++ quote command.text ++ "; ".toList ++ statusName status
      ++ "=$?; ".toList ++ "PS1=".toList ++ quote prompt ++ "; ".toList) :=
    ((heval.append (by decide)).append hprompt.quote).append (by decide)
  exact ((((hset.append (by decide)).append (singleLine_exitToken token)).append (by decide)).append
    hstatus).append (by decide)

/-- What `execute` submits is framed, whatever the command. -/
theorem framed_submittedLine {prompt : Text} {command : UnixCommand} {token status : Hex}
    {output : Bytes} (hcommand : SingleLine command.text) (hprompt : SingleLine prompt)
    (houtput : ¬(Utf8.encode (exitToken token) <:+: output)) :
    Framed prompt (submittedLine prompt command token status) (exitToken token) output where
  echo_cr := (singleLine_submittedLine hcommand hprompt).1
  echo_lf := (singleLine_submittedLine hcommand hprompt).2
  prompt_cr := hprompt.1
  prompt_lf := hprompt.2
  token_ascii := fun _ hc => toNat_of_mem_exitToken hc
  token_cr := (singleLine_exitToken token).1
  token_lf := (singleLine_exitToken token).2
  output_fresh := houtput

/-- The reply to a command with these identifiers. -/
def commandReply (prompt : Text) (command : UnixCommand) (token status : Hex) (output : Bytes)
    (code : ℤ) : Bytes :=
  reply prompt (submittedLine prompt command token status) (exitToken token) output code

/-- **Framing does not depend on the chunks.**  However the reply is cut and delayed, the reader
returns the text of the echo and the output, and the status; it returns when the last byte has been
read; and in no part of the reply is anything but the printed marker taken for it. -/
theorem readCommandResponse_reply {prompt : Text} {command : UnixCommand} {token status : Hex}
    {output : Bytes} {code : ℤ} {polls : List Poll}
    (hcommand : SingleLine command.text) (hprompt : SingleLine prompt)
    (hne : prompt ≠ []) (hrepl : Utf8.replacement ∉ prompt)
    (houtput : ¬(Utf8.encode (exitToken token) <:+: output))
    (hcode : code.natAbs < 10 ^ maxStrDigits) (hopen : Open polls)
    (hreply : received polls = commandReply prompt command token status output code) :
    (∃ rest, readCommandResponse prompt (exitToken token) polls
        = (.ok (responseText (submittedLine prompt command token status) output, code), rest) ∧
      received rest = []) ∧
    ∀ p, p <+: received polls → ∀ m, searchMarker (exitToken token) (normalizedText p) = some m →
      m.before = responseText (submittedLine prompt command token status) output ∧
        m.group = str code := by
  have hf : Framed prompt (submittedLine prompt command token status) (exitToken token) output :=
    framed_submittedLine hcommand hprompt houtput
  constructor
  · have hempty : [] ≠ commandReply prompt command token status output code := by
      simp [commandReply, reply]
    obtain ⟨rest, hloop, hrest⟩ := readLoop_whole hopen hreply hempty (examineResponse_reply hf hcode)
      fun p hp hproper => examineResponse_of_prefix hf hne hrepl hp hproper
    exact ⟨rest, by rw [readCommandResponse, hloop], hrest⟩
  · intro p hp m hm
    rw [hreply] at hp
    obtain ⟨hb, hg, -⟩ := searchMarker_of_prefix hf hp hm
    exact ⟨hb, hg⟩

theorem hex_replicate {c : Char} (hc : c ∈ "0123456789abcdef".toList) :
    ∀ d ∈ List.replicate 32 c, d ∈ "0123456789abcdef".toList :=
  fun _ hd => (List.eq_of_mem_replicate hd) ▸ hc

/-- An identifier for the examples. -/
def sampleHex (c : Char) (hc : c ∈ "0123456789abcdef".toList) : Hex where
  digits := List.replicate 32 c
  length_eq := List.length_replicate
  isHex := hex_replicate hc

theorem a_mem_digits : 'a' ∈ "0123456789abcdef".toList := by decide

theorem b_mem_digits : 'b' ∈ "0123456789abcdef".toList := by decide

/-- The prompt of a root shell. -/
def rootMarker : ConsoleMarker := ⟨"# ".toList, by decide, clean_of_all (by decide)⟩

/-- A reply in three chunks that cut the echo and the last CRLF. -/
theorem readCommandResponse_reply_sample :
    let token := sampleHex 'a' (by decide)
    let status := sampleHex 'b' (by decide)
    let command : UnixCommand := ⟨"id".toList, false, false⟩
    let polls : List Poll :=
      [.chunk ((commandReply "# ".toList command token status [120] 7).take 20), .idle,
        .chunk ((commandReply "# ".toList command token status [120] 7).drop 20)]
    (∃ rest, readCommandResponse "# ".toList (exitToken token) polls
        = (.ok (responseText (submittedLine "# ".toList command token status) [120], 7), rest) ∧
      received rest = []) ∧
    ∀ p, p <+: received polls → ∀ m, searchMarker (exitToken token) (normalizedText p) = some m →
      m.before = responseText (submittedLine "# ".toList command token status) [120] ∧
        m.group = str 7 := by
  intro token status command polls
  exact readCommandResponse_reply (by decide) (by decide) (by decide) (by decide) (by decide +kernel)
    (lt_ten_pow_maxStrDigits (by decide)) (by simp [Open, polls]) (by simp [polls, Poll.bytes])

/-- **An empty prompt is accepted between the CR and the LF of the last line end.**  The LF is left
unread. -/
theorem readCommandResponse_empty_prompt :
    ∃ (command : UnixCommand) (token status : Hex) (output : Bytes) (code : ℤ) (polls rest : List Poll),
      SingleLine command.text ∧
      ¬(Utf8.encode (exitToken token) <:+: output) ∧ Open polls ∧
      received polls = commandReply [] command token status output code ∧
      (readCommandResponse [] (exitToken token) polls).2 = rest ∧
      (readCommandResponse [] (exitToken token) polls).1
        = .ok (responseText (submittedLine [] command token status) output, code) ∧
      received rest = [10] := by
  refine ⟨⟨"id".toList, false, false⟩, sampleHex 'a' (by decide), sampleHex 'b' (by decide), [120], 7,
    [.chunk (commandReply [] ⟨"id".toList, false, false⟩ (sampleHex 'a' (by decide))
      (sampleHex 'b' (by decide)) [120] 7).dropLast, .chunk [10]], [.chunk [10]], by decide,
    by decide +kernel, by simp [Open], ?_, ?_, ?_, rfl⟩
  · decide +kernel
  · decide +kernel
  · decide +kernel

end HardwareTest.Transport
