import HardwareTest.Transport.Isolation

/-!
# The output in a command result

A console may echo the submitted line before the output or not, and its line ends are CRLF, or plain LF
on a raw line.  `execute` removes the echo from the text it read: it strips the newlines at the start,
drops the submitted line when the text starts with it, and strips newlines again.

* `normalizedText_rawReply` — the text of the reply: the echo, the output, the marker and the prompt;
* `removeEcho_echoed`, `removeEcho_plain` — what is left of the text with and without an echo;
* `stdout_faithful_iff` — for which commands and outputs the result holds the output itself.
-/

namespace HardwareTest.Transport

open HardwareTest.Lib HardwareTest.Python

/-! ## The reply -/

/-- How a console ends its lines. -/
inductive LineEnd
  | crlf
  | lf
  deriving DecidableEq

def LineEnd.bytes : LineEnd → Bytes
  | .crlf => [13, 10]
  | .lf => [10]

/-- The echo of the submitted line, when there is one. -/
def echoBytes (echo : Bool) (submitted : Text) : Bytes :=
  if echo then Utf8.encode submitted ++ [13, 10] else []

/-- What a console writes for one command: the echo, the raw output, the line of the marker and the
prompt. -/
def rawReply (echo : Bool) (lineEnd : LineEnd) (prompt : Text) (command : UnixCommand)
    (token status : Hex) (output : Bytes) (code : ℤ) : Bytes :=
  echoBytes echo (submittedLine prompt command token status) ++ output ++ lineEnd.bytes
    ++ Utf8.encode (exitToken token ++ str code) ++ lineEnd.bytes ++ Utf8.encode prompt

/-- The output without the CR that makes a CRLF with the LF before the marker. -/
def ownOutput (lineEnd : LineEnd) (output : Bytes) : Bytes :=
  if lineEnd = .lf ∧ output.getLast? = some 13 then output.dropLast else output

/-- The output stands in the result as it is: it starts with no line end, an echo holds no CR, and the
LF before the marker does not belong to the output. -/
def Faithful (echo : Bool) (lineEnd : LineEnd) (command : UnixCommand) (output : Bytes) : Prop :=
  output.head? ≠ some 10 ∧ output.head? ≠ some 13 ∧ (echo = true → '\r' ∉ command.text) ∧
    ¬(lineEnd = .lf ∧ output.getLast? = some 13)

instance (echo : Bool) (lineEnd : LineEnd) (command : UnixCommand) (output : Bytes) :
    Decidable (Faithful echo lineEnd command output) :=
  inferInstanceAs (Decidable (_ ∧ _ ∧ _ ∧ _))

/-! ## The text of the output -/

/-- An ASCII byte other than CR and LF splits the text. -/
theorem normalizedText_append_cons {b : UInt8} (hb : b.toNat ≤ 0x7F) (hcr : b ≠ 13) (hlf : b ≠ 10)
    (as bs : Bytes) : normalizedText (as ++ b :: bs)
      = normalizedText as ++ Char.ofNat b.toNat :: normalizedText bs := by
  unfold normalizedText
  rw [Newline.unify_append_cons hcr hlf]
  exact Utf8.decode_append_ascii _ _ b hb

theorem normalizedText_append_lf {as : Bytes} (h : as.getLast? ≠ some 13) (bs : Bytes) :
    normalizedText (as ++ 10 :: bs) = normalizedText as ++ '\n' :: normalizedText bs := by
  unfold normalizedText
  rw [Newline.unify_append_lf h]
  exact Utf8.decode_append_ascii _ _ 10 (by decide)

/-- A CR at the end is an LF of the text. -/
theorem normalizedText_append_cr (as : Bytes) : normalizedText (as ++ [13]) = normalizedText as ++ ['\n'] := by
  unfold normalizedText
  rw [Newline.unify_append_cr]
  exact Utf8.decode_append_ascii _ [] 10 (by decide)

/-- An ASCII character comes from one byte. -/
theorem byte_of_ofNat {b d : UInt8} (hb : b.toNat ≤ 0x7F) (hd : d.toNat ≤ 0x7F)
    (h : Char.ofNat b.toNat = Char.ofNat d.toNat) : b = d := by
  have hval := congrArg Char.toNat h
  rw [Utf8.toNat_ofNat_of_scalar (by omega), Utf8.toNat_ofNat_of_scalar (by omega)] at hval
  exact UInt8.toNat_inj.mp hval

/-- The text holds no CR. -/
theorem cr_not_mem_normalizedText (bs : Bytes) : '\r' ∉ normalizedText bs := by
  intro h
  obtain ⟨u, v, huv⟩ := List.append_of_mem h
  obtain ⟨as, b, cs, hsplit, hchar, hb, -, -⟩ := Utf8.decode_eq_append_ascii (by decide) huv
  have hcr : (13 : UInt8) ∈ Newline.unify bs := by
    rw [hsplit, byte_of_ofNat hb (d := 13) (by decide) hchar]
    simp
  rw [Newline.unify] at hcr
  rw [Newline.replace_singleton, List.mem_flatMap] at hcr
  obtain ⟨c, -, hc⟩ := hcr
  split_ifs at hc with h13
  · simp at hc
  · exact h13 (List.mem_singleton.mp hc).symm

/-- The text starts with a newline exactly when the bytes start with a line end. -/
theorem head?_normalizedText (bs : Bytes) :
    (normalizedText bs).head? = some '\n' ↔ bs.head? = some 10 ∨ bs.head? = some 13 := by
  cases bs with
  | nil =>
    have hnone : (normalizedText []).head? = none := rfl
    rw [hnone]
    simp
  | cons b bs =>
    by_cases hlf : b = 10
    · rw [hlf, normalizedText_lf_cons]
      simp
    by_cases hcr : b = 13
    · have hpre : normalizedText [13] = ['\n'] := normalizedText_append_cr []
      obtain ⟨u, hu⟩ := Newline.unify_isPrefix [13] bs
      have hone : Newline.unify [13] = [10] := Newline.unify_append_cr []
      have htext : normalizedText (13 :: bs) = '\n' :: Utf8.decode u := by
        rw [normalizedText, show (13 :: bs : Bytes) = [13] ++ bs from rfl, ← hu, hone]
        exact Utf8.decode_append_ascii [] u 10 (by decide)
      rw [hcr, htext]
      simp
    · constructor
      · intro h
        exfalso
        obtain ⟨v, hv⟩ : ∃ v, normalizedText (b :: bs) = [] ++ '\n' :: v := by
          cases htext : normalizedText (b :: bs) with
          | nil => simp [htext] at h
          | cons c v => exact ⟨v, by rw [htext] at h; simpa using h⟩
        obtain ⟨as, d, cs, hsplit, hchar, hd, hnil, -⟩ := Utf8.decode_eq_append_ascii (by decide) hv
        have has : as = [] := Utf8.eq_nil_of_decode hnil
        rw [has, Newline.unify_cons_of_ne hcr, List.nil_append] at hsplit
        obtain ⟨rfl, -⟩ := List.cons.inj hsplit
        exact hlf (byte_of_ofNat (d := 10) hd (by decide) hchar)
      · intro h
        simp [hlf, hcr] at h

/-! ## The text of the reply -/

section Reply

variable {command : UnixCommand} {prompt : Text} {token status : Hex} {output : Bytes} {code : ℤ}

/-- The submitted line after the quoted command. -/
def submittedTail (prompt : Text) (token status : Hex) : Text :=
  " ".toList ++ statusName status ++ "=$?; ".toList ++ "PS1=".toList ++ quote prompt ++ "; ".toList
    ++ "printf '\\n".toList ++ exitToken token ++ "%s\\n' \"$".toList ++ statusName status ++ "\"".toList

theorem submittedLine_eq : submittedLine prompt command token status
    = ("eval".toList ++ ' ' :: quote command.text) ++ ';' :: submittedTail prompt token status := by
  have hsplit : ∀ {e e' q s s' r : Text}, e = e' ++ [' '] → s = ';' :: s' →
      e ++ (q ++ (s ++ r)) = e' ++ (' ' :: q ++ ';' :: (s' ++ r)) := by
    intro e e' q s s' r he hs
    rw [he, hs]
    simp
  unfold submittedLine submittedTail
  simp only [List.append_assoc]
  exact hsplit (by decide) (by decide)

theorem singleLine_submittedTail (hprompt : SingleLine prompt) :
    SingleLine (submittedTail prompt token status) := by
  have hset : SingleLine (" ".toList ++ statusName status ++ "=$?; ".toList ++ "PS1=".toList
      ++ quote prompt ++ "; ".toList) :=
    ((((SingleLine.append (by decide) (singleLine_statusName status)).append (by decide)).append
      (by decide)).append hprompt.quote).append (by decide)
  exact (((((hset.append (by decide)).append (singleLine_exitToken token)).append (by decide)).append
    (singleLine_statusName status)).append (by decide))

/-- A CR in the submitted line is one of the command. -/
theorem cr_mem_submittedLine (hprompt : SingleLine prompt) :
    '\r' ∈ submittedLine prompt command token status ↔ '\r' ∈ command.text := by
  rw [submittedLine_eq]
  constructor
  · intro h
    rcases List.mem_append.mp h with h | h
    · rcases List.mem_append.mp h with h | h
      · exact absurd h (by decide)
      · rcases List.mem_cons.mp h with h | h
        · exact absurd h (by decide)
        · rcases mem_quote h with h | h | h
          · exact absurd h (by decide)
          · exact absurd h (by decide)
          · exact h
    · rcases List.mem_cons.mp h with h | h
      · exact absurd h (by decide)
      · exact absurd h (singleLine_submittedTail hprompt).1
  · intro h
    have hquote : '\r' ∈ quote command.text := mem_quote_of_mem (by decide) h
    simp [hquote]

theorem not_mem_exitToken {c : Char} (hword : c ∉ "__HARDWARE_TEST_EXIT_".toList)
    (hhex : c ∉ "0123456789abcdef".toList) : c ∉ exitToken token := by
  intro h
  rcases List.mem_append.mp h with h | h
  · rcases List.mem_append.mp h with h | h
    · exact hword h
    · exact hhex (token.isHex c h)
  · have hunderscore : c = '_' := by simpa using h
    exact hword (hunderscore ▸ by decide)

theorem mem_exitToken (token : Hex) : '_' ∈ exitToken token := by
  apply List.mem_append_right
  decide

/-- **No line of the echo starts with the token**, when the command does not hold it. -/
theorem not_infix_echo (hprompt : SingleLine prompt) (hfresh : ¬(exitToken token <:+: command.text)) :
    ¬('\n' :: exitToken token <:+:
      normalizedText (Utf8.encode (submittedLine prompt command token status))) := by
  have hascii : ∀ c ∈ exitToken token, c.toNat ≤ 0x7F := fun _ hc => toNat_of_mem_exitToken hc
  have htail : SingleLine (submittedTail prompt token status) := singleLine_submittedTail hprompt
  intro h
  have hsemicolon : Utf8.encode (';' :: submittedTail prompt token status)
      = 59 :: Utf8.encode (submittedTail prompt token status) := by
    rw [Utf8.encode_cons]
    rfl
  rw [submittedLine_eq, Utf8.encode_append, hsemicolon,
    normalizedText_append_cons (by decide) (by decide) (by decide), normalizedText_encode htail.1] at h
  rcases Newline.infix_or_infix (by simpa using not_mem_exitToken (by decide) (by decide)) h with h | h
  · -- the token would stand in the quoted command
    apply hfresh
    have hmem : exitToken token <:+: "eval".toList ++ ' ' :: quote command.text := by
      apply Utf8.infix_of_infix_encode hascii
      apply Newline.infix_of_infix_unify (lf_not_mem_encode (singleLine_exitToken token).2)
      apply Utf8.infix_of_infix_decode hascii
      exact (List.suffix_cons _ _).isInfix.trans h
    rcases Newline.infix_or_infix (not_mem_exitToken (by decide) (by decide)) hmem with h | h
    · exact absurd (h.subset (mem_exitToken token)) (by decide)
    · exact infix_of_infix_quote (not_mem_exitToken (by decide) (by decide))
        (not_mem_exitToken (by decide) (by decide)) h
  · exact htail.2 (h.subset List.mem_cons_self)

/-- The text of the echo and its line end. -/
def echoText (echo : Bool) (submitted : Text) : Text :=
  if echo then normalizedText (Utf8.encode submitted) ++ ['\n'] else []

theorem normalizedText_echo (echo : Bool) (submitted : Text) (bs : Bytes) :
    normalizedText (echoBytes echo submitted ++ bs) = echoText echo submitted ++ normalizedText bs := by
  cases echo with
  | false => rfl
  | true =>
    have hbytes : echoBytes true submitted ++ bs = Utf8.encode submitted ++ 13 :: 10 :: bs := by
      simp [echoBytes]
    rw [hbytes, normalizedText_append_crlf]
    simp [echoText]

/-- **The text of the reply**: the echo, the output, the line of the marker and the prompt. -/
theorem normalizedText_rawReply {echo : Bool} {lineEnd : LineEnd} (hprompt : SingleLine prompt) :
    normalizedText (rawReply echo lineEnd prompt command token status output code)
      = (echoText echo (submittedLine prompt command token status)
          ++ normalizedText (ownOutput lineEnd output))
        ++ '\n' :: (exitToken token ++ (str code ++ '\n' :: prompt)) := by
  have hmarker : '\r' ∉ exitToken token ++ str code := by
    rw [List.mem_append, not_or]
    exact ⟨(singleLine_exitToken token).1, cr_not_mem_str code⟩
  have hend : ∀ bs, normalizedText (lineEnd.bytes ++ bs) = '\n' :: normalizedText bs := by
    intro bs
    cases lineEnd with
    | crlf => exact normalizedText_append_crlf [] bs
    | lf => exact normalizedText_lf_cons bs
  have hrest : ∀ bs, normalizedText (output ++ lineEnd.bytes ++ bs)
      = normalizedText (ownOutput lineEnd output) ++ '\n' :: normalizedText bs := by
    intro bs
    rw [List.append_assoc]
    cases lineEnd with
    | crlf => exact normalizedText_append_crlf output bs
    | lf =>
      by_cases hcr : output.getLast? = some 13
      · -- the CR of the output and the LF before the marker are read as one CRLF
        obtain ⟨out, rfl⟩ := List.getLast?_eq_some_iff.mp hcr
        have hown : ownOutput .lf (out ++ [13]) = out := by
          simp [ownOutput]
        rw [hown, LineEnd.bytes, List.append_assoc]
        exact normalizedText_append_crlf out bs
      · have hown : ownOutput .lf output = output := by
          simp [ownOutput, hcr]
        rw [hown]
        exact normalizedText_append_lf hcr bs
  have hsplit : rawReply echo lineEnd prompt command token status output code
      = echoBytes echo (submittedLine prompt command token status) ++ (output ++ lineEnd.bytes
        ++ (Utf8.encode (exitToken token ++ str code) ++ (lineEnd.bytes ++ Utf8.encode prompt))) := by
    simp [rawReply]
  rw [hsplit, normalizedText_echo, hrest, normalizedText_encode_append hmarker, hend,
    normalizedText_encode hprompt.1]
  simp

/-! ## Removing the echo -/

theorem lstripNewlines_length_le (s : Text) : (lstripNewlines s).length ≤ s.length :=
  (List.dropWhile_suffix _).length_le

/-- Stripping leaves the text as it is exactly when it starts with no newline. -/
theorem lstripNewlines_eq_self {s : Text} : lstripNewlines s = s ↔ s.head? ≠ some '\n' := by
  cases s with
  | nil => simp [lstripNewlines]
  | cons c s =>
    by_cases hc : c = '\n'
    · have hshort : (lstripNewlines (c :: s)).length ≤ s.length := by
        rw [hc]
        exact lstripNewlines_length_le s
      refine iff_of_false (fun h => ?_) (by simp [hc])
      rw [h, List.length_cons] at hshort
      omega
    · simp [lstripNewlines, hc]

theorem lstripNewlines_lf_cons (s : Text) : lstripNewlines ('\n' :: s) = lstripNewlines s := rfl

/-- The submitted line starts with a letter. -/
theorem submittedLine_cons : ∃ u, submittedLine prompt command token status = 'e' :: u := by
  have hcons : ∀ {e u t : Text}, e = 'e' :: u → ∃ v, e ++ t = 'e' :: v := by
    intro e u t he
    exact ⟨u ++ t, by rw [he]; rfl⟩
  have heval : "eval".toList = 'e' :: "val".toList := by decide
  rw [submittedLine_eq, List.append_assoc]
  exact hcons heval

theorem lstripNewlines_submitted {t : Text} :
    lstripNewlines (submittedLine prompt command token status ++ t)
      = submittedLine prompt command token status ++ t := by
  obtain ⟨u, hu⟩ : ∃ u, submittedLine prompt command token status = 'e' :: u := submittedLine_cons
  rw [lstripNewlines_eq_self, hu]
  simp

/-- So does its echo. -/
theorem echo_cons :
    ∃ u, normalizedText (Utf8.encode (submittedLine prompt command token status)) = 'e' :: u := by
  obtain ⟨u, hu⟩ : ∃ u, submittedLine prompt command token status = 'e' :: u := submittedLine_cons
  have hhead : Utf8.encode ('e' :: u) = 101 :: Utf8.encode u := by
    rw [Utf8.encode_cons]
    rfl
  refine ⟨normalizedText (Utf8.encode u), ?_⟩
  rw [hu, hhead]
  exact normalizedText_append_cons (by decide) (by decide) (by decide) [] _

/-- Without an echo only newlines are stripped. -/
theorem removeEcho_plain {t : Text} (h : ¬(exitToken token <:+: t)) :
    removeEcho t (submittedLine prompt command token status) = lstripNewlines t := by
  have hpre : ¬(submittedLine prompt command token status <+: lstripNewlines t) := by
    intro hpre
    apply h
    have hmiddle : ∀ a b c d e : Text, b <:+: a ++ b ++ c ++ d ++ e := fun a b c d e =>
      ⟨a, c ++ d ++ e, by simp⟩
    have htoken : exitToken token <:+: submittedLine prompt command token status := hmiddle _ _ _ _ _
    exact (htoken.trans hpre.isInfix).trans (List.dropWhile_suffix _).isInfix
  rw [removeEcho, if_neg hpre]

/-- An echo that is read back as it was sent goes, with the newlines after it. -/
theorem removeEcho_echoed {t : Text} :
    removeEcho (submittedLine prompt command token status ++ '\n' :: t)
      (submittedLine prompt command token status) = lstripNewlines t := by
  simp only [removeEcho, lstripNewlines_submitted, if_pos (List.prefix_append _ _), List.drop_left]
  exact lstripNewlines_lf_cons t

/-- **An echo with a CR stays.**  It is read back with an LF in its place, so the text does not start
with the submitted line. -/
theorem removeEcho_carriage_return (hprompt : SingleLine prompt) (hcr : '\r' ∈ command.text) {t : Text}
    (ht : '\r' ∉ t) :
    removeEcho t (submittedLine prompt command token status) = lstripNewlines t := by
  have hpre : ¬(submittedLine prompt command token status <+: lstripNewlines t) := by
    intro hpre
    have hmem := hpre.subset ((cr_mem_submittedLine hprompt).mpr hcr)
    exact ht ((List.dropWhile_suffix _).subset hmem)
  rw [removeEcho, if_neg hpre]

end Reply

/-! ## The result -/

/-- What is left of the text before the marker. -/
theorem removeEcho_rawReply {echo : Bool} {lineEnd : LineEnd} {prompt : Text} {command : UnixCommand}
    {token status : Hex} {output : Bytes} (hprompt : SingleLine prompt)
    (houtput : ¬(exitToken token <:+: normalizedText (ownOutput lineEnd output))) :
    let submitted := submittedLine prompt command token status
    let text := normalizedText (ownOutput lineEnd output)
    removeEcho (echoText echo submitted ++ text) submitted
      = if echo = true ∧ '\r' ∈ command.text then echoText echo submitted ++ text
        else lstripNewlines text := by
  intro submitted text
  cases echo with
  | false => exact removeEcho_plain houtput
  | true =>
    by_cases hcr : '\r' ∈ command.text
    · have hread : '\r' ∉ echoText true submitted ++ text := by
        simp only [echoText, if_true, List.mem_append, not_or]
        exact ⟨⟨cr_not_mem_normalizedText _, by decide⟩, cr_not_mem_normalizedText _⟩
      have hstrip : lstripNewlines (echoText true submitted ++ text) = echoText true submitted ++ text := by
        obtain ⟨u, hu⟩ : ∃ u, normalizedText (Utf8.encode submitted) = 'e' :: u := echo_cons
        rw [lstripNewlines_eq_self, echoText, if_pos rfl, hu]
        simp
      rw [removeEcho_carriage_return hprompt hcr hread, hstrip, if_pos ⟨rfl, hcr⟩]
    · have hsubmitted : '\r' ∉ submitted := fun h => hcr ((cr_mem_submittedLine hprompt).mp h)
      have hecho : echoText true submitted ++ text = submitted ++ '\n' :: text := by
        rw [echoText, if_pos rfl, normalizedText_encode hsubmitted]
        simp
      rw [hecho, removeEcho_echoed, if_neg (fun h => hcr h.2)]

/-- The output is longer than what is read of it exactly when its CR is taken away. -/
theorem normalizedText_ownOutput (lineEnd : LineEnd) (output : Bytes) :
    normalizedText output = normalizedText (ownOutput lineEnd output)
      ++ (if lineEnd = .lf ∧ output.getLast? = some 13 then ['\n'] else []) := by
  by_cases h : lineEnd = .lf ∧ output.getLast? = some 13
  · obtain ⟨out, rfl⟩ := List.getLast?_eq_some_iff.mp h.2
    rw [ownOutput, if_pos h, if_pos h, List.dropLast_concat]
    exact normalizedText_append_cr out
  · rw [ownOutput, if_neg h, if_neg h, List.append_nil]

/-- What is left of the text is the text of the output exactly in the faithful cases. -/
theorem removeEcho_eq_iff {echo : Bool} {lineEnd : LineEnd} {prompt : Text} {command : UnixCommand}
    {token status : Hex} {output : Bytes} (hprompt : SingleLine prompt)
    (houtput : ¬(exitToken token <:+: normalizedText (ownOutput lineEnd output))) :
    removeEcho (echoText echo (submittedLine prompt command token status)
        ++ normalizedText (ownOutput lineEnd output)) (submittedLine prompt command token status)
      = normalizedText output ↔ Faithful echo lineEnd command output := by
  rw [removeEcho_rawReply hprompt houtput]
  have hcons : ∃ u, normalizedText (Utf8.encode (submittedLine prompt command token status)) = 'e' :: u :=
    echo_cons
  generalize submittedLine prompt command token status = submitted at hcons ⊢
  have hsplit := normalizedText_ownOutput lineEnd output
  have hstart := head?_normalizedText output
  split_ifs with hecho
  · -- the echo stays in front of the output
    refine iff_of_false (fun h => ?_) (fun h => h.2.2.1 hecho.1 hecho.2)
    rw [hsplit] at h
    have hlong : 2 ≤ (echoText echo submitted).length := by
      obtain ⟨u, hu⟩ := hcons
      simp only [echoText, hecho.1, if_true, hu, List.length_append, List.length_cons]
      omega
    have hlength : (echoText echo submitted).length + (normalizedText (ownOutput lineEnd output)).length
        = (normalizedText (ownOutput lineEnd output)).length
          + (if lineEnd = .lf ∧ output.getLast? = some 13 then ['\n'] else []).length := by
      rw [← List.length_append, ← List.length_append]
      exact congrArg List.length h
    split_ifs at hlength
    · rw [List.length_singleton] at hlength
      omega
    · rw [List.length_nil] at hlength
      omega
  · by_cases hcr : lineEnd = .lf ∧ output.getLast? = some 13
    · refine iff_of_false (fun h => ?_) (fun h => h.2.2.2 hcr)
      rw [if_pos hcr] at hsplit
      have hshort := lstripNewlines_length_le (normalizedText (ownOutput lineEnd output))
      rw [h, hsplit, List.length_append, List.length_singleton] at hshort
      omega
    · rw [if_neg hcr, List.append_nil] at hsplit
      rw [← hsplit, lstripNewlines_eq_self, Ne, hstart]
      constructor
      · intro h
        exact ⟨fun hlf => h (.inl hlf), fun hcr' => h (.inr hcr'), fun he hmem => hecho ⟨he, hmem⟩, hcr⟩
      · intro h hstart
        exact hstart.elim h.1 h.2.1

/-- The output without its last CR does not hold the token either. -/
theorem not_infix_ownOutput {lineEnd : LineEnd} {token : Hex} {output : Bytes}
    (houtput : ¬(Utf8.encode (exitToken token) <:+: output)) :
    ¬(exitToken token <:+: normalizedText (ownOutput lineEnd output)) := by
  apply not_infix_normalizedText (fun _ hc => toNat_of_mem_exitToken hc) (singleLine_exitToken token).2
  intro h
  apply houtput
  unfold ownOutput at h
  split_ifs at h
  · exact h.trans (List.dropLast_prefix output).isInfix
  · exact h

/-- The text before the marker holds no other line with the token. -/
theorem not_infix_before {echo : Bool} {lineEnd : LineEnd} {prompt : Text} {command : UnixCommand}
    {token status : Hex} {output : Bytes} (hprompt : SingleLine prompt)
    (hfresh : ¬(exitToken token <:+: command.text))
    (houtput : ¬(exitToken token <:+: normalizedText (ownOutput lineEnd output))) :
    ¬('\n' :: exitToken token <:+: echoText echo (submittedLine prompt command token status)
      ++ normalizedText (ownOutput lineEnd output)) := by
  intro h
  have hrest : '\n' :: exitToken token <:+: normalizedText (ownOutput lineEnd output) → False :=
    fun h => houtput ((List.suffix_cons _ _).isInfix.trans h)
  cases echo with
  | false => exact hrest h
  | true =>
    rw [echoText, if_pos rfl, List.append_assoc] at h
    rcases Newline.infix_cons_or_infix (singleLine_exitToken token).2 h with h | h
    · exact not_infix_echo hprompt hfresh h
    · exact houtput h

/-- A loop that reads anything examines all of it, when nothing stops it before. -/
theorem received_mem_chunkEnds {polls : List Poll} {buffer : Bytes} (h : received polls ≠ []) :
    buffer ++ received polls ∈ chunkEnds buffer polls := by
  induction polls generalizing buffer with
  | nil => exact absurd rfl h
  | cons p polls ih =>
    have hskip : p.bytes = [] → received polls ≠ [] := by
      intro hp
      rwa [received_cons, hp, List.nil_append] at h
    cases p with
    | idle => exact ih (hskip rfl)
    | closed => exact ih (hskip rfl)
    | chunk bs =>
      rw [received_cons, Poll.bytes, ← List.append_assoc]
      by_cases hrest : received polls = []
      · rw [hrest, List.append_nil]
        exact List.mem_cons_self
      · exact List.mem_cons_of_mem _ (ih hrest)

/-- **However the text of the marker is cut, the loop returns the text before it and the status.** -/
theorem readCommandResponse_of_text {prompt token before : Text} {code : ℤ} {polls : List Poll}
    (htoken : '\n' ∉ token) (hprompt : '\n' ∉ prompt) (hbefore : ¬('\n' :: token <:+: before))
    (htext : normalizedText (received polls)
      = before ++ '\n' :: (token ++ (str code ++ '\n' :: prompt)))
    (hcode : code.natAbs < 10 ^ maxStrDigits) (hopen : Open polls) :
    (readCommandResponse prompt token polls).1 = .ok (before, code) := by
  have hne : received polls ≠ [] := by
    intro hnil
    have hempty : normalizedText [] = [] := rfl
    rw [hnil, hempty] at htext
    simp at htext
  have haccept : examineResponse prompt token (received polls) = some (.ok (before, code)) :=
    examineResponse_of_text htoken hprompt hbefore htext hcode
  have hsome : (examineResponse prompt token ([] ++ received polls)).isSome := by
    rw [List.nil_append, haccept]
    rfl
  obtain ⟨a, rest, read, hloop, hpolls, -⟩ :=
    readLoop_stops hopen (received_mem_chunkEnds hne) hsome
  obtain ⟨read', hpolls', -, ha⟩ := readLoop_returned hloop
  -- a loop that returns earlier has matched the same marker
  have hanswer : a = .ok (before, code) := by
    rw [List.nil_append] at ha
    have hpre : received read' <+: received polls := by
      rw [hpolls', received_append]
      exact List.prefix_append _ _
    unfold examineResponse at ha
    split at ha
    · cases ha
    rename_i m hm
    obtain ⟨hb, hg, -⟩ := searchMarker_of_text htoken hprompt hbefore htext hpre hm
    split_ifs at ha
    rw [hg, int_str hcode, hb] at ha
    exact (Option.some.inj ha).symm
  rw [readCommandResponse, hloop, hanswer]

/-- **When a command result is faithful.**  Whatever the chunks, `execute` returns a result for the
reply to a command that does not hold the new token, and its output is the normalised raw output
exactly when this output starts with no line end, an echoed command holds no CR, and the LF before the
marker is not read as a part of the output. -/
theorem stdout_faithful_iff {console : ConsoleSessionInventoryConfig} {username password : Option Text}
    {command : UnixCommand} {token status : Hex} {echo : Bool} {lineEnd : LineEnd} {output : Bytes}
    {code : ℤ} {ch : Channel} (hfresh : ¬(exitToken token <:+: command.text))
    (houtput : ¬(Utf8.encode (exitToken token) <:+: output)) (hcode : code.natAbs < 10 ^ maxStrDigits)
    (hclosed : ch.closed = false) (hopen : Open (ch.unread ++ ch.reads.headD []))
    (hreply : received (ch.unread ++ ch.reads.headD [])
      = rawReply echo lineEnd console.prompt.text command token status output code) :
    ∃ result, (Session.exec (execute (console.resolve username password) command token status) ch).1
        = .ok result ∧ result.exitCode = code ∧
      (result.stdout = normalizedText output ↔ Faithful echo lineEnd command output) := by
  have hprompt := console.prompt.singleLine
  have htoken := (singleLine_exitToken token).2
  have hown : ¬(exitToken token <:+: normalizedText (ownOutput lineEnd output)) :=
    not_infix_ownOutput houtput
  have hbefore : ¬('\n' :: exitToken token <:+:
      echoText echo (submittedLine console.prompt.text command token status)
        ++ normalizedText (ownOutput lineEnd output)) := not_infix_before hprompt hfresh hown
  have htext : normalizedText (received (ch.unread ++ ch.reads.headD [])) = _ :=
    hreply ▸ normalizedText_rawReply hprompt
  have hfaithful : removeEcho (echoText echo (submittedLine console.prompt.text command token status)
        ++ normalizedText (ownOutput lineEnd output)) (submittedLine console.prompt.text command token status)
      = normalizedText output ↔ Faithful echo lineEnd command output := removeEcho_eq_iff hprompt hown
  generalize echoText echo (submittedLine console.prompt.text command token status)
    ++ normalizedText (ownOutput lineEnd output) = before at hbefore htext hfaithful
  have hread := readCommandResponse_of_text htoken hprompt.2 hbefore htext hcode hopen
  have hresult : (Session.exec (execute (console.resolve username password) command token status) ch).1
      = .ok ⟨removeEcho before (submittedLine console.prompt.text command token status), [], code⟩ :=
    exec_execute_ok hclosed hread
  exact ⟨_, hresult, rfl, hfaithful⟩

/-! ## A blank first line -/

/-- An inventory entry for the examples. -/
def echoConsole : ConsoleSessionInventoryConfig := ⟨rootMarker, rootMarker, rootMarker, rootMarker⟩

/-- A channel on which the reply to one command arrives in two chunks. -/
def echoChannel (reply : Bytes) : Channel where
  closed := false
  sent := []
  reads := [[.chunk (reply.take 40), .idle, .chunk (reply.drop 40)]]
  unread := []

theorem received_echoChannel (reply : Bytes) :
    received ((echoChannel reply).unread ++ (echoChannel reply).reads.headD []) = reply := by
  simp [echoChannel, Poll.bytes]

/-- One line of output after an echo. -/
theorem stdout_faithful_iff_sample :
    let token := sampleHex 'a' (by decide)
    let status := sampleHex 'b' (by decide)
    let command : UnixCommand := ⟨"uname".toList, false, false⟩
    let output := Utf8.encode "Linux\r\n".toList
    let ch := echoChannel (rawReply true .crlf echoConsole.prompt.text command token status output 7)
    ∃ result, (Session.exec (execute (echoConsole.resolve none none) command token status) ch).1
        = .ok result ∧ result.exitCode = 7 ∧
      (result.stdout = normalizedText output ↔ Faithful true .crlf command output) := by
  intro token status command output ch
  exact stdout_faithful_iff (by decide) (by decide +kernel) (lt_ten_pow_maxStrDigits (by decide)) rfl
    (by simp [Open, ch, echoChannel]) (received_echoChannel _)

/-- **A blank first line is lost.**  The command prints an empty line and a word; the result holds the
word only. -/
theorem blank_first_line_lost :
    let token := sampleHex 'a' (by decide)
    let status := sampleHex 'b' (by decide)
    let command : UnixCommand := ⟨"cat motd".toList, false, false⟩
    let output := Utf8.encode "\r\nhello\r\n".toList
    let ch := echoChannel (rawReply true .crlf echoConsole.prompt.text command token status output 0)
    ¬(Utf8.encode (exitToken token) <:+: output) ∧
      (Session.exec (execute (echoConsole.resolve none none) command token status) ch).1
        = .ok ⟨"hello\n".toList, [], 0⟩ ∧
      normalizedText output = "\nhello\n".toList := by
  decide +kernel

end HardwareTest.Transport
