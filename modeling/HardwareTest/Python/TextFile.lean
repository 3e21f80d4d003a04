import HardwareTest.Python.Text

/-!
# Text files that grow

A file in text mode is read by lines with universal newlines: CR and CRLF count as LF.  A position in
the file is the number of its characters before it.

* `translate` — the text with its newlines translated, one character at a time;
* `readline` — the next line and what is left;
* `Reads` — what the lines up to a position have given, while the file grows behind it.
-/

namespace HardwareTest.Python

/-- Newlines translated to LF; `afterCr` says that the character before was a CR, written as LF. -/
def translate : Bool → Text → Text
  | _, [] => []
  | afterCr, c :: s =>
    if c = '\r' then '\n' :: translate true s
    else if c = '\n' ∧ afterCr then translate false s
    else c :: translate false s

/-- Whether the text read so far ends with a CR. -/
def endsCr : Bool → Text → Bool
  | afterCr, [] => afterCr
  | _, c :: s => endsCr (c == '\r') s

/-- `readline()` in text mode: a line with its newline, and the text after it. -/
def readline : Text → Text × Text
  | [] => ([], [])
  | c :: s =>
    if c = '\n' then (['\n'], s)
    else if c = '\r' then (['\n'], if s.head? = some '\n' then s.tail else s)
    else (c :: (readline s).1, (readline s).2)

/-- A text of whole lines. -/
def Whole (s : Text) : Prop := s = [] ∨ s.getLast? = some '\n'

instance (s : Text) : Decidable (Whole s) := inferInstanceAs (Decidable (_ ∨ _))

/-- A text with a newline at its end, also when it had none. -/
def closed (s : Text) : Text := if Whole s then s else s ++ ['\n']

/-! ## Translated newlines -/

theorem translate_append (afterCr : Bool) (s t : Text) :
    translate afterCr (s ++ t) = translate afterCr s ++ translate (endsCr afterCr s) t := by
  induction s generalizing afterCr with
  | nil => rfl
  | cons c s ih =>
    show translate afterCr (c :: (s ++ t)) = _
    rw [translate, translate, endsCr]
    by_cases hcr : c = '\r'
    · rw [if_pos hcr, if_pos hcr, ih, hcr]
      rfl
    · rw [if_neg hcr, if_neg hcr, beq_false_of_ne hcr]
      by_cases hlf : c = '\n' ∧ afterCr = true
      · rw [if_pos hlf, if_pos hlf, ih]
      · rw [if_neg hlf, if_neg hlf, ih]
        rfl

/-- After a CR only an LF is read differently. -/
theorem translate_of_head_ne {s : Text} (h : s.head? ≠ some '\n') (afterCr : Bool) :
    translate afterCr s = translate false s := by
  cases s with
  | nil => rfl
  | cons c s =>
    have hc : c ≠ '\n' := fun heq => h (congrArg some heq)
    simp only [translate, hc, false_and, if_false]

theorem endsCr_append (afterCr : Bool) (s : Text) {t : Text} (h : t ≠ []) :
    endsCr afterCr (s ++ t) = endsCr false t := by
  induction s generalizing afterCr with
  | nil =>
    cases t with
    | nil => exact absurd rfl h
    | cons c t => rfl
  | cons c s ih => exact ih _

/-- A text that ends with a newline ends with one when it is translated. -/
theorem getLast_translate {s : Text} (h : s.getLast? = some '\n' ∨ s.getLast? = some '\r') :
    (translate false s).getLast? = some '\n' := by
  induction s using List.reverseRecOn with
  | nil => simp at h
  | append_singleton s c ih =>
    rw [List.getLast?_concat, Option.some.injEq, Option.some.injEq] at h
    rw [translate_append]
    by_cases hcr : c = '\r'
    · rw [translate, if_pos hcr]
      exact List.getLast?_concat
    · have hlf : c = '\n' := h.resolve_right hcr
      rw [translate, if_neg hcr]
      by_cases hends : endsCr false s = true
      · rw [if_pos ⟨hlf, hends⟩, translate, List.append_nil]
        refine ih (.inr ?_)
        rcases List.eq_nil_or_concat s with rfl | ⟨t, d, rfl⟩
        · cases hends
        · rw [List.concat_eq_append, endsCr_append _ _ (List.cons_ne_nil d [])] at hends
          rw [List.concat_eq_append, List.getLast?_concat, eq_of_beq hends]
      · rw [if_neg fun h => hends h.2, hlf]
        exact List.getLast?_concat

/-! ## Lines -/

/-- What `readline` takes off a text: a line with its newline, or all that is left without one. -/
structure IsLineOf (line raw rest : Text) : Prop where
  nonempty : raw ≠ []
  translated : translate false raw = line
  ends : (∃ text, line = text ++ ['\n'] ∧ '\n' ∉ text ∧ (endsCr false raw = true → rest.head? ≠ some '\n')) ∨
    (rest = [] ∧ '\n' ∉ line)

theorem readline_spec {s : Text} (h : s ≠ []) :
    ∃ raw, s = raw ++ (readline s).2 ∧ IsLineOf (readline s).1 raw (readline s).2 := by
  induction s with
  | nil => exact absurd rfl h
  | cons c s ih =>
    rw [readline]
    by_cases hlf : c = '\n'
    · rw [if_pos hlf, hlf]
      exact ⟨['\n'], rfl, by simp, rfl, .inl ⟨[], rfl, List.not_mem_nil, nofun⟩⟩
    rw [if_neg hlf]
    by_cases hcr : c = '\r'
    · rw [if_pos hcr, hcr]
      by_cases hnext : s.head? = some '\n'
      · obtain ⟨t, rfl⟩ : ∃ t, s = '\n' :: t := ⟨s.tail, List.eq_cons_of_mem_head? hnext⟩
        exact ⟨['\r', '\n'], rfl, by simp, rfl, .inl ⟨[], rfl, List.not_mem_nil, nofun⟩⟩
      · rw [if_neg hnext]
        exact ⟨['\r'], rfl, by simp, rfl, .inl ⟨[], rfl, List.not_mem_nil, fun _ => hnext⟩⟩
    · rw [if_neg hcr]
      have htranslate : ∀ raw, translate false (c :: raw) = c :: translate false raw := fun raw => by
        simp only [translate, hcr, hlf, false_and, if_false]
      have hends : ∀ raw, endsCr false (c :: raw) = endsCr false raw := fun raw => by
        rw [endsCr, beq_false_of_ne hcr]
      have hmem : ∀ t : Text, '\n' ∉ t → '\n' ∉ c :: t := fun t ht hmem =>
        (List.mem_cons.mp hmem).elim (fun heq => hlf heq.symm) ht
      rcases s.eq_nil_or_concat with rfl | ⟨_, _, hs⟩
      · exact ⟨[c], rfl, by simp, htranslate [], .inr ⟨rfl, hmem [] List.not_mem_nil⟩⟩
      · obtain ⟨raw, hraw, hline⟩ := ih (by rw [hs]; simp)
        refine ⟨c :: raw, congrArg (c :: ·) hraw, by simp, ?_, ?_⟩
        · rw [htranslate, hline.translated]
        · rcases hline.ends with ⟨text, htext, hnone, hcut⟩ | ⟨hrest, hnone⟩
          · exact .inl ⟨c :: text, by rw [htext]; rfl, hmem text hnone, by rwa [hends]⟩
          · exact .inr ⟨hrest, hmem _ hnone⟩

/-- Only at the end there is no line. -/
theorem readline_eq_nil {s : Text} (h : (readline s).1 = []) : s = [] := by
  cases s with
  | nil => rfl
  | cons c s =>
    rw [readline] at h
    split_ifs at h

theorem rstrip_line {text : Text} (h : '\n' ∉ text) :
    rstrip (· == '\n') (text ++ ['\n']) = text ∧ rstrip (· == '\n') text = text := by
  have hstrip : rstrip (· == '\n') text = text := by
    rcases hr : text.reverse with _ | ⟨c, t⟩
    · rw [rstrip, hr, List.reverse_eq_nil_iff.mp hr]
      rfl
    · have hc : c ≠ '\n' := fun heq => h (List.mem_reverse.mp (hr ▸ heq ▸ List.mem_cons_self))
      rw [rstrip, hr, List.dropWhile_cons_of_neg (by simpa using hc), ← hr, List.reverse_reverse]
  refine ⟨?_, hstrip⟩
  calc rstrip (· == '\n') (text ++ ['\n'])
    _ = rstrip (· == '\n') text := by rw [rstrip, List.reverse_append]; rfl
    _ = text := hstrip

/-! ## A growing file -/

/-- The lines up to `offset` of a file, each with a newline: whole lines, or the whole file with a last
line that had no newline. -/
inductive Reads (s : Text) (offset : ℕ) (out : Text) : Prop
  | complete (le : offset ≤ s.length) (eq : out = translate false (s.take offset)) (whole : Whole out)
      (cut : endsCr false (s.take offset) = true → (s.drop offset).head? ≠ some '\n')
  | unfinished (eq_length : offset = s.length) (eq : out = translate false s ++ ['\n'])
      (open_end : ¬Whole (translate false s))

/-- A file that may go on after `s` with `t` without changing the lines of `s`. -/
def Continues (s t : Text) : Prop :=
  s = [] ∨ s.getLast? = some '\n' ∨ (s.getLast? = some '\r' ∧ t.head? ≠ some '\n')

instance (s t : Text) : Decidable (Continues s t) := inferInstanceAs (Decidable (_ ∨ _ ∨ _))

namespace Reads

variable {s : Text} {offset : ℕ} {out : Text}

theorem start (s : Text) : Reads s 0 [] :=
  .complete (Nat.zero_le _) rfl (.inl rfl) nofun

/-- The lines after a position are translated on their own. -/
theorem translate_eq {cut : Text} (hcut : endsCr false cut = true → s.head? ≠ some '\n') :
    translate false (cut ++ s) = translate false cut ++ translate false s := by
  rw [translate_append]
  by_cases hends : endsCr false cut = true
  · rw [translate_of_head_ne (hcut hends)]
  · rw [Bool.eq_false_of_not_eq_true hends]

/-- What was read is a prefix of the file, its last line ended. -/
theorem isPrefix (h : Reads s offset out) : out <+: closed (translate false s) := by
  cases h with
  | complete le eq whole cut =>
    have hsplit : translate false s = out ++ translate false (s.drop offset) := by
      rw [eq, ← translate_eq cut, List.take_append_drop]
    have hclosed : translate false s <+: closed (translate false s) := by
      rw [closed]
      split_ifs
      · exact List.prefix_refl _
      · exact List.prefix_append _ _
    exact List.IsPrefix.trans ⟨translate false (s.drop offset), hsplit.symm⟩ hclosed
  | unfinished heq eq open_end =>
    rw [closed, if_neg open_end, eq]

/-- A file that is read to its end was read whole. -/
theorem eq_closed (h : Reads s offset out) (hend : s.drop offset = []) : out = closed (translate false s) := by
  cases h with
  | complete le eq whole cut =>
    have hlength : s.take offset = s := List.take_of_length_le (List.drop_eq_nil_iff.mp hend)
    rw [hlength] at eq
    rw [← eq, closed, if_pos whole]
  | unfinished heq eq open_end => rw [closed, if_neg open_end, eq]

/-- Reading the next line. -/
theorem next (h : Reads s offset out) (hline : (readline (s.drop offset)).1 ≠ []) :
    Reads s (s.length - (readline (s.drop offset)).2.length)
      (out ++ rstrip (· == '\n') (readline (s.drop offset)).1 ++ ['\n']) := by
  have hnonempty : s.drop offset ≠ [] := fun heq => hline (by rw [heq]; rfl)
  obtain ⟨raw, hraw, hraw_ne, htranslated, hends⟩ := readline_spec hnonempty
  cases h with
  | unfinished heq => exact absurd (by rw [heq, List.drop_length]) hnonempty
  | complete le eq whole cut =>
    have hs : s.take offset ++ raw ++ (readline (s.drop offset)).2 = s := by
      rw [List.append_assoc, ← hraw, List.take_append_drop]
    have hlength : s.length - (readline (s.drop offset)).2.length = (s.take offset ++ raw).length := by
      have := congrArg List.length hs
      rw [List.length_append] at this
      omega
    have htake : s.take (s.take offset ++ raw).length = s.take offset ++ raw :=
      (congrArg (List.take (s.take offset ++ raw).length) hs.symm).trans List.take_left
    have hdrop : s.drop (s.take offset ++ raw).length = (readline (s.drop offset)).2 :=
      (congrArg (List.drop (s.take offset ++ raw).length) hs.symm).trans List.drop_left
    have hhead : raw.head? = (s.drop offset).head? := by
      rcases raw with _ | ⟨c, r⟩
      · exact absurd rfl hraw_ne
      · rw [hraw]
        rfl
    have hread : translate false (s.take offset ++ raw) = out ++ (readline (s.drop offset)).1 := by
      rw [translate_eq fun h => hhead ▸ cut h, ← eq, htranslated]
    rw [hlength]
    rcases hends with ⟨text, htext, hnone, hcut⟩ | ⟨hrest, hnone⟩
    · refine .complete ?_ ?_ ?_ ?_
      · exact (congrArg List.length hs).symm ▸ by simp
      · rw [htake, hread, htext, (rstrip_line hnone).1, List.append_assoc]
      · exact .inr List.getLast?_concat
      · rw [htake, hdrop, endsCr_append _ _ hraw_ne]
        exact hcut
    · rw [hrest, List.append_nil] at hs
      refine .unfinished (congrArg List.length hs) ?_ ?_
      · rw [(rstrip_line hnone).2, ← hread, hs]
      · rw [← hs, hread]
        rintro (hnil | hlast)
        · exact hline (List.append_eq_nil_iff.mp hnil).2
        · rw [List.getLast?_append_of_ne_nil _ hline] at hlast
          exact hnone (List.mem_of_getLast? hlast)

/-- The file may grow, unless the last line that was read goes on. -/
theorem append (h : Reads s offset out) {t : Text} (ht : offset = s.length → Continues s t) :
    Reads (s ++ t) offset out := by
  cases h with
  | complete le eq whole cut =>
    refine .complete (by rw [List.length_append]; omega) (by rw [List.take_append_of_le_length le, eq])
      whole fun hends => ?_
    rw [List.take_append_of_le_length le] at hends
    rw [List.drop_append_of_le_length le]
    rcases hdrop : s.drop offset with _ | ⟨c, r⟩
    · have hlength : offset = s.length := le_antisymm le (List.drop_eq_nil_iff.mp hdrop)
      rw [hlength, List.take_length] at hends
      rcases ht hlength with rfl | hlf | ⟨-, hhead⟩
      · cases hends
      · obtain ⟨r, rfl⟩ := List.getLast?_eq_some_iff.mp hlf
        rw [endsCr_append _ _ (List.cons_ne_nil _ _)] at hends
        cases hends
      · exact hhead
    · have := cut hends
      rwa [hdrop] at this
  | unfinished heq eq open_end =>
    exfalso
    rcases ht heq with rfl | hlf | ⟨hcr, -⟩
    · exact open_end (.inl rfl)
    · exact open_end (.inr (getLast_translate (.inl hlf)))
    · exact open_end (.inr (getLast_translate (.inr hcr)))

end Reads

end HardwareTest.Python
