import Mathlib

/-!
# Substring replacement and newline normalisation

`replace` is the leftmost, non-overlapping substitution of `str.replace` and `bytes.replace`.  Its
instance `unify`, which turns CRLF and then CR into LF, is read one byte at a time by the machine
`lines`: it writes LF for CR at once and drops an LF that follows.  So the normal form of a prefix is
a prefix of the normal form (`unify_isPrefix`), wherever the input was cut, and a CRLF splits the
normal form at the same place as the bytes (`unify_append_crlf`).
-/

namespace HardwareTest.Lib.Newline

variable {α : Type*} [DecidableEq α]

/-- Replacement with the first `skip` items belonging to an occurrence that was already replaced. -/
def replaceFrom (old new : List α) : ℕ → List α → List α
  | _, [] => []
  | skip + 1, _ :: s => replaceFrom old new skip s
  | 0, c :: s =>
    if old <+: c :: s then new ++ replaceFrom old new (old.length - 1) s
    else c :: replaceFrom old new 0 s

/-- `s.replace(old, new)` for a non-empty `old`. -/
def replace (old new s : List α) : List α := replaceFrom old new 0 s

@[simp] theorem replace_nil (old new : List α) : replace old new [] = [] := rfl

/-- Replacing one item is replacing each of its occurrences. -/
theorem replace_singleton (a : α) (new s : List α) :
    replace [a] new s = s.flatMap fun c => if c = a then new else [c] := by
  induction s with
  | nil => rfl
  | cons c s ih =>
    have hpre : ([a] <+: c :: s) ↔ c = a := by
      simp [List.cons_prefix_cons, eq_comm]
    by_cases hc : c = a
    · simp only [replace, replaceFrom, hpre, if_pos hc, List.flatMap_cons]
      exact congrArg (new ++ ·) ih
    · simp only [replace, replaceFrom, hpre, if_neg hc, List.flatMap_cons]
      exact congrArg (c :: ·) ih

/-- Items outside `old` and `new` do not come from nowhere. -/
theorem mem_replace_singleton {a b : α} {new s : List α} (h : b ∈ replace [a] new s) :
    b ∈ new ∨ b ∈ s := by
  rw [replace_singleton, List.mem_flatMap] at h
  obtain ⟨c, hc, hb⟩ := h
  split_ifs at hb with hca
  · exact .inl hb
  · exact .inr (by rwa [List.mem_singleton.mp hb])

theorem replace_cons_matched {old new s : List α} {c : α} (h : old <+: c :: s) :
    replace old new (c :: s) = new ++ replaceFrom old new (old.length - 1) s := by
  rw [replace, replaceFrom, if_pos h]

theorem replace_cons_unmatched {old new s : List α} {c : α} (h : ¬old <+: c :: s) :
    replace old new (c :: s) = c :: replace old new s := by
  rw [replace, replaceFrom, if_neg h]
  rfl

/-- What holds nothing of `new` starts the replaced list only where it starts the list itself. -/
theorem prefix_of_prefix_replace {old new s t : List α} (hne : new ≠ [])
    (hnew : ∀ c ∈ new, c ∉ t) (h : t <+: replace old new s) : t <+: s := by
  induction s generalizing t with
  | nil => exact h
  | cons c s ih =>
    cases t with
    | nil => exact List.nil_prefix
    | cons d t =>
      by_cases hold : old <+: c :: s
      · obtain ⟨e, new, rfl⟩ := List.exists_cons_of_ne_nil hne
        rw [replace_cons_matched hold, List.cons_append, List.cons_prefix_cons] at h
        exact absurd (h.1 ▸ List.mem_cons_self) (hnew e List.mem_cons_self)
      · rw [replace_cons_unmatched hold, List.cons_prefix_cons] at h
        obtain ⟨rfl, hrest⟩ := h
        apply (List.prefix_cons_inj d).mpr
        exact ih (fun e he hmem => hnew e he (List.mem_cons_of_mem d hmem)) hrest

omit [DecidableEq α] in
/-- What holds nothing of a list in front stands after it. -/
theorem infix_of_infix_append {t as bs : List α} (has : ∀ c ∈ as, c ∉ t) (h : t <:+: as ++ bs) :
    t <:+: bs := by
  induction as with
  | nil => exact h
  | cons c as ih =>
    rcases List.infix_cons_iff.mp h with h | h
    · cases t with
      | nil => exact List.nil_infix
      | cons d t =>
        have hd : d = c := (List.cons_prefix_cons.mp h).1
        exact absurd (hd ▸ List.mem_cons_self) (has c List.mem_cons_self)
    · exact ih (fun d hd => has d (List.mem_cons_of_mem c hd)) h

/-- What holds nothing of `new` occurs after a replacement only in what was kept. -/
theorem infix_of_infix_replaceFrom {old new s t : List α} (hne : new ≠ []) (hnew : ∀ c ∈ new, c ∉ t)
    {skip : ℕ} (h : t <:+: replaceFrom old new skip s) : t <:+: s := by
  induction s generalizing skip with
  | nil => rwa [replaceFrom] at h
  | cons c s ih =>
    have hrest : ∀ skip, t <:+: replaceFrom old new skip s → t <:+: c :: s := fun _ h =>
      (ih h).trans (List.suffix_cons c s).isInfix
    cases skip with
    | succ skip => exact hrest skip h
    | zero =>
      change t <:+: replace old new (c :: s) at h
      by_cases hold : old <+: c :: s
      · rw [replace_cons_matched hold] at h
        exact hrest _ (infix_of_infix_append hnew h)
      · rw [replace_cons_unmatched hold] at h
        rcases List.infix_cons_iff.mp h with hpre | h
        · rw [← replace_cons_unmatched hold] at hpre
          exact (prefix_of_prefix_replace hne hnew hpre).isInfix
        · exact hrest 0 h

/-- **Replacement adds no occurrences.**  What holds nothing of `new` occurs in the replaced list only
where it occurs in the list itself. -/
theorem infix_of_infix_replace {old new s t : List α} (hne : new ≠ [])
    (hnew : ∀ c ∈ new, c ∉ t) (h : t <:+: replace old new s) : t <:+: s :=
  infix_of_infix_replaceFrom hne hnew h

/-- **Replacement leaves no occurrence.**  What holds nothing of `new` is gone when it was replaced. -/
theorem not_infix_replaceFrom {old new s : List α} (hold : old ≠ []) (hne : new ≠ [])
    (hnew : ∀ c ∈ new, c ∉ old) (skip : ℕ) : ¬old <:+: replaceFrom old new skip s := by
  induction s generalizing skip with
  | nil =>
    rw [replaceFrom]
    exact fun h => hold (List.infix_nil.mp h)
  | cons c s ih =>
    cases skip with
    | succ skip => exact ih skip
    | zero =>
      change ¬old <:+: replace old new (c :: s)
      intro h
      by_cases hpre : old <+: c :: s
      · rw [replace_cons_matched hpre] at h
        exact ih _ (infix_of_infix_append hnew h)
      · rw [replace_cons_unmatched hpre] at h
        rcases List.infix_cons_iff.mp h with hfirst | h
        · -- an occurrence at the start was one before the replacement
          rw [← replace_cons_unmatched hpre] at hfirst
          exact hpre (prefix_of_prefix_replace hne hnew hfirst)
        · exact ih 0 h

theorem not_infix_replace {old new : List α} (hold : old ≠ []) (hne : new ≠ []) (hnew : ∀ c ∈ new, c ∉ old)
    (s : List α) : ¬old <:+: replace old new s :=
  not_infix_replaceFrom hold hne hnew 0

omit [DecidableEq α] in
/-- An item outside `t` divides the occurrences of `t`. -/
theorem infix_or_infix {t as bs : List α} {x : α} (hx : x ∉ t) (h : t <:+: as ++ x :: bs) :
    t <:+: as ∨ t <:+: bs := by
  rcases List.infix_append_iff_ne_nil.mp h with h | h | ⟨l₁, l₂, -, hne, ht, -, hpre⟩
  · exact .inl h
  · have hone : ∀ c ∈ [x], c ∉ t := fun c hc => List.mem_singleton.mp hc ▸ hx
    exact .inr (infix_of_infix_append hone h)
  · obtain ⟨d, l₂, rfl⟩ := List.exists_cons_of_ne_nil hne
    have hd : d = x := (List.cons_prefix_cons.mp hpre).1
    exact absurd (ht ▸ hd ▸ by simp) hx

omit [DecidableEq α] in
/-- What starts with the dividing item and does not hold it again stands before it or right at or
after it. -/
theorem infix_cons_or_infix {t as bs : List α} {x : α} (hx : x ∉ t) (h : x :: t <:+: as ++ x :: bs) :
    x :: t <:+: as ∨ t <:+: bs := by
  rcases List.infix_append_iff_ne_nil.mp h with h | h | ⟨l₁, l₂, hne₁, hne₂, ht, -, hpre⟩
  · exact .inl h
  · rcases List.infix_cons_iff.mp h with hpre | h
    · exact .inr ((List.prefix_cons_inj x).mp hpre).isInfix
    · exact .inr ((List.suffix_cons x t).isInfix.trans h)
  · obtain ⟨d, l₂, rfl⟩ := List.exists_cons_of_ne_nil hne₂
    obtain ⟨c, l₁, rfl⟩ := List.exists_cons_of_ne_nil hne₁
    have hd : d = x := (List.cons_prefix_cons.mp hpre).1
    rw [List.cons_append] at ht
    exact absurd ((List.cons.inj ht).2 ▸ hd ▸ by simp) hx

/-! ## CR and CRLF become LF -/

/-- `value.replace(b"\r\n", b"\n").replace(b"\r", b"\n")`. -/
def unify (bs : List UInt8) : List UInt8 :=
  replace [13] [10] (replace [13, 10] [10] bs)

/-- The same, one byte at a time; `afterCr` says that the byte before was a CR, written as LF. -/
def lines : Bool → List UInt8 → List UInt8
  | _, [] => []
  | afterCr, b :: bs =>
    if b = 13 then 10 :: lines true bs
    else if b = 10 ∧ afterCr then lines false bs
    else b :: lines false bs

/-- Whether the input read so far ends with a CR. -/
def endsCr : Bool → List UInt8 → Bool
  | afterCr, [] => afterCr
  | _, b :: bs => endsCr (b == 13) bs

theorem unify_cons_of_ne {b : UInt8} (hb : b ≠ 13) (bs : List UInt8) :
    unify (b :: bs) = b :: unify bs := by
  have hpre : ¬([13, 10] <+: b :: bs) := by
    rw [List.cons_prefix_cons]
    exact fun h => hb h.1.symm
  have hpre' : ∀ r : List UInt8, ¬([13] <+: b :: r) := by
    intro r h
    rw [List.cons_prefix_cons] at h
    exact hb h.1.symm
  simp only [unify, replace, replaceFrom, if_neg hpre, if_neg (hpre' _)]

theorem unify_cr_lf (bs : List UInt8) : unify (13 :: 10 :: bs) = 10 :: unify bs := by
  simp [unify, replace, replaceFrom]

theorem unify_cr {bs : List UInt8} (h : bs.head? ≠ some 10) :
    unify (13 :: bs) = 10 :: unify bs := by
  have hpre : ¬([13, 10] <+: 13 :: bs) := by
    rw [List.cons_prefix_cons]
    rintro ⟨-, t, rfl⟩
    exact h rfl
  simp only [unify, replace, replaceFrom, if_neg hpre]
  simp

/-- The machine computes the two replacements. -/
theorem lines_eq (bs : List UInt8) :
    lines false bs = unify bs ∧ lines true bs = unify (if bs.head? = some 10 then bs.tail else bs) := by
  induction bs with
  | nil => exact ⟨rfl, rfl⟩
  | cons b bs ih =>
    obtain ⟨ihf, iht⟩ := ih
    by_cases hcr : b = 13
    · subst hcr
      have hboth : ∀ a, lines a (13 :: bs) = unify (13 :: bs) := by
        intro a
        rw [lines, if_pos rfl, iht]
        split_ifs with hlf
        · obtain ⟨r, rfl⟩ : ∃ r, bs = 10 :: r := by
            cases bs with
            | nil => simp at hlf
            | cons c r => exact ⟨r, by simpa using hlf⟩
          exact (unify_cr_lf r).symm
        · exact (unify_cr hlf).symm
      exact ⟨hboth false, by rw [hboth true]; simp⟩
    · by_cases hlf : b = 10
      · subst hlf
        exact ⟨by rw [unify_cons_of_ne hcr, lines, if_neg hcr, if_neg (by simp), ihf],
          by rw [lines, if_neg hcr, if_pos (by simp), ihf]; simp⟩
      · have hboth : ∀ a, lines a (b :: bs) = unify (b :: bs) := by
          intro a
          rw [lines, if_neg hcr, if_neg (fun h => hlf h.1), ihf, unify_cons_of_ne hcr]
        exact ⟨hboth false, by rw [hboth true]; simp [hlf]⟩

theorem unify_eq_lines (bs : List UInt8) : unify bs = lines false bs := ((lines_eq bs).1).symm

/-- Reading two parts is reading the first, then the second after its last byte. -/
theorem lines_append (a : Bool) (as bs : List UInt8) :
    lines a (as ++ bs) = lines a as ++ lines (endsCr a as) bs := by
  induction as generalizing a with
  | nil => rfl
  | cons b as ih =>
    by_cases hcr : b = 13
    · simp [lines, endsCr, hcr, ih]
    · by_cases hskip : b = 10 ∧ a = true
      · simp [lines, endsCr, hskip, ih]
      · have hb : (b == 13) = false := by simpa using hcr
        simp [lines, endsCr, hcr, hskip, hb, ih]

/-- **Cutting the input does not change what was read.**  The normal form of a prefix is a prefix of
the normal form. -/
theorem unify_isPrefix (as bs : List UInt8) : unify as <+: unify (as ++ bs) := by
  rw [unify_eq_lines, unify_eq_lines, lines_append]
  exact List.prefix_append _ _

/-- **A CRLF splits the normal form.** -/
theorem unify_append_crlf (as bs : List UInt8) :
    unify (as ++ 13 :: 10 :: bs) = unify as ++ 10 :: unify bs := by
  simp only [unify_eq_lines, lines_append]
  simp [lines]

/-- A byte that is neither CR nor LF splits the normal form. -/
theorem unify_append_cons {b : UInt8} (hcr : b ≠ 13) (hlf : b ≠ 10) (as bs : List UInt8) :
    unify (as ++ b :: bs) = unify as ++ b :: unify bs := by
  simp only [unify_eq_lines, lines_append]
  rw [lines, if_neg hcr, if_neg (fun h => hlf h.1)]

theorem endsCr_eq (bs : List UInt8) : endsCr false bs = (bs.getLast? == some 13) := by
  rcases List.eq_nil_or_concat bs with rfl | ⟨as, b, rfl⟩
  · rfl
  · have happend : ∀ (a : Bool) (as : List UInt8), endsCr a (as ++ [b]) = (b == 13) := by
      intro a as
      induction as generalizing a with
      | nil => rfl
      | cons c as ih => exact ih _
    rw [List.concat_eq_append, happend, List.getLast?_concat]
    rfl

/-- An LF splits the normal form, unless it belongs to a CRLF. -/
theorem unify_append_lf {as : List UInt8} (h : as.getLast? ≠ some 13) (bs : List UInt8) :
    unify (as ++ 10 :: bs) = unify as ++ 10 :: unify bs := by
  have hcr : endsCr false as = false := by
    rw [endsCr_eq]
    simpa using h
  simp only [unify_eq_lines, lines_append, hcr]
  simp [lines]

/-- A CR at the end is an LF. -/
theorem unify_append_cr (as : List UInt8) : unify (as ++ [13]) = unify as ++ [10] := by
  simp only [unify_eq_lines, lines_append]
  simp [lines]

/-- Bytes without CR are in normal form. -/
theorem unify_of_not_mem {bs : List UInt8} (h : 13 ∉ bs) : unify bs = bs := by
  induction bs with
  | nil => rfl
  | cons b bs ih =>
    rw [List.mem_cons, not_or] at h
    rw [unify_cons_of_ne (fun hb => h.1 hb.symm), ih h.2]

/-- After bytes without CR the rest is normalised on its own. -/
theorem unify_append_of_not_mem {as : List UInt8} (h : 13 ∉ as) (bs : List UInt8) :
    unify (as ++ bs) = as ++ unify bs := by
  induction as with
  | nil => rfl
  | cons a as ih =>
    rw [List.mem_cons, not_or] at h
    rw [List.cons_append, unify_cons_of_ne (fun hb => h.1 hb.symm), ih h.2, List.cons_append]

/-- A line without LF starts the normal form only where it starts the input. -/
theorem isPrefix_of_isPrefix_lines {t bs : List UInt8} (ht : 10 ∉ t) (h : t <+: lines false bs) :
    t <+: bs := by
  induction bs generalizing t with
  | nil => exact h
  | cons b bs ih =>
    cases t with
    | nil => exact List.nil_prefix
    | cons c t =>
      rw [List.mem_cons, not_or] at ht
      by_cases hcr : b = 13
      · rw [lines, if_pos hcr] at h
        exact absurd (List.cons_prefix_cons.mp h).1.symm ht.1
      · rw [lines, if_neg hcr, if_neg (by simp)] at h
        obtain ⟨rfl, hrest⟩ := List.cons_prefix_cons.mp h
        exact (List.prefix_cons_inj c).mpr (ih ht.2 hrest)

/-- **Normalisation joins no bytes.**  What holds no LF occurs in the normal form only where it occurs
in the input. -/
theorem infix_of_infix_unify {t bs : List UInt8} (ht : 10 ∉ t) (h : t <:+: unify bs) : t <:+: bs := by
  have hlines : ∀ a, t <:+: lines a bs → t <:+: bs := by
    clear h
    induction bs with
    | nil =>
      intro a h
      exact h
    | cons b bs ih =>
      intro a h
      have hrest : ∀ a', t <:+: lines a' bs → t <:+: b :: bs := fun a' h' =>
        (ih a' h').trans (List.suffix_cons b bs).isInfix
      rw [lines] at h
      split_ifs at h with hcr hskip
      · rcases List.infix_cons_iff.mp h with h | h
        · cases t with
          | nil => exact List.nil_infix
          | cons c t => exact absurd ((List.cons_prefix_cons.mp h).1 ▸ List.mem_cons_self) ht
        · exact hrest true h
      · exact hrest false h
      · rcases List.infix_cons_iff.mp h with h | h
        · cases t with
          | nil => exact List.nil_infix
          | cons c t =>
            obtain ⟨rfl, hpre⟩ := List.cons_prefix_cons.mp h
            rw [List.mem_cons, not_or] at ht
            exact ((List.prefix_cons_inj c).mpr (isPrefix_of_isPrefix_lines ht.2 hpre)).isInfix
        · exact hrest false h
  exact hlines false (unify_eq_lines bs ▸ h)

/-- **Equal normal forms.**  A prefix with the normal form of the whole input leaves out at most the
LF of a CRLF. -/
theorem eq_of_unify_eq {p r : List UInt8} (hp : p <+: r) (h : unify p = unify r)
    (hlast : r.getLast? ≠ some 10) : p = r := by
  obtain ⟨w, rfl⟩ := hp
  rw [unify_eq_lines, unify_eq_lines, lines_append, List.self_eq_append_right] at h
  cases w with
  | nil => simp
  | cons b w =>
    rw [lines] at h
    split_ifs at h with hcr hskip
    obtain ⟨rfl, -⟩ := hskip
    cases w with
    | nil => simp at hlast
    | cons c w =>
      rw [lines] at h
      split_ifs at h with hcr' hskip'
      exact absurd hskip'.2 (by simp)

end HardwareTest.Lib.Newline
