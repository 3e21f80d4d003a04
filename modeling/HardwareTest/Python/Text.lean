import HardwareTest.Lib.Newline

/-!
# The string functions of the language that the code calls

Text is a list of characters (Unicode scalar values).  White space, line boundaries and decimal
digits are those of the language's Unicode database: `decimalZeros` lists the digit zero of every
block of ten decimal digits, `\d` matches exactly the characters `decimalDigit` recognises, and
`int` reads them with their values.
-/

namespace HardwareTest.Python

open HardwareTest.Lib.Newline

/-- A string as the sequence of its characters. -/
abbrev Text := List Char

instance lawfulBEqText : LawfulBEq Text := inferInstance

/-- The digit zero of each block of decimal digits (category Nd). -/
def decimalZeros : List ℕ :=
  [0x30, 0x660, 0x6F0, 0x7C0, 0x966, 0x9E6, 0xA66, 0xAE6, 0xB66, 0xBE6, 0xC66, 0xCE6, 0xD66, 0xDE6,
   0xE50, 0xED0, 0xF20, 0x1040, 0x1090, 0x17E0, 0x1810, 0x1946, 0x19D0, 0x1A80, 0x1A90, 0x1B50,
   0x1BB0, 0x1C40, 0x1C50, 0xA620, 0xA8D0, 0xA900, 0xA9D0, 0xA9F0, 0xAA50, 0xABF0, 0xFF10, 0x104A0,
   0x10D30, 0x10D40, 0x11066, 0x110F0, 0x11136, 0x111D0, 0x112F0, 0x11450, 0x114D0, 0x11650, 0x116C0,
   0x116D0, 0x116DA, 0x11730, 0x118E0, 0x11950, 0x11BF0, 0x11C50, 0x11D50, 0x11DA0, 0x11F50, 0x16130,
   0x16A60, 0x16AC0, 0x16B50, 0x16D70, 0x1CCF0, 0x1D7CE, 0x1D7D8, 0x1D7E2, 0x1D7EC, 0x1D7F6, 0x1E140,
   0x1E2F0, 0x1E4F0, 0x1E5F1, 0x1E950, 0x1FBF0]

/-- The value of a decimal digit, or `none` for another character. -/
def decimalDigit (c : Char) : Option ℕ :=
  (decimalZeros.find? fun z => decide (z ≤ c.toNat ∧ c.toNat < z + 10)).map fun z => c.toNat - z

/-- `\d` of a pattern on text. -/
def isDecimal (c : Char) : Bool := (decimalDigit c).isSome

/-- `str.isspace` of one character. -/
def isSpace (c : Char) : Bool :=
  let n := c.toNat
  decide ((9 ≤ n ∧ n ≤ 13) ∨ (0x1C ≤ n ∧ n ≤ 0x20) ∨ n = 0x85 ∨ n = 0xA0 ∨ n = 0x1680 ∨
    (0x2000 ≤ n ∧ n ≤ 0x200A) ∨ n = 0x2028 ∨ n = 0x2029 ∨ n = 0x202F ∨ n = 0x205F ∨ n = 0x3000)

/-- A character at which `str.splitlines` ends a line. -/
def isLineBoundary (c : Char) : Bool :=
  let n := c.toNat
  decide ((10 ≤ n ∧ n ≤ 13) ∨ (0x1C ≤ n ∧ n ≤ 0x1E) ∨ n = 0x85 ∨ n = 0x2028 ∨ n = 0x2029)

/-- `s.rstrip(chars)`, with the set of characters as a predicate. -/
def rstrip (p : Char → Bool) (s : Text) : Text := (s.reverse.dropWhile p).reverse

/-- `s.lstrip("\n")`. -/
def lstripNewlines (s : Text) : Text := s.dropWhile (· == '\n')

/-- `s.strip()`. -/
def strip (s : Text) : Text := rstrip isSpace (s.dropWhile isSpace)

/-- `s.splitlines()`: a CRLF is one boundary, and a boundary at the end opens no further line. -/
def splitlinesFrom : Text → Text → List Text
  | [], [] => []
  | line, [] => [line.reverse]
  | line, '\r' :: '\n' :: s => line.reverse :: splitlinesFrom [] s
  | line, c :: s =>
    if isLineBoundary c then line.reverse :: splitlinesFrom [] s else splitlinesFrom (c :: line) s

def splitlines (s : Text) : List Text := splitlinesFrom [] s

/-! ## `int` of a string -/

/-- The digits after the first: a single underscore may stand between two of them. -/
def intDigits : ℕ → Text → Option (ℕ × ℕ)
  | acc, [] => some (acc, 0)
  | acc, '_' :: c :: s => do
    let d ← decimalDigit c
    let r ← intDigits (acc * 10 + d) s
    return (r.1, r.2 + 1)
  | acc, c :: s => do
    let d ← decimalDigit c
    let r ← intDigits (acc * 10 + d) s
    return (r.1, r.2 + 1)

/-- The number of digits `int` reads and `int.__repr__` writes at most. -/
def maxStrDigits : ℕ := 4300

/-- A run of digits, at most `maxStrDigits` of them. -/
def unsignedInt : Text → Option ℕ
  | [] => none
  | c :: s => do
    let d ← decimalDigit c
    let r ← intDigits d s
    if r.2 + 1 ≤ maxStrDigits then some r.1 else none

/-- `int(s)`; `none` stands for the `ValueError`. -/
def int (s : Text) : Option ℤ :=
  match strip s with
  | '-' :: r => (unsignedInt r).map fun n : ℕ => -(n : ℤ)
  | '+' :: r => (unsignedInt r).map fun n : ℕ => (n : ℤ)
  | r => (unsignedInt r).map fun n : ℕ => (n : ℤ)

/-- `str(n)`. -/
def str (n : ℤ) : Text :=
  if n < 0 then '-' :: Nat.toDigits 10 n.natAbs else Nat.toDigits 10 n.natAbs

/-! ## `shlex.quote` -/

/-- A character the shell reads literally outside quotes. -/
def isShellSafe (c : Char) : Bool :=
  let n := c.toNat
  decide ((0x30 ≤ n ∧ n ≤ 0x39) ∨ (0x41 ≤ n ∧ n ≤ 0x5A) ∨ (0x61 ≤ n ∧ n ≤ 0x7A)) ||
    "%+,-./:=@_".toList.contains c

/-- `shlex.quote(s)`. -/
def quote (s : Text) : Text :=
  if s = [] then ['\'', '\'']
  else if s.all isShellSafe then s
  else '\'' :: replace ['\''] ['\'', '"', '\'', '"', '\''] s ++ ['\'']

/-- Quoting adds quote characters and nothing else. -/
theorem mem_quote {s : Text} {c : Char} (h : c ∈ quote s) : c = '\'' ∨ c = '"' ∨ c ∈ s := by
  unfold quote at h
  split_ifs at h with hempty hsafe
  · simp at h
    exact .inl h
  · exact .inr (.inr h)
  · rcases List.mem_append.mp h with h | h
    · rcases List.mem_cons.mp h with rfl | h
      · exact .inl rfl
      · rcases mem_replace_singleton h with h | h
        · simp at h
          tauto
        · exact .inr (.inr h)
    · exact .inl (List.mem_singleton.mp h)

/-- Quoting keeps every character. -/
theorem mem_quote_of_mem {s : Text} {c : Char} (hc : c ≠ '\'') (h : c ∈ s) : c ∈ quote s := by
  unfold quote
  split_ifs with hempty hsafe
  · exact absurd (hempty ▸ h) List.not_mem_nil
  · exact h
  · have hmem : c ∈ replace ['\''] ['\'', '"', '\'', '"', '\''] s := by
      rw [replace_singleton, List.mem_flatMap]
      exact ⟨c, h, by rw [if_neg hc]; exact List.mem_singleton_self c⟩
    simp [hmem]

/-- **Quoting adds no occurrences.**  What holds no quote character occurs in the quoted text only where
it occurs in the text. -/
theorem infix_of_infix_quote {s t : Text} (hsingle : '\'' ∉ t) (hdouble : '"' ∉ t)
    (h : t <:+: quote s) : t <:+: s := by
  have hnew : ∀ c ∈ ['\'', '"', '\'', '"', '\''], c ∉ t := by
    intro c hc
    simp only [List.mem_cons, List.not_mem_nil, or_false] at hc
    rcases hc with rfl | rfl | rfl | rfl | rfl <;> assumption
  have hone : ∀ c ∈ ['\''], c ∉ t := fun c hc => List.mem_singleton.mp hc ▸ hsingle
  have hempty : t <:+: ([] : Text) → t <:+: s := fun h => h.trans List.nil_infix
  unfold quote at h
  split_ifs at h with hnil hsafe
  · exact hempty (infix_of_infix_append hone (infix_of_infix_append hone h))
  · exact h
  · rcases infix_or_infix hsingle h with h | h
    · exact infix_of_infix_replace (List.cons_ne_nil _ _) hnew (infix_of_infix_append hone h)
    · exact hempty h

/-! ## Reading back what was written -/

/-- ASCII digits are the first block of decimal digits. -/
theorem decimalDigit_of_isDigit {c : Char} (h : c.isDigit) : decimalDigit c = some (c.toNat - 48) := by
  have hc : 48 ≤ c.toNat ∧ c.toNat ≤ 57 := by
    simp only [Char.isDigit, ge_iff_le, Bool.and_eq_true, decide_eq_true_eq] at h
    exact h
  have hz : decide (0x30 ≤ c.toNat ∧ c.toNat < 0x30 + 10) = true := by
    simp only [decide_eq_true_eq]
    omega
  simp only [decimalDigit, decimalZeros, List.find?, hz, Option.map_some]

theorem isSpace_of_isDigit {c : Char} (h : c.isDigit) : isSpace c = false := by
  have hc : 48 ≤ c.toNat ∧ c.toNat ≤ 57 := by
    simp only [Char.isDigit, ge_iff_le, Bool.and_eq_true, decide_eq_true_eq] at h
    exact h
  simp only [isSpace, decide_eq_false_iff_not]
  omega

/-- A run of ASCII digits is read with the usual place values. -/
theorem intDigits_of_isDigit (s : Text) (acc : ℕ) (h : ∀ c ∈ s, c.isDigit) :
    intDigits acc s = some (Nat.ofDigitChars 10 s acc, s.length) := by
  induction s generalizing acc with
  | nil => rfl
  | cons c s ih =>
    have hc := h c List.mem_cons_self
    have hne : c ≠ '_' := fun heq => by
      rw [heq] at hc
      exact absurd hc (by decide)
    rw [intDigits]
    · simp only [decimalDigit_of_isDigit hc, ih _ (fun d hd => h d (List.mem_cons_of_mem c hd)),
        Option.bind_eq_bind, Option.bind_some, Nat.ofDigitChars_cons, List.length_cons]
      simp [Nat.mul_comm]
    · exact fun _ _ heq _ => hne heq

theorem unsignedInt_toDigits {n : ℕ} (h : n < 10 ^ maxStrDigits) :
    unsignedInt (Nat.toDigits 10 n) = some n := by
  have hdig : ∀ c ∈ Nat.toDigits 10 n, c.isDigit := fun c hc =>
    Nat.isDigit_of_mem_toDigits (by omega) (by omega) hc
  have hlen : (Nat.toDigits 10 n).length ≤ maxStrDigits :=
    (Nat.length_toDigits_le_iff (by omega) (by decide)).mpr h
  have hval := Nat.ofDigitChars_ten_toDigits (n := n)
  cases hs : Nat.toDigits 10 n with
  | nil => exact absurd hs Nat.toDigits_ne_nil
  | cons c s =>
    rw [hs] at hdig hlen hval
    have hc := hdig c List.mem_cons_self
    have hrest := intDigits_of_isDigit s (c.toNat - 48) fun d hd => hdig d (List.mem_cons_of_mem c hd)
    rw [Nat.ofDigitChars_cons] at hval
    simp only [unsignedInt, decimalDigit_of_isDigit hc, hrest, Option.bind_eq_bind, Option.bind_some]
    rw [List.length_cons] at hlen
    rw [if_pos hlen]
    simpa using hval

theorem strip_eq_self {s : Text} (h : ∀ c ∈ s, isSpace c = false) : strip s = s := by
  have hdrop : ∀ t : Text, (∀ c ∈ t, isSpace c = false) → t.dropWhile isSpace = t := by
    intro t ht
    cases t with
    | nil => rfl
    | cons c t => simp [List.dropWhile, ht c List.mem_cons_self]
  rw [strip, rstrip, hdrop s h, hdrop s.reverse (fun c hc => h c (List.mem_reverse.mp hc)),
    List.reverse_reverse]

theorem isDigit_of_mem_toDigits {n : ℕ} {c : Char} (h : c ∈ Nat.toDigits 10 n) : c.isDigit :=
  Nat.isDigit_of_mem_toDigits (by omega) (by omega) h

/-- One digit is within the digit limit. -/
theorem lt_ten_pow_maxStrDigits {n : ℕ} (h : n < 10) : n < 10 ^ maxStrDigits :=
  lt_of_lt_of_le h (Nat.le_self_pow (by decide) 10)

/-- **`int` undoes `str`** within the digit limit. -/
theorem int_str {n : ℤ} (h : n.natAbs < 10 ^ maxStrDigits) : int (str n) = some n := by
  have hdig := unsignedInt_toDigits h
  unfold str int
  split_ifs with hneg
  · rw [strip_eq_self]
    · show (unsignedInt (Nat.toDigits 10 n.natAbs)).map (fun m : ℕ => -(m : ℤ)) = some n
      rw [hdig, Option.map_some]
      exact congrArg some (by omega)
    · intro c hc
      rcases List.mem_cons.mp hc with rfl | hc
      · decide
      · exact isSpace_of_isDigit (isDigit_of_mem_toDigits hc)
  · rw [strip_eq_self fun c hc => isSpace_of_isDigit (isDigit_of_mem_toDigits hc)]
    cases hs : Nat.toDigits 10 n.natAbs with
    | nil => exact absurd hs Nat.toDigits_ne_nil
    | cons c s =>
      have hc : c.isDigit := isDigit_of_mem_toDigits (n := n.natAbs) (by rw [hs]; exact List.mem_cons_self)
      rw [hs] at hdig
      have hm : c ≠ '-' := fun heq => absurd (heq ▸ hc) (by decide)
      have hp : c ≠ '+' := fun heq => absurd (heq ▸ hc) (by decide)
      split
      · rename_i heq
        exact absurd (List.cons.inj heq).1 hm
      · rename_i heq
        exact absurd (List.cons.inj heq).1 hp
      · rw [hdig, Option.map_some]
        exact congrArg some (by omega)

end HardwareTest.Python
