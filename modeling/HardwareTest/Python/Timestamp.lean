import HardwareTest.Lib.Json

/-!
# Timestamps in UTC

A timestamp with its date and its time of day, and the ISO 8601 text that JSON has of it.

* `format`, `parse` — the text, and the timestamp of a text;
* `parse_format` — the text of a timestamp is read back.
-/

namespace HardwareTest.Python.Timestamp

open HardwareTest.Lib.Json

/-! ## Numbers of a fixed width -/

def pad : ℕ → ℕ → Str
  | 0, _ => []
  | width + 1, n => pad width (n / 10) ++ [48 + n % 10]

/-- A number of a fixed width, and the text after it. -/
def fixedNumber (width : ℕ) (s : Str) : Option (ℕ × Str) :=
  if width ≤ s.length ∧ (s.take width).all isDigit = true then
    some (digitsValue (s.take width), s.drop width)
  else none

theorem length_pad (width n : ℕ) : (pad width n).length = width := by
  induction width generalizing n with
  | zero => rfl
  | succ width ih => rw [pad, List.length_append, ih, List.length_singleton]

theorem isDigit_pad (width n : ℕ) : ∀ c ∈ pad width n, isDigit c = true := by
  induction width generalizing n with
  | zero => exact nofun
  | succ width ih =>
    rw [pad, List.forall_mem_append, List.forall_mem_singleton]
    exact ⟨ih (n / 10), decide_eq_true (by omega)⟩

theorem digitsValue_pad {width n : ℕ} (h : n < 10 ^ width) : digitsValue (pad width n) = n := by
  induction width generalizing n with
  | zero =>
    obtain rfl : n = 0 := by omega
    rfl
  | succ width ih =>
    have hdiv : n / 10 < 10 ^ width := by
      rw [Nat.div_lt_iff_lt_mul (by decide), ← pow_succ]
      exact h
    have hvalue := ih hdiv
    rw [digitsValue] at hvalue
    rw [pad, digitsValue, List.foldl_append, hvalue]
    show n / 10 * 10 + (48 + n % 10 - 48) = n
    omega

theorem fixedNumber_pad {width n : ℕ} (h : n < 10 ^ width) (r : Str) :
    fixedNumber width (pad width n ++ r) = some (n, r) := by
  have htake : (pad width n ++ r).take width = pad width n := List.take_left' (length_pad width n)
  have hdrop : (pad width n ++ r).drop width = r := List.drop_left' (length_pad width n)
  rw [fixedNumber, htake, hdrop, digitsValue_pad h, if_pos]
  refine ⟨?_, List.all_eq_true.mpr (isDigit_pad width n)⟩
  rw [List.length_append, length_pad]
  omega

/-- A character that must come next, and the text after it. -/
def expect (c : ℕ) (s : Str) : Option Str := if s.head? = some c then some s.tail else none

theorem expect_cons (c : ℕ) (s : Str) : expect c (c :: s) = some s := if_pos rfl

/-! ## Timestamps -/

/-- The number of days of a month. -/
def daysIn (year month : ℕ) : ℕ :=
  if month = 2 then if year % 4 = 0 ∧ (year % 100 ≠ 0 ∨ year % 400 = 0) then 29 else 28
  else if month = 4 ∨ month = 6 ∨ month = 9 ∨ month = 11 then 30
  else 31

theorem daysIn_le (year month : ℕ) : daysIn year month ≤ 31 := by
  rw [daysIn]
  split_ifs <;> decide

/-- The date and the time of day of a timestamp. -/
structure DateTime where
  year : ℕ
  month : ℕ
  day : ℕ
  hour : ℕ
  minute : ℕ
  second : ℕ
  microsecond : ℕ
  deriving DecidableEq

def DateTime.Valid (t : DateTime) : Prop :=
  1 ≤ t.year ∧ t.year ≤ 9999 ∧ 1 ≤ t.month ∧ t.month ≤ 12 ∧ 1 ≤ t.day ∧ t.day ≤ daysIn t.year t.month ∧
    t.hour ≤ 23 ∧ t.minute ≤ 59 ∧ t.second ≤ 59 ∧ t.microsecond < 1000000

instance (t : DateTime) : Decidable t.Valid := inferInstanceAs (Decidable (_ ∧ _))

/-- A timestamp in UTC. -/
abbrev UtcTime := { t : DateTime // t.Valid }

/-- The text of the fraction of a second, and of the time zone. -/
def formatFraction (microsecond : ℕ) : Str :=
  if microsecond = 0 then codes "Z" else 46 :: (pad 6 microsecond ++ codes "Z")

def format (t : UtcTime) : Str :=
  pad 4 t.1.year ++ 45 :: (pad 2 t.1.month ++ 45 :: (pad 2 t.1.day ++ 84 :: (pad 2 t.1.hour ++ 58 ::
    (pad 2 t.1.minute ++ 58 :: (pad 2 t.1.second ++ formatFraction t.1.microsecond)))))

def parseFraction (s : Str) : Option ℕ :=
  if s = codes "Z" then some 0
  else do
    let s ← expect 46 s
    let (microsecond, s) ← fixedNumber 6 s
    if s = codes "Z" then some microsecond else none

def parse (s : Str) : Option UtcTime := do
  let (year, s) ← fixedNumber 4 s
  let (month, s) ← fixedNumber 2 (← expect 45 s)
  let (day, s) ← fixedNumber 2 (← expect 45 s)
  let (hour, s) ← fixedNumber 2 (← expect 84 s)
  let (minute, s) ← fixedNumber 2 (← expect 58 s)
  let (second, s) ← fixedNumber 2 (← expect 58 s)
  let microsecond ← parseFraction s
  let t : DateTime := ⟨year, month, day, hour, minute, second, microsecond⟩
  if h : t.Valid then some ⟨t, h⟩ else none

theorem parseFraction_format {microsecond : ℕ} (h : microsecond < 1000000) :
    parseFraction (formatFraction microsecond) = some microsecond := by
  rw [formatFraction]
  split_ifs with hzero
  · rw [hzero]
    rfl
  · have hne : 46 :: (pad 6 microsecond ++ codes "Z") ≠ codes "Z" := by
      intro heq
      cases heq
    rw [parseFraction, if_neg hne, expect_cons]
    show (fixedNumber 6 (pad 6 microsecond ++ codes "Z")).bind _ = _
    rw [fixedNumber_pad h]
    rfl

/-- **A timestamp is read back** from its text. -/
theorem parse_format (t : UtcTime) : parse (format t) = some t := by
  obtain ⟨t, ht⟩ := t
  obtain ⟨hyear, hyear', hmonth, hmonth', hday, hday', hhour, hminute, hsecond, hmicrosecond⟩ := id ht
  have hdays := daysIn_le t.year t.month
  rw [parse, format]
  simp only [fixedNumber_pad (show t.year < 10 ^ 4 by omega), fixedNumber_pad (show t.month < 10 ^ 2 by omega),
    fixedNumber_pad (show t.day < 10 ^ 2 by omega), fixedNumber_pad (show t.hour < 10 ^ 2 by omega),
    fixedNumber_pad (show t.minute < 10 ^ 2 by omega), fixedNumber_pad (show t.second < 10 ^ 2 by omega),
    expect_cons, parseFraction_format hmicrosecond, Option.bind_eq_bind, Option.bind_some, ht, dite_true]

theorem format_ascii (t : UtcTime) : ∀ c ∈ format t, c ≤ 126 := by
  have hpad (width n : ℕ) : ∀ c ∈ pad width n, c ≤ 126 := fun c hc => by
    have := isDigit_bounds (isDigit_pad width n c hc)
    omega
  have hfraction (microsecond : ℕ) : ∀ c ∈ formatFraction microsecond, c ≤ 126 := by
    rw [formatFraction]
    split_ifs
    · decide
    · rw [List.forall_mem_cons, List.forall_mem_append]
      exact ⟨by decide, hpad _ _, by decide⟩
  simp only [format, List.forall_mem_append, List.forall_mem_cons]
  exact ⟨hpad _ _, by decide, hpad _ _, by decide, hpad _ _, by decide, hpad _ _, by decide, hpad _ _, by decide,
    hpad _ _, hfraction _⟩

end HardwareTest.Python.Timestamp
