import HardwareTest.Lib.Json

/-!
# Floating point numbers of the language

A `PyFloat` is the value of an IEEE 754 double: a rational number that a double represents, an
infinity, or no number.  (The two zeros are one value here.)

* `roundDouble` — the double next to a rational number, ties to even;
* `floatOfInt` — `float(n)`, which overflows on large integers;
* `ofText`, `repr` — the literal and the shortest text of a double;
* `JsonValue`, `get`, `equalsInt` — the values of a document.
-/

namespace HardwareTest.Python

open HardwareTest.Lib HardwareTest.Lib.Json

inductive PyFloat
  | finite (q : ℚ)
  | infinite (negative : Bool)
  | nan
  deriving DecidableEq

namespace PyFloat

/-- `n / d`, rounded to an integer, ties to even. -/
def roundEven (n d : ℕ) : ℕ :=
  let q := n / d
  let r := n % d
  if 2 * r < d ∨ (2 * r = d ∧ q % 2 = 0) then q else q + 1

/-- The numerator and the denominator of `num / den * 2 ^ e`. -/
def scale (num den : ℕ) (e : ℤ) : ℕ × ℕ := (num * 2 ^ e.toNat, den * 2 ^ (-e).toNat)

/-- The exponent of the highest binary digit of `num / den`. -/
def log2 (num den : ℕ) : ℤ :=
  let k : ℤ := (num.log2 : ℤ) - (den.log2 : ℤ)
  if (scale num den (-k)).2 ≤ (scale num den (-k)).1 then k else k - 1

/-- The double next to a rational number. -/
def roundDouble (q : ℚ) : PyFloat :=
  if q = 0 then .finite 0
  else
    let e := max (log2 q.num.natAbs q.den - 52) (-1074)
    let (n, d) := scale q.num.natAbs q.den (-e)
    let magnitude : ℚ := (roundEven n d : ℚ) * (2 : ℚ) ^ e
    if (2 : ℚ) ^ 1024 ≤ magnitude then .infinite (decide (q < 0))
    else .finite (if q < 0 then -magnitude else magnitude)

/-- The first integer that no double is next to. -/
def overflowBound : ℕ := 2 ^ 1024 - 2 ^ 970

/-- `float(n)`; `none` is the `OverflowError`. -/
def floatOfInt (n : ℤ) : Option PyFloat :=
  if overflowBound ≤ n.natAbs then none else some (roundDouble n)

/-! ## Text -/

/-- The value of a literal with sign, integer part, fraction and exponent. -/
def decimalValue (negative : Bool) (mantissa : Str) (exponent : ℤ) : ℚ :=
  (if negative then -1 else 1) * (digitsValue mantissa : ℚ) * (10 : ℚ) ^ exponent

/-- The exponent of a literal. -/
def exponentOf : Str → ℤ
  | _ :: 45 :: ds => -(digitsValue ds : ℤ)
  | _ :: 43 :: ds => digitsValue ds
  | _ :: ds => digitsValue ds
  | [] => 0

/-- `float` of a literal of JSON. -/
def ofText (s : Str) : PyFloat :=
  if s = codes "NaN" then .nan
  else if s = codes "Infinity" then .infinite false
  else if s = codes "-Infinity" then .infinite true
  else
    let negative := s.head? = some 45
    let s := if negative then s.drop 1 else s
    let (whole, r) := digits s
    let (frac, r) := fraction r
    roundDouble (decimalValue negative (whole ++ frac.drop 1)
      (exponentOf (exponentPart r).1 - (frac.drop 1).length))

/-- Decimal digits. -/
def decimalDigits (n : ℕ) : Str := (Nat.toDigits 10 n).map Char.toNat

/-- The exponent of the highest decimal digit of a positive number, between two bounds. -/
def log10 (q : ℚ) : ℕ → ℤ → ℤ
  | 0, e => e
  | fuel + 1, e => if q < (10 : ℚ) ^ e then log10 q fuel (e - 1) else e

/-- The digits with which a positive double is written, and how many were asked for: the fewest, up to
17, that name it, and of these the ones closest to it. -/
def shortest (q : ℚ) (e : ℤ) : ℕ → ℕ → ℕ × ℕ
  | 0, count => ((q * (10 : ℚ) ^ ((count : ℤ) - 1 - e)).floor.toNat, count)
  | fuel + 1, count =>
    let scaled := q * (10 : ℚ) ^ ((count : ℤ) - 1 - e)
    let d := roundEven scaled.num.natAbs scaled.den
    let other := if (d : ℚ) < scaled then d + 1 else d - 1
    let names (d : ℕ) : Bool := roundDouble ((d : ℚ) * (10 : ℚ) ^ (e + 1 - count)) = .finite q
    if names d then (d, count)
    else if names other then (other, count)
    else shortest q e fuel (count + 1)

/-- Trailing zeros are not written. -/
def stripZeros (s : Str) : Str := (s.reverse.dropWhile (· == 48)).reverse

/-- The exponent of the scientific layout: a sign and at least two digits. -/
def exponentText (e : ℤ) : Str :=
  (if e < 0 then 45 else 43) :: (List.replicate (2 - (decimalDigits e.natAbs).length) 48
    ++ decimalDigits e.natAbs)

/-- A fraction after its point. -/
def pointText (ds : Str) : Str := if ds = [] then [] else 46 :: ds

/-- The layout of digits with the decimal point after the first one, times ten to the power `e`. -/
def layout (ds : Str) (e : ℤ) : Str :=
  if 0 ≤ e ∧ e < 16 then
    (ds ++ List.replicate 17 48).take (e.toNat + 1)
      ++ pointText (if ds.length ≤ e.toNat + 1 then [48] else ds.drop (e.toNat + 1))
  else if -4 ≤ e ∧ e < 0 then 48 :: pointText (List.replicate ((-e).toNat - 1) 48 ++ ds)
  else ds.take 1 ++ pointText (ds.drop 1) ++ 101 :: exponentText e

/-- A positive double, given the exponent of its highest digit. -/
def positiveText (q : ℚ) (e : ℤ) : Str :=
  let (d, count) := shortest q e 17 1
  -- a number rounded up to a power of ten has one digit more
  layout (stripZeros (decimalDigits d)) (e + ((decimalDigits d).length - count))

/-- `float.__repr__`, as JSON writes it. -/
def repr : PyFloat → Str
  | .nan => codes "NaN"
  | .infinite false => codes "Infinity"
  | .infinite true => codes "-Infinity"
  | .finite q =>
    if q = 0 then codes "0.0"
    else if q < 0 then 45 :: positiveText (-q) (log10 (-q) 640 308)
    else positiveText q (log10 q 640 308)

/-! ## The characters of a text -/

theorem mem_stripZeros {s : Str} {c : ℕ} (h : c ∈ stripZeros s) : c ∈ s := by
  rw [stripZeros, List.mem_reverse] at h
  exact List.mem_reverse.mp ((List.dropWhile_suffix _).subset h)

theorem decimalDigits_ascii {n c : ℕ} (h : c ∈ decimalDigits n) : 32 ≤ c ∧ c ≤ 126 := by
  have := isDigit_bounds (isDigit_toDigits h)
  omega

theorem replicate_ascii {n c : ℕ} (h : c ∈ List.replicate n 48) : 32 ≤ c ∧ c ≤ 126 := by
  rw [List.eq_of_mem_replicate h]
  decide

theorem pointText_ascii {ds : Str} (hds : ∀ c ∈ ds, 32 ≤ c ∧ c ≤ 126) :
    ∀ c ∈ pointText ds, 32 ≤ c ∧ c ≤ 126 := by
  intro c hc
  unfold pointText at hc
  split_ifs at hc
  · cases hc
  · rcases List.mem_cons.mp hc with rfl | hc
    · decide
    · exact hds c hc

theorem exponentText_ascii (e : ℤ) : ∀ c ∈ exponentText e, 32 ≤ c ∧ c ≤ 126 := by
  intro c hc
  rcases List.mem_cons.mp hc with rfl | hc
  · by_cases he : e < 0
    · rw [if_pos he]
      decide
    · rw [if_neg he]
      decide
  · exact (List.mem_append.mp hc).elim replicate_ascii decimalDigits_ascii

theorem layout_ascii {ds : Str} (hds : ∀ c ∈ ds, 32 ≤ c ∧ c ≤ 126) (e : ℤ) :
    ∀ c ∈ layout ds e, 32 ≤ c ∧ c ≤ 126 := by
  have hdrop : ∀ n, ∀ c ∈ ds.drop n, 32 ≤ c ∧ c ≤ 126 := fun n c hc => hds c (List.mem_of_mem_drop hc)
  intro c hc
  unfold layout at hc
  split_ifs at hc with h₁ h₂ h₃
  · rcases List.mem_append.mp hc with hc | hc
    · exact (List.mem_append.mp (List.mem_of_mem_take hc)).elim (hds c) replicate_ascii
    · exact pointText_ascii (by decide) c hc
  · rcases List.mem_append.mp hc with hc | hc
    · exact (List.mem_append.mp (List.mem_of_mem_take hc)).elim (hds c) replicate_ascii
    · exact pointText_ascii (hdrop _) c hc
  · rcases List.mem_cons.mp hc with rfl | hc
    · decide
    · exact pointText_ascii (fun d hd => (List.mem_append.mp hd).elim replicate_ascii (hds d)) c hc
  · rw [List.mem_append, List.mem_append, List.mem_cons] at hc
    rcases hc with (hc | hc) | rfl | hc
    · exact hds c (List.mem_of_mem_take hc)
    · exact pointText_ascii (hdrop 1) c hc
    · decide
    · exact exponentText_ascii e c hc

theorem positiveText_ascii (q : ℚ) (e : ℤ) : ∀ c ∈ positiveText q e, 32 ≤ c ∧ c ≤ 126 :=
  layout_ascii (fun _ hd => decimalDigits_ascii (mem_stripZeros hd)) _

theorem repr_ascii : ∀ x, ∀ c ∈ repr x, 32 ≤ c ∧ c ≤ 126
  | .nan => (by decide : ∀ c ∈ codes "NaN", 32 ≤ c ∧ c ≤ 126)
  | .infinite false => (by decide : ∀ c ∈ codes "Infinity", 32 ≤ c ∧ c ≤ 126)
  | .infinite true => (by decide : ∀ c ∈ codes "-Infinity", 32 ≤ c ∧ c ≤ 126)
  | .finite q => by
    intro c hc
    rw [repr] at hc
    split_ifs at hc with hzero hneg
    · exact (by decide : ∀ c ∈ codes "0.0", 32 ≤ c ∧ c ≤ 126) c hc
    · rcases List.mem_cons.mp hc with rfl | hc
      · decide
      · exact positiveText_ascii _ _ c hc
    · exact positiveText_ascii _ _ c hc

instance : FloatText PyFloat where
  read := ofText
  repr := repr
  repr_ascii := repr_ascii

end PyFloat

/-! ## Values of JSON -/

abbrev JsonValue := Json.Value PyFloat

/-- `members.get(name)`. -/
def get (members : List (Str × JsonValue)) (name : Str) : Option JsonValue := members.lookup name

/-- `value == n`: a boolean and a floating point number can be equal to an integer. -/
def equalsInt (n : ℤ) : Option JsonValue → Bool
  | some (.int m) => m == n
  | some (.bool b) => (if b then 1 else 0) == n
  | some (.float x) => x == .finite n
  | _ => false

end HardwareTest.Python
