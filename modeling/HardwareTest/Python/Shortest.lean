import HardwareTest.Lib.Rounding
import HardwareTest.Python.Float

/-!
# The text of a double

`repr` writes a double with the fewest digits that name it.  Seventeen digits always do: they are finer
than the 53 binary digits of a double, so the nearest decimal is rounded back.

* `roundDouble_spec` — rounding is to a nearest multiple of the unit;
* `roundDouble_of_close` — what is close to a double is rounded to it;
* `isDouble_roundDouble` — what is rounded is a double;
* `shortest_names` — the digits that are written name the double;
* `readsBack_of_isDouble` — the text of every double is read back.
-/

namespace HardwareTest.Python.PyFloat

open HardwareTest.Lib HardwareTest.Lib.Json

/-! ## Rounding -/

theorem scale_ratio (num den : ℕ) (e : ℤ) :
    ((scale num den e).1 : ℚ) / (scale num den e).2 = num / den * 2 ^ e := by
  rcases le_total 0 e with he | he
  · obtain ⟨k, rfl⟩ := Int.eq_ofNat_of_zero_le he
    simp [scale, mul_div_right_comm]
  · obtain ⟨k, rfl⟩ : ∃ k : ℕ, e = -k := ⟨(-e).toNat, by omega⟩
    simp [scale, div_mul_eq_div_div, zpow_neg, ← div_eq_mul_inv]

theorem scale_pos {den : ℕ} (num : ℕ) (hden : 0 < den) (e : ℤ) : 0 < (scale num den e).2 :=
  Nat.mul_pos hden (Nat.two_pow_pos _)

theorem log_eq {r : ℚ} {k : ℤ} (hlow : 2 ^ k ≤ r) (hhigh : r < 2 ^ (k + 1)) : Int.log 2 r = k := by
  have hpos : 0 < r := (zpow_pos two_pos k).trans_le hlow
  have hle : k ≤ Int.log 2 r := (Int.zpow_le_iff_le_log (b := 2) (by decide) hpos).mp (by exact_mod_cast hlow)
  have hlt : Int.log 2 r < k + 1 :=
    (Int.lt_zpow_iff_log_lt (b := 2) (by decide) hpos).mp (by exact_mod_cast hhigh)
  omega

/-- `log2` is the exponent of the highest binary digit. -/
theorem log2_eq {num den : ℕ} (hnum : 0 < num) (hden : 0 < den) :
    log2 num den = Int.log 2 ((num : ℚ) / den) := by
  have hpos : (0 : ℚ) < den := by exact_mod_cast hden
  have hn : (2 : ℚ) ^ num.log2 ≤ num := by exact_mod_cast Nat.log2_self_le hnum.ne'
  have hn' : (num : ℚ) < 2 ^ (num.log2 + 1) := by exact_mod_cast Nat.lt_log2_self
  have hd : (2 : ℚ) ^ den.log2 ≤ den := by exact_mod_cast Nat.log2_self_le hden.ne'
  have hd' : (den : ℚ) < 2 ^ (den.log2 + 1) := by exact_mod_cast Nat.lt_log2_self
  obtain ⟨k, hk⟩ : ∃ k : ℤ, k = (num.log2 : ℤ) - (den.log2 : ℤ) := ⟨_, rfl⟩
  have hlow : (2 : ℚ) ^ (k - 1) ≤ num / den := by
    rw [le_div_iff₀ hpos]
    calc (2 : ℚ) ^ (k - 1) * den ≤ 2 ^ (k - 1) * 2 ^ (den.log2 + 1) :=
          mul_le_mul_of_nonneg_left hd'.le (zpow_pos two_pos _).le
      _ = 2 ^ num.log2 := by
          rw [← zpow_natCast, ← zpow_natCast, ← zpow_add₀ two_ne_zero]
          congr 1
          omega
      _ ≤ num := hn
  have hhigh : (num : ℚ) / den < 2 ^ (k + 1) := by
    rw [div_lt_iff₀ hpos]
    calc (num : ℚ) < 2 ^ (num.log2 + 1) := hn'
      _ = 2 ^ (k + 1) * 2 ^ den.log2 := by
          rw [← zpow_natCast, ← zpow_natCast, ← zpow_add₀ two_ne_zero]
          congr 1
          omega
      _ ≤ 2 ^ (k + 1) * den := mul_le_mul_of_nonneg_left hd (zpow_pos two_pos _).le
  have hcompare : (scale num den (-k)).2 ≤ (scale num den (-k)).1 ↔ (2 : ℚ) ^ k ≤ num / den := by
    have hscaled : (0 : ℚ) < (scale num den (-k)).2 := by exact_mod_cast scale_pos num hden (-k)
    have hcast : (scale num den (-k)).2 ≤ (scale num den (-k)).1 ↔
        ((scale num den (-k)).2 : ℚ) ≤ (scale num den (-k)).1 := Nat.cast_le.symm
    rw [hcast, ← one_le_div hscaled, scale_ratio, zpow_neg, ← div_eq_mul_inv,
      one_le_div (zpow_pos two_pos k)]
  unfold log2
  dsimp only
  rw [← hk]
  split_ifs with h
  · exact (log_eq (hcompare.mp h) hhigh).symm
  · refine (log_eq hlow ?_).symm
    rw [sub_add_cancel]
    exact not_le.mp fun hle => h (hcompare.mpr hle)

/-- A nearest integer. -/
theorem roundEven_near {n d : ℕ} (hd : 0 < d) : |(roundEven n d : ℚ) - n / d| ≤ 1 / 2 := by
  have hdiv := Nat.div_add_mod n d
  have hmod := Nat.mod_lt n hd
  have hbounds : 2 * n ≤ 2 * (d * roundEven n d) + d ∧ 2 * (d * roundEven n d) ≤ 2 * n + d := by
    unfold roundEven
    dsimp only
    split_ifs with h
    · omega
    · rw [Nat.mul_add, Nat.mul_one]
      omega
  have hpos : (0 : ℚ) < d := by exact_mod_cast hd
  have hlow : 2 * (n : ℚ) ≤ 2 * (d * roundEven n d) + d := by exact_mod_cast hbounds.1
  have hhigh : 2 * ((d : ℚ) * roundEven n d) ≤ 2 * n + d := by exact_mod_cast hbounds.2
  have hdivided : (roundEven n d : ℚ) - n / d = (d * roundEven n d - n) / d := by
    rw [sub_div, mul_div_cancel_left₀ _ hpos.ne']
  rw [hdivided, abs_div, abs_of_pos hpos, div_le_iff₀ hpos, abs_le]
  constructor <;> linarith

theorem natAbs_div_den {q : ℚ} (hq : 0 ≤ q) : (q.num.natAbs : ℚ) / q.den = q := by
  have habs : ((q.num.natAbs : ℤ) : ℚ) = (q.num : ℚ) :=
    congrArg _ (Int.natAbs_of_nonneg (Rat.num_nonneg.mpr hq))
  rw [← Int.cast_natCast, habs, Rat.num_div_den]

/-- The unit of a double. -/
abbrev unit (q : ℚ) : ℚ := Rounding.unit 53 (-1074) q

/-- **Rounding is to a nearest multiple of the unit.** -/
theorem roundDouble_spec {q : ℚ} (hq : 0 < q) :
    ∃ m : ℕ, |(m : ℚ) - q / unit q| ≤ 1 / 2 ∧
      roundDouble q = if 2 ^ 1024 ≤ m * unit q then .infinite false else .finite (m * unit q) := by
  have hnum : 0 < q.num.natAbs := Int.natAbs_pos.mpr (Rat.num_pos.mpr hq).ne'
  have hratio := natAbs_div_den hq.le
  have hexponent : max (log2 q.num.natAbs q.den - 52) (-1074) = Rounding.unitExponent 53 (-1074) q := by
    rw [log2_eq hnum q.den_pos, hratio, Rounding.unitExponent]
    congr 1
    omega
  obtain ⟨e, he⟩ : ∃ e, e = Rounding.unitExponent 53 (-1074) q := ⟨_, rfl⟩
  have hunit : unit q = 2 ^ e := by rw [he]; rfl
  have hnear := roundEven_near (n := (scale q.num.natAbs q.den (-e)).1) (scale_pos q.num.natAbs q.den_pos (-e))
  rw [scale_ratio, hratio, zpow_neg, ← div_eq_mul_inv, ← hunit] at hnear
  refine ⟨_, hnear, ?_⟩
  unfold roundDouble
  rw [if_neg hq.ne', hexponent, ← he, hunit]
  simp only [if_neg hq.not_gt, decide_eq_false hq.not_gt]

/-- The value of a double. -/
def IsDouble : PyFloat → Prop
  | .finite q => roundDouble q = .finite q
  | .infinite _ => True
  | .nan => True

/-- **What is close to a number of the format is rounded to it.** -/
theorem roundDouble_of_close {q x : ℚ} (h : Rounding.Close 53 x q) (hgrid : Rounding.OnGrid 53 (-1074) q)
    (hlarge : q < 2 ^ 1024) : roundDouble x = .finite q := by
  obtain ⟨m, hm, hround⟩ := roundDouble_spec h.pos
  have hsame : ((m : ℤ) : ℚ) * unit x = q :=
    Rounding.eq_of_close h hgrid (by rw [Int.cast_natCast]; exact hm)
  rw [Int.cast_natCast] at hsame
  rw [hround, hsame, if_neg (not_le.mpr hlarge)]

section Double

variable {q : ℚ} (hq : 0 < q) (hdouble : IsDouble (.finite q))

include hq hdouble

theorem onGrid_of_double : Rounding.OnGrid 53 (-1074) q ∧ q < 2 ^ 1024 := by
  obtain ⟨m, -, hround⟩ := roundDouble_spec hq
  rw [IsDouble, hround] at hdouble
  split_ifs at hdouble with hlarge
  have hm : m * unit q = q := PyFloat.finite.inj hdouble
  rw [hm, not_le] at hlarge
  exact ⟨⟨m, by rw [Int.cast_natCast, hm]⟩, hlarge⟩

/-- The smallest double. -/
theorem two_zpow_le_double : 2 ^ (-1074 : ℤ) ≤ q := by
  obtain ⟨⟨m, hm⟩, -⟩ := onGrid_of_double hq hdouble
  have hpos := Rounding.unit_pos 53 (-1074) q
  have hone : (1 : ℚ) ≤ m := by
    rw [hm] at hq
    have hm' : (0 : ℚ) < m := pos_of_mul_pos_left hq hpos.le
    exact_mod_cast hm'
  calc (2 : ℚ) ^ (-1074 : ℤ) ≤ unit q := zpow_le_zpow_right₀ one_le_two (le_max_right _ _)
    _ ≤ m * unit q := le_mul_of_one_le_left hpos.le hone
    _ = q := hm.symm

end Double

/-- `-x`. -/
def neg : PyFloat → PyFloat
  | .finite q => .finite (-q)
  | .infinite negative => .infinite !negative
  | .nan => .nan

theorem roundDouble_neg (x : ℚ) : roundDouble (-x) = (roundDouble x).neg := by
  unfold roundDouble
  rw [Rat.num_neg_eq_neg_num, Int.natAbs_neg, Rat.den_neg_eq_den]
  rcases lt_trichotomy x 0 with hneg | rfl | hpos
  · have hopposite := neg_pos.mpr hneg
    rw [if_neg hneg.ne, if_neg hopposite.ne']
    simp only [if_pos hneg, if_neg hopposite.not_gt, decide_eq_true hneg, decide_eq_false hopposite.not_gt]
    split_ifs
    · rfl
    · rw [neg, neg_neg]
  · rw [neg_zero, if_pos rfl, neg, neg_zero]
  · have hopposite := neg_neg_of_pos hpos
    rw [if_neg hpos.ne', if_neg hopposite.ne]
    simp only [if_neg hpos.not_gt, if_pos hopposite, decide_eq_true hopposite, decide_eq_false hpos.not_gt]
    split_ifs
    · rfl
    · rfl

theorem isDouble_neg {x : PyFloat} (h : IsDouble x) : IsDouble x.neg := by
  cases x with
  | finite q => exact (roundDouble_neg q).trans (congrArg neg h)
  | infinite negative => trivial
  | nan => trivial

/-- **Rounding gives a double.** -/
theorem isDouble_roundDouble (x : ℚ) : IsDouble (roundDouble x) := by
  have hpositive : ∀ x, 0 < x → IsDouble (roundDouble x) := by
    intro x hx
    obtain ⟨m, hm, hround⟩ := roundDouble_spec hx
    rw [hround]
    split_ifs with hlarge
    · trivial
    · rcases Nat.eq_zero_or_pos m with rfl | hpos
      · rw [Nat.cast_zero, zero_mul]
        exact if_pos rfl
      · have hgrid : Rounding.OnGrid 53 (-1074) (((m : ℤ) : ℚ) * unit x) :=
          Rounding.onGrid_of_near (by decide) (by rw [Int.cast_natCast]; exact hm) (by exact_mod_cast hpos)
        rw [Int.cast_natCast] at hgrid
        have hvalue : 0 < (m : ℚ) * unit x := mul_pos (by exact_mod_cast hpos) (Rounding.unit_pos _ _ x)
        refine roundDouble_of_close ?_ hgrid (not_le.mp hlarge)
        rw [Rounding.Close, sub_self, abs_zero, zero_mul]
        exact hvalue
  rcases lt_trichotomy x 0 with hneg | rfl | hpos
  · have hopposite := isDouble_neg (hpositive (-x) (neg_pos.mpr hneg))
    rwa [← roundDouble_neg, neg_neg] at hopposite
  · exact if_pos rfl
  · exact hpositive x hpos

/-- A literal names a double. -/
theorem isDouble_ofText (s : Str) : IsDouble (ofText s) := by
  unfold ofText
  split_ifs
  · trivial
  · trivial
  · trivial
  · exact isDouble_roundDouble _

/-! ## The digits -/

/-- `log10` finds the exponent of the highest decimal digit. -/
theorem zpow_log10_le {q : ℚ} (fuel : ℕ) (e : ℤ) (h : 10 ^ (e - fuel) ≤ q) : 10 ^ log10 q fuel e ≤ q := by
  induction fuel generalizing e with
  | zero => simpa [log10] using h
  | succ fuel ih =>
    rw [log10]
    split_ifs with hlt
    · refine ih (e - 1) ?_
      rwa [sub_sub, add_comm, ← Nat.cast_succ]
    · exact not_lt.mp hlt

section Shortest

variable {q : ℚ} (hq : 0 < q) (hdouble : IsDouble (.finite q))

include hq hdouble

theorem zpow_log10_le_double : 10 ^ log10 q 640 308 ≤ q := by
  refine zpow_log10_le 640 308 (le_trans ?_ (two_zpow_le_double hq hdouble))
  have hpow : (2 : ℚ) ^ 1074 ≤ 10 ^ 332 := by
    calc (2 : ℚ) ^ 1074 ≤ 2 ^ (13 * 83) := pow_le_pow_right₀ one_le_two (by decide)
      _ = (2 ^ 13) ^ 83 := pow_mul 2 13 83
      _ ≤ (10 ^ 4) ^ 83 := pow_le_pow_left₀ (by norm_num) (by norm_num) 83
      _ = 10 ^ 332 := (pow_mul 10 4 83).symm
  show (10 : ℚ) ^ (-332 : ℤ) ≤ 2 ^ (-1074 : ℤ)
  rw [zpow_neg, zpow_neg]
  exact inv_anti₀ (by positivity) (by exact_mod_cast hpow)

/-- The nearest decimal with 17 digits names the double. -/
theorem nearest_names {e : ℤ} (he : 10 ^ e ≤ q) {d : ℕ} (hd : |(d : ℚ) - q * 10 ^ (16 - e)| ≤ 1 / 2) :
    roundDouble (d * 10 ^ (e - 16)) = .finite q := by
  have hpos : (0 : ℚ) < 10 ^ (e - 16) := by positivity
  have hscale : (10 : ℚ) ^ (16 - e) * 10 ^ (e - 16) = 1 := by
    rw [← zpow_add₀ (by norm_num)]
    norm_num
  obtain ⟨hgrid, hlarge⟩ := onGrid_of_double hq hdouble
  refine roundDouble_of_close (Rounding.close_of_digits (n := 16) (by decide) he ?_) hgrid hlarge
  have hdistance : (d : ℚ) * 10 ^ (e - 16) - q = (d - q * 10 ^ (16 - e)) * 10 ^ (e - 16) := by
    rw [sub_mul, mul_assoc, hscale, mul_one]
  rw [hdistance, abs_mul, abs_of_pos hpos]
  calc |(d : ℚ) - q * 10 ^ (16 - e)| * 10 ^ (e - 16) ≤ 1 / 2 * 10 ^ (e - 16) :=
        mul_le_mul_of_nonneg_right hd hpos.le
    _ = 10 ^ (e - (16 : ℕ)) / 2 := by
        rw [one_div, inv_mul_eq_div]
        rfl

/-- **The digits that are written name the double**: the search ends with 17 digits at the latest. -/
theorem shortest_names {e : ℤ} (he : 10 ^ e ≤ q) (fuel count : ℕ) (hcount : count + fuel = 18)
    (hfuel : 0 < fuel) : roundDouble ((shortest q e fuel count).1
      * 10 ^ (e + 1 - (shortest q e fuel count).2)) = .finite q := by
  induction fuel generalizing count with
  | zero => omega
  | succ fuel ih =>
    rw [shortest]
    dsimp only
    generalize hd : roundEven _ _ = d
    generalize (if (d : ℚ) < _ then d + 1 else d - 1) = other
    split_ifs with hnearest hother
    · exact of_decide_eq_true hnearest
    · exact of_decide_eq_true hother
    · refine ih (count + 1) (by omega) (Nat.pos_of_ne_zero ?_)
      rintro rfl
      obtain rfl : count = 17 := by omega
      refine hnearest (decide_eq_true ?_)
      have hscaled : (0 : ℚ) ≤ q * 10 ^ (((17 : ℕ) : ℤ) - 1 - e) := by positivity
      have hnear := roundEven_near (n := (q * 10 ^ (((17 : ℕ) : ℤ) - 1 - e)).num.natAbs)
        (q * 10 ^ (((17 : ℕ) : ℤ) - 1 - e)).den_pos
      rw [hd, natAbs_div_den hscaled] at hnear
      have hexponent : e + 1 - ((17 : ℕ) : ℤ) = e - 16 := by omega
      rw [hexponent]
      exact nearest_names hq hdouble he hnear

end Shortest

/-! ## Numerals -/

/-- The integer part of a numeral: a zero, or digits that do not start with one. -/
def IsWhole (s : Str) : Prop := s = [48] ∨ ∃ c t, s = c :: t ∧ (49 ≤ c ∧ c ≤ 57) ∧ ∀ d ∈ t, isDigit d = true

/-- The exponent of a numeral, which may be missing. -/
def IsExponent (s : Str) : Prop :=
  s = [] ∨ ∃ sign ds, s = 101 :: sign :: ds ∧ (sign = 43 ∨ sign = 45) ∧ ds ≠ [] ∧ ∀ c ∈ ds, isDigit c = true

/-- A numeral with decimals or an exponent. -/
structure Numeral where
  whole : Str
  decimals : Str
  exponent : Str
  isWhole : IsWhole whole
  isDecimals : ∀ c ∈ decimals, isDigit c = true
  isExponent : IsExponent exponent
  fractional : decimals ≠ [] ∨ exponent ≠ []

def Numeral.text (n : Numeral) : Str := n.whole ++ (pointText n.decimals ++ n.exponent)

def Numeral.value (n : Numeral) : ℚ :=
  digitsValue (n.whole ++ n.decimals) * 10 ^ (exponentOf n.exponent - n.decimals.length)

section Reading

variable {s ds x r : Str}

theorem IsWhole.digits (h : IsWhole s) : ∀ c ∈ s, isDigit c = true := by
  rcases h with rfl | ⟨c, t, rfl, hc, ht⟩
  · decide
  · rw [List.forall_mem_cons]
    exact ⟨decide_eq_true (by omega), ht⟩

theorem IsWhole.head (h : IsWhole s) : ∃ c t, s = c :: t ∧ isDigit c = true := by
  rcases h with rfl | ⟨c, t, rfl, hc, -⟩
  · exact ⟨48, [], rfl, rfl⟩
  · exact ⟨c, t, rfl, decide_eq_true (by omega)⟩

theorem integerPart_whole (h : IsWhole s) (hr : ∀ c ∈ r.head?, isDigit c = false) :
    integerPart (s ++ r) = some (s, r) := by
  rcases h with rfl | ⟨c, t, rfl, hc, ht⟩
  · rfl
  · rw [List.cons_append, integerPart]
    · rw [if_pos hc, digits_append ht hr]
    · rintro rfl
      omega

/-- After an exponent or without one there is no point. -/
theorem head_exponent (hx : IsExponent x) (hr : Boundary r) :
    ∀ c ∈ (x ++ r).head?, isDigit c = false ∧ c ≠ 46 := by
  rcases hx with rfl | ⟨sign, ds, rfl, -⟩
  · exact fun c hc => ⟨(hr c hc).1, (hr c hc).2.1⟩
  · rintro c ⟨⟩
    exact ⟨rfl, by decide⟩

theorem head_pointText (ds : Str) (hr : ∀ c ∈ r.head?, isDigit c = false ∧ c ≠ 46) :
    ∀ c ∈ (pointText ds ++ r).head?, isDigit c = false := by
  unfold pointText
  split_ifs with hds
  · exact fun c hc => (hr c hc).1
  · rintro c ⟨⟩
    rfl

theorem fraction_pointText (hds : ∀ c ∈ ds, isDigit c = true)
    (hr : ∀ c ∈ r.head?, isDigit c = false ∧ c ≠ 46) : fraction (pointText ds ++ r) = (pointText ds, r) := by
  unfold pointText
  split_ifs with hempty
  · rw [List.nil_append]
    cases r with
    | nil => rfl
    | cons c r =>
      rw [fraction]
      rintro r' ⟨⟩
      exact (hr 46 rfl).2 rfl
  · rw [List.cons_append, fraction, digits_append hds fun c hc => (hr c hc).1, if_neg hempty]

theorem exponentPart_exponent (hx : IsExponent x) (hr : Boundary r) : exponentPart (x ++ r) = (x, r) := by
  rcases hx with rfl | ⟨sign, ds, rfl, hsign, hempty, hds⟩
  · exact exponentPart_boundary hr
  · have hdigits := digits_append hds fun c hc => (hr c hc).1
    rcases hsign with rfl | rfl
    all_goals
      rw [List.cons_append, List.cons_append, exponentPart, if_pos (.inl rfl)]
      simp only [exponentSign, hdigits, if_neg hempty]
      rfl

theorem drop_pointText (ds : Str) : (pointText ds).drop 1 = ds := by
  unfold pointText
  split_ifs with hds
  · rw [hds]
    rfl
  · rfl

theorem pointText_eq_nil : pointText ds = [] ↔ ds = [] := by
  unfold pointText
  split_ifs with hds
  · exact iff_of_true rfl hds
  · exact iff_of_false id hds

end Reading

namespace Numeral

variable (n : Numeral) {r : Str}

/-- **A numeral is read to its end.** -/
theorem number_text (sign : Str) (hr : Boundary r) :
    number (F := PyFloat) sign (n.text ++ r) = .ok (.float (ofText (sign ++ n.text)), r) := by
  have hhead := head_exponent n.isExponent hr
  have hfraction : ¬(pointText n.decimals = [] ∧ n.exponent = []) := by
    rw [pointText_eq_nil]
    exact fun h => n.fractional.elim (· h.1) (· h.2)
  rw [text, List.append_assoc, List.append_assoc]
  simp only [number, integerPart_whole n.isWhole (head_pointText n.decimals hhead),
    fraction_pointText n.isDecimals hhead, exponentPart_exponent n.isExponent hr, if_neg hfraction]
  rw [List.append_assoc, List.append_assoc]
  rfl

theorem boundary_nil : Boundary [] := nofun

/-- The literal that a sign and a numeral make. -/
theorem parts :
    digits n.text = (n.whole, pointText n.decimals ++ n.exponent) ∧
      fraction (pointText n.decimals ++ n.exponent) = (pointText n.decimals, n.exponent) ∧
      exponentPart n.exponent = (n.exponent, []) := by
  have hhead := head_exponent n.isExponent boundary_nil
  have hexponent := exponentPart_exponent n.isExponent boundary_nil
  rw [List.append_nil] at hhead hexponent
  exact ⟨digits_append n.isWhole.digits (head_pointText n.decimals hhead),
    fraction_pointText n.isDecimals hhead, hexponent⟩

/-- A numeral starts with a digit. -/
theorem text_head : ∃ c u, n.text = c :: u ∧ isDigit c = true := by
  obtain ⟨c, t, hwhole, hc⟩ := n.isWhole.head
  exact ⟨c, t ++ (pointText n.decimals ++ n.exponent), by rw [text, hwhole]; rfl, hc⟩

theorem value_eq (negative : Bool) :
    decimalValue negative (n.whole ++ n.decimals) (exponentOf n.exponent - n.decimals.length)
      = if negative then -n.value else n.value := by
  unfold decimalValue value
  cases negative with
  | true => simp
  | false => simp

theorem ofText_text : ofText n.text = roundDouble n.value := by
  obtain ⟨hdigits, hfraction, hexponent⟩ := n.parts
  obtain ⟨c, u, htext, hc⟩ := n.text_head
  have hbounds := isDigit_bounds hc
  have hne : ∀ d v, (d < 48 ∨ 57 < d) → n.text ≠ d :: v := by
    rintro d v hd heq
    rw [htext] at heq
    cases heq
    omega
  have hnan : n.text ≠ codes "NaN" := hne 78 (codes "aN") (.inr (by decide))
  have hinfinity : n.text ≠ codes "Infinity" := hne 73 (codes "nfinity") (.inr (by decide))
  have hminus : n.text ≠ codes "-Infinity" := hne 45 (codes "Infinity") (.inl (by decide))
  have hsign : ¬n.text.head? = some 45 := by
    rw [htext]
    rintro ⟨⟩
    omega
  unfold ofText
  rw [if_neg hnan, if_neg hinfinity, if_neg hminus]
  simp only [if_neg hsign, decide_eq_false hsign, hdigits, hfraction, hexponent, drop_pointText]
  rw [value_eq]
  rfl

theorem ofText_minus : ofText (45 :: n.text) = roundDouble (-n.value) := by
  obtain ⟨hdigits, hfraction, hexponent⟩ := n.parts
  obtain ⟨c, u, htext, hc⟩ := n.text_head
  have hbounds := isDigit_bounds hc
  have hnan : 45 :: n.text ≠ codes "NaN" := fun h => absurd (List.cons.inj h).1 (by decide)
  have hinfinity : 45 :: n.text ≠ codes "Infinity" := fun h => absurd (List.cons.inj h).1 (by decide)
  have hminus : 45 :: n.text ≠ codes "-Infinity" := by
    intro h
    rw [htext] at h
    have hfirst : c = 73 := (List.cons.inj (List.cons.inj h).2).1
    omega
  have hsign : (45 :: n.text).head? = some 45 := rfl
  unfold ofText
  rw [if_neg hnan, if_neg hinfinity, if_neg hminus]
  simp only [if_pos hsign, decide_eq_true hsign, List.drop_one, List.tail_cons, hdigits, hfraction, hexponent]
  rw [← List.drop_one, drop_pointText, value_eq]
  rfl

end Numeral

/-! ## The layout -/

theorem digitsValue_append (a b : Str) :
    digitsValue (a ++ b) = digitsValue a * 10 ^ b.length + digitsValue b := by
  induction b using List.reverseRecOn with
  | nil => simp [digitsValue]
  | append_singleton b c ih =>
    have hlast : ∀ s : Str, digitsValue (s ++ [c]) = digitsValue s * 10 + (c - 48) := fun s => by
      simp only [digitsValue, List.foldl_append, List.foldl_cons, List.foldl_nil]
    rw [← List.append_assoc, hlast, ih, hlast, List.length_append, List.length_singleton, pow_succ]
    ring

theorem digitsValue_zeros (k : ℕ) : digitsValue (List.replicate k 48) = 0 := by
  induction k with
  | zero => rfl
  | succ k ih =>
    rw [List.replicate_succ', digitsValue_append, ih]
    rfl

theorem isDigit_zeros (k : ℕ) : ∀ c ∈ List.replicate k 48, isDigit c = true := fun c hc => by
  rw [List.eq_of_mem_replicate hc]
  rfl

/-- The zeros that are not written. -/
theorem stripZeros_append (s : Str) : ∃ k, s = stripZeros s ++ List.replicate k 48 := by
  induction s using List.reverseRecOn with
  | nil => exact ⟨0, rfl⟩
  | append_singleton s c ih =>
    by_cases hc : c = 48
    · obtain ⟨k, hk⟩ := ih
      have hstrip : stripZeros (s ++ [c]) = stripZeros s := by simp [stripZeros, hc]
      exact ⟨k + 1, by rw [hstrip, hc, List.replicate_succ', ← List.append_assoc, ← hk]⟩
    · have hstrip : stripZeros (s ++ [c]) = s ++ [c] := by simp [stripZeros, hc]
      exact ⟨0, by rw [hstrip]; exact (List.append_nil _).symm⟩

theorem exponentOf_exponentText (e : ℤ) :
    IsExponent (101 :: exponentText e) ∧ exponentOf (101 :: exponentText e) = e := by
  have hdigits : ∀ c ∈ List.replicate (2 - (decimalDigits e.natAbs).length) 48 ++ decimalDigits e.natAbs,
      isDigit c = true := by
    rw [List.forall_mem_append]
    exact ⟨isDigit_zeros _, fun c hc => isDigit_toDigits hc⟩
  have hvalue : digitsValue (List.replicate (2 - (decimalDigits e.natAbs).length) 48
      ++ decimalDigits e.natAbs) = e.natAbs := by
    rw [digitsValue_append, digitsValue_zeros, Nat.zero_mul, Nat.zero_add]
    exact digitsValue_toDigits _
  have hne : List.replicate (2 - (decimalDigits e.natAbs).length) 48 ++ decimalDigits e.natAbs ≠ [] := by
    obtain ⟨c, ds, hds, -⟩ := toDigits_cons e.natAbs
    rw [decimalDigits, hds]
    exact List.append_ne_nil_of_right_ne_nil _ (List.cons_ne_nil c ds)
  unfold exponentText
  split_ifs with hneg
  · refine ⟨.inr ⟨45, _, rfl, .inr rfl, hne, hdigits⟩, ?_⟩
    show -((digitsValue _ : ℕ) : ℤ) = e
    rw [hvalue]
    omega
  · refine ⟨.inr ⟨43, _, rfl, .inl rfl, hne, hdigits⟩, ?_⟩
    show ((digitsValue _ : ℕ) : ℤ) = e
    rw [hvalue]
    omega

/-- **The three layouts are numerals** of the value that the digits and the exponent stand for. -/
theorem layout_numeral {c : ℕ} {t : Str} (hc : 49 ≤ c ∧ c ≤ 57) (ht : ∀ d ∈ t, isDigit d = true) (e : ℤ) :
    ∃ n : Numeral, layout (c :: t) e = n.text ∧ n.value = digitsValue (c :: t) * 10 ^ (e - t.length) := by
  have hdigits : ∀ d ∈ c :: t, isDigit d = true := by
    rw [List.forall_mem_cons]
    exact ⟨decide_eq_true (by omega), ht⟩
  have hlength : (c :: t).length = t.length + 1 := List.length_cons
  unfold layout
  split_ifs with hplain hlong hsmall
  · -- all digits are before the point, with zeros up to it
    obtain ⟨k, hk⟩ : ∃ k : ℕ, e = t.length + k := ⟨(e - t.length).toNat, by omega⟩
    have htake : (c :: t ++ List.replicate 17 48).take (e.toNat + 1) = c :: (t ++ List.replicate k 48) := by
      have hzeros : e.toNat + 1 - (c :: t).length = k := by omega
      rw [List.take_append, List.take_of_length_le hlong, hzeros, List.take_replicate,
        min_eq_left (by omega), List.cons_append]
    let n : Numeral := ⟨c :: (t ++ List.replicate k 48), [48], [],
      .inr ⟨c, _, rfl, hc, List.forall_mem_append.mpr ⟨ht, isDigit_zeros k⟩⟩, by decide, .inl rfl,
      .inl (List.cons_ne_nil 48 [])⟩
    refine ⟨n, ?_, ?_⟩
    · rw [htake, Numeral.text, List.append_nil]
    · have hwhole : c :: (t ++ List.replicate k 48) ++ [48] = c :: t ++ List.replicate (k + 1) 48 := by
        rw [List.replicate_succ', List.cons_append, List.cons_append, List.append_assoc]
      have hpoint : (10 : ℚ) ^ (k + 1) * 10 ^ ((0 : ℤ) - (1 : ℕ)) = 10 ^ k := by
        rw [← zpow_natCast, ← zpow_natCast, ← zpow_add₀ (by norm_num)]
        congr 1
        omega
      have hexponent : e - t.length = (k : ℤ) := by omega
      show (digitsValue (c :: (t ++ List.replicate k 48) ++ [48]) : ℚ) * 10 ^ ((0 : ℤ) - (1 : ℕ)) = _
      rw [hwhole, digitsValue_append, digitsValue_zeros, List.length_replicate, Nat.add_zero, Nat.cast_mul,
        Nat.cast_pow, Nat.cast_ofNat, mul_assoc, hpoint, hexponent, zpow_natCast]
  · -- the point is among the digits
    obtain ⟨k, hk⟩ : ∃ k : ℕ, e = k := ⟨e.toNat, by omega⟩
    have htoNat : e.toNat = k := by omega
    have htake : (c :: t ++ List.replicate 17 48).take (k + 1) = c :: t.take k := by
      rw [List.take_append_of_le_length (by omega), List.take_succ_cons]
    let n : Numeral := ⟨c :: t.take k, t.drop k, [],
      .inr ⟨c, _, rfl, hc, fun d hd => ht d (List.mem_of_mem_take hd)⟩,
      fun d hd => ht d (List.mem_of_mem_drop hd), .inl rfl, .inl ?_⟩
    · refine ⟨n, ?_, ?_⟩
      · rw [htoNat, htake, List.drop_succ_cons, Numeral.text, List.append_nil]
      · have hwhole : c :: t.take k ++ t.drop k = c :: t := by
          rw [List.cons_append, List.take_append_drop]
        have hexponent : (0 : ℤ) - ((t.drop k).length : ℕ) = e - t.length := by
          rw [List.length_drop]
          omega
        show (digitsValue (c :: t.take k ++ t.drop k) : ℚ) * 10 ^ ((0 : ℤ) - ((t.drop k).length : ℕ)) = _
        rw [hwhole, hexponent]
    · rw [Ne, List.drop_eq_nil_iff]
      omega
  · -- zeros between the point and the digits
    obtain ⟨k, hk⟩ : ∃ k : ℕ, e = -(k + 1 : ℕ) := ⟨(-e).toNat - 1, by omega⟩
    have hzeros : (-e).toNat - 1 = k := by omega
    let n : Numeral := ⟨[48], List.replicate k 48 ++ c :: t, [], .inl rfl,
      List.forall_mem_append.mpr ⟨isDigit_zeros k, hdigits⟩, .inl rfl,
      .inl (List.append_ne_nil_of_right_ne_nil _ (List.cons_ne_nil c t))⟩
    refine ⟨n, ?_, ?_⟩
    · rw [hzeros, Numeral.text, List.append_nil]
      rfl
    · have hwhole : [48] ++ (List.replicate k 48 ++ c :: t) = List.replicate (k + 1) 48 ++ c :: t := by
        rw [List.replicate_succ]
        rfl
      have hexponent : (0 : ℤ) - ((List.replicate k 48 ++ c :: t).length : ℕ) = e - t.length := by
        rw [List.length_append, List.length_replicate]
        omega
      show (digitsValue ([48] ++ (List.replicate k 48 ++ c :: t)) : ℚ)
        * 10 ^ ((0 : ℤ) - ((List.replicate k 48 ++ c :: t).length : ℕ)) = _
      rw [hwhole, hexponent, digitsValue_append, digitsValue_zeros, Nat.zero_mul, Nat.zero_add]
  · obtain ⟨hexponent, hvalue⟩ := exponentOf_exponentText e
    let n : Numeral := ⟨[c], t, 101 :: exponentText e, .inr ⟨c, [], rfl, hc, nofun⟩, ht, hexponent,
      .inr (List.cons_ne_nil _ _)⟩
    refine ⟨n, List.append_assoc _ _ _, ?_⟩
    show (digitsValue ([c] ++ t) : ℚ) * 10 ^ (exponentOf (101 :: exponentText e) - t.length) = _
    rw [hvalue]
    rfl

/-! ## The text -/

/-- **The text of a positive double** is a numeral that is rounded to it. -/
theorem positiveText_numeral {q : ℚ} (hq : 0 < q) (hdouble : IsDouble (.finite q)) :
    ∃ n : Numeral, positiveText q (log10 q 640 308) = n.text ∧ roundDouble n.value = .finite q := by
  have hnames := shortest_names hq hdouble (zpow_log10_le_double hq hdouble) 17 1 rfl (by decide)
  unfold positiveText
  obtain ⟨e, he⟩ : ∃ e, log10 q 640 308 = e := ⟨_, rfl⟩
  obtain ⟨⟨d, count⟩, hshortest⟩ : ∃ p, shortest q e 17 1 = p := ⟨_, rfl⟩
  rw [he, hshortest] at hnames ⊢
  dsimp only at hnames ⊢
  have hd : 0 < d := by
    rw [Nat.pos_iff_ne_zero]
    rintro rfl
    rw [Nat.cast_zero, zero_mul, roundDouble, if_pos rfl] at hnames
    exact hq.ne (PyFloat.finite.inj hnames)
  obtain ⟨c, ds, hdigits, hc⟩ := toDigits_head hd
  obtain ⟨k, hk⟩ := stripZeros_append (decimalDigits d)
  have hvalue : digitsValue (decimalDigits d) = d := digitsValue_toDigits d
  obtain ⟨t, ht⟩ : ∃ t, stripZeros (decimalDigits d) = c :: t := by
    cases hstrip : stripZeros (decimalDigits d) with
    | nil =>
      rw [hstrip, List.nil_append] at hk
      rw [hk, digitsValue_zeros] at hvalue
      omega
    | cons c' t =>
      rw [hstrip] at hk
      obtain ⟨rfl, -⟩ := List.cons.inj (hdigits.symm.trans hk)
      exact ⟨t, rfl⟩
  have htail : ∀ a ∈ t, isDigit a = true := fun a ha =>
    isDigit_toDigits (mem_stripZeros (ht.symm ▸ List.mem_cons_of_mem c ha : a ∈ stripZeros (decimalDigits d)))
  obtain ⟨n, htext, hn⟩ := layout_numeral hc htail (e + ((decimalDigits d).length - count))
  refine ⟨n, by rw [ht, htext], ?_⟩
  have hlength : (decimalDigits d).length = t.length + 1 + k := by
    rw [hk, ht, List.length_append, List.length_replicate, List.length_cons]
  have hdigitsValue : (d : ℚ) = digitsValue (c :: t) * 10 ^ (k : ℤ) := by
    rw [← hvalue, hk, ht, digitsValue_append, digitsValue_zeros, List.length_replicate]
    push_cast
    rw [add_zero, zpow_natCast]
  have hexponent : e + ((decimalDigits d).length - count) - t.length = k + (e + 1 - count) := by
    rw [hlength]
    push_cast
    ring
  rw [hn, hexponent, zpow_add₀ (by norm_num), ← mul_assoc, ← hdigitsValue, hnames]

/-- The text of a zero. -/
def zero : Numeral := ⟨[48], [48], [], .inl rfl, by decide, .inl rfl, .inl (by decide)⟩

/-- A finite double is written as a numeral, with a minus sign in front of it or without one. -/
theorem repr_numeral {q : ℚ} (hdouble : IsDouble (.finite q)) :
    ∃ n : Numeral, (repr (.finite q) = n.text ∧ roundDouble n.value = .finite q) ∨
      (repr (.finite q) = 45 :: n.text ∧ roundDouble (-n.value) = .finite q) := by
  rcases lt_trichotomy q 0 with hneg | rfl | hpos
  · have hopposite : IsDouble (.finite (-q)) := isDouble_neg hdouble
    obtain ⟨n, htext, hn⟩ := positiveText_numeral (neg_pos.mpr hneg) hopposite
    refine ⟨n, .inr ⟨?_, ?_⟩⟩
    · rw [repr, if_neg hneg.ne, if_pos hneg, htext]
    · rw [roundDouble_neg, hn, neg, neg_neg]
  · refine ⟨zero, .inl ⟨?_, ?_⟩⟩
    · rw [repr, if_pos rfl]
      rfl
    · have hvalue : zero.value = 0 := by
        show ((0 : ℕ) : ℚ) * _ = 0
        rw [Nat.cast_zero, zero_mul]
      rw [hvalue, roundDouble, if_pos rfl]
  · obtain ⟨n, htext, hn⟩ := positiveText_numeral hpos hdouble
    refine ⟨n, .inl ⟨?_, hn⟩⟩
    rw [repr, if_neg hpos.ne', if_neg hpos.not_gt, htext]

theorem isWs_digit {c : ℕ} (h : isDigit c = true) : isWs c = false ∧ c ≠ 93 := by
  rcases eq_of_isDigit h with rfl | rfl | rfl | rfl | rfl | rfl | rfl | rfl | rfl | rfl <;> decide

/-- What is written as a numeral is read back. -/
theorem Numeral.readsBack (n : Numeral) {x : PyFloat} (htext : repr x = n.text) (hx : roundDouble n.value = x) :
    ReadsBack x := by
  obtain ⟨c, u, hhead, hc⟩ := n.text_head
  have hrepr : FloatText.repr x = n.text := htext
  refine ⟨fun depth r hr => ?_, c, u, by rw [hrepr, hhead], isWs_digit hc⟩
  have hread := n.number_text [] hr
  rw [List.nil_append, n.ofText_text, hx] at hread
  rw [hrepr, ← hread, hhead]
  exact scanOnce_digit depth hc

theorem Numeral.readsBack_minus (n : Numeral) {x : PyFloat} (htext : repr x = 45 :: n.text)
    (hx : roundDouble (-n.value) = x) : ReadsBack x := by
  obtain ⟨c, u, hhead, hc⟩ := n.text_head
  have hrepr : FloatText.repr x = 45 :: n.text := htext
  refine ⟨fun depth r hr => ?_, 45, n.text, hrepr, by decide⟩
  have hread := n.number_text [45] hr
  rw [List.singleton_append, n.ofText_minus, hx] at hread
  rw [hrepr, ← hread, hhead]
  exact scanOnce_minus depth hc

/-- **The text of every double is read back.** -/
theorem readsBack_of_isDouble {x : PyFloat} (h : IsDouble x) : ReadsBack x := by
  cases x with
  | finite q =>
    obtain ⟨n, ⟨htext, hn⟩ | ⟨htext, hn⟩⟩ := repr_numeral h
    · exact n.readsBack htext hn
    · exact n.readsBack_minus htext hn
  | infinite negative =>
    cases negative with
    | false => exact ⟨fun depth r _ => by cases depth <;> rfl, 73, codes "nfinity", rfl, by decide⟩
    | true => exact ⟨fun depth r _ => by cases depth <;> rfl, 45, codes "Infinity", rfl, by decide⟩
  | nan => exact ⟨fun depth r _ => by cases depth <;> rfl, 78, codes "aN", rfl, by decide⟩

end HardwareTest.Python.PyFloat
