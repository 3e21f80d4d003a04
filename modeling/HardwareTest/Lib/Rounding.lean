import Mathlib.Algebra.Order.Field.Power
import Mathlib.Data.Int.Log
import Mathlib.Tactic.Linarith
import Mathlib.Tactic.Positivity
import Mathlib.Tactic.Ring

/-!
# Rounding to binary digits

The numbers of a binary format are the multiples of a unit that depends on the size of the number: `p`
digits fit above it, and it is never smaller than `2 ^ emin`.  To round a number is to take a nearest
multiple of its own unit, which need not be the unit of the number that it came from.

* `unit`, `OnGrid` — the unit of a positive number, and the numbers of the format;
* `Close` — so close to a number that half a unit is more, whatever the unit is;
* `eq_of_close` — what is close to a number of the format is rounded to it;
* `onGrid_of_near` — what a number is rounded to is a number of the format;
* `close_of_digits` — with enough decimal digits, the nearest decimal is close.
-/

namespace HardwareTest.Lib.Rounding

/-- A multiple of a power is a multiple of every smaller one. -/
theorem multiple_of_le {K : Type*} [Field K] [NeZero (2 : K)] {m i j : ℤ} (hij : j ≤ i) :
    ∃ n : ℤ, (m : K) * 2 ^ i = n * 2 ^ j := by
  obtain ⟨k, rfl⟩ : ∃ k : ℕ, i = k + j := ⟨(i - j).toNat, by omega⟩
  refine ⟨m * 2 ^ k, ?_⟩
  rw [zpow_add₀ two_ne_zero, zpow_natCast]
  push_cast
  ring

/-! ## Closeness -/

section Close

variable {K : Type*} [Field K] [LinearOrder K] [IsStrictOrderedRing K] {p : ℕ} {x q : K}

/-- `x` is closer to `q` than `2 ^ (p + 1)` parts of `x`. -/
def Close (p : ℕ) (x q : K) : Prop := |x - q| * 2 ^ (p + 1) < x

theorem Close.pos (h : Close p x q) : 0 < x := lt_of_le_of_lt (by positivity) h

/-- **Enough decimal digits.**  When `n` digits after the first are finer than `p` binary digits, a
nearest decimal with that many digits is close. -/
theorem close_of_digits {n : ℕ} (hn : 2 ^ p < 10 ^ n) {e : ℤ} (hq : (10 : K) ^ e ≤ q)
    (hx : |x - q| ≤ 10 ^ (e - n) / 2) : Close p x q := by
  have hpos : (0 : K) < 10 ^ (e - n) := by positivity
  have hdigits : (2 : K) ^ p + 1 ≤ 10 ^ n := by exact_mod_cast hn
  have hscale : (10 : K) ^ e = 10 ^ n * 10 ^ (e - n) := by
    rw [← zpow_natCast, ← zpow_add₀ (by norm_num)]
    congr 1
    omega
  have hbelow := (abs_le.mp hx).1
  have hpow : (0 : K) < 2 ^ p := by positivity
  rw [Close, pow_succ]
  nlinarith

end Close

/-! ## Units -/

section Unit

variable {K : Type*} [Field K] [LinearOrder K] [IsStrictOrderedRing K] [FloorRing K]

/-- The exponent of the unit: `p` digits from the first, but no less than `emin`. -/
def unitExponent (p : ℕ) (emin : ℤ) (x : K) : ℤ := max (Int.log 2 x + 1 - p) emin

def unit (p : ℕ) (emin : ℤ) (x : K) : K := 2 ^ unitExponent p emin x

/-- A number of the format. -/
def OnGrid (p : ℕ) (emin : ℤ) (q : K) : Prop := ∃ m : ℤ, q = m * unit p emin q

variable {p : ℕ} {emin : ℤ} {x q : K}

theorem unit_pos (p : ℕ) (emin : ℤ) (x : K) : 0 < unit p emin x := zpow_pos two_pos _

theorem zpow_log_le (hx : 0 < x) : (2 : K) ^ Int.log 2 x ≤ x := by
  have h := Int.zpow_log_le_self (b := 2) Nat.one_lt_two hx
  rwa [Nat.cast_ofNat] at h

theorem lt_zpow_log (x : K) : x < (2 : K) ^ (Int.log 2 x + 1) := by
  have h := Int.lt_zpow_succ_log_self (b := 2) Nat.one_lt_two x
  rwa [Nat.cast_ofNat] at h

/-- `p` digits above the unit are more than the number. -/
theorem lt_unit (p : ℕ) (emin : ℤ) (x : K) : x < 2 ^ p * unit p emin x := by
  have hexponent : Int.log 2 x + 1 ≤ p + unitExponent p emin x := by
    have := le_max_left (Int.log 2 x + 1 - p) emin
    rw [unitExponent]
    omega
  calc x < 2 ^ (Int.log 2 x + 1) := lt_zpow_log x
    _ ≤ 2 ^ ((p : ℤ) + unitExponent p emin x) := zpow_le_zpow_right₀ one_le_two hexponent
    _ = 2 ^ p * unit p emin x := by rw [zpow_add₀ two_ne_zero, zpow_natCast, unit]

/-- **Closeness is less than half a unit.** -/
theorem Close.lt_half_unit (h : Close p x q) (emin : ℤ) : |x - q| < unit p emin x / 2 := by
  have hpow : (0 : K) < 2 ^ p := by positivity
  have hlt : |x - q| * 2 ^ (p + 1) < 2 ^ p * unit p emin x := h.trans (lt_unit p emin x)
  rw [pow_succ] at hlt
  rw [lt_div_iff₀ two_pos]
  nlinarith

/-- **The unit does not grow** from a number of the format to what is close to it: the first number with a
larger unit is at least a unit away. -/
theorem Close.unitExponent_le (h : Close p x q) (hgrid : OnGrid p emin q) :
    unitExponent p emin x ≤ unitExponent p emin q := by
  by_contra hlt
  rw [not_le] at hlt
  obtain ⟨m, hm⟩ := hgrid
  have hpos := unit_pos p emin q
  have hx : p + unitExponent p emin q ≤ Int.log 2 x := by
    have := le_max_right (Int.log 2 q + 1 - p) emin
    unfold unitExponent at hlt ⊢
    omega
  obtain ⟨k, hk⟩ : ∃ k : ℕ, Int.log 2 x = k + unitExponent p emin q :=
    ⟨(Int.log 2 x - unitExponent p emin q).toNat, by omega⟩
  have hfirst : (2 : K) ^ Int.log 2 x = 2 ^ k * unit p emin q := by
    rw [hk, zpow_add₀ two_ne_zero, zpow_natCast, unit]
  have hunit : q + unit p emin q ≤ x := by
    have hq : q < 2 ^ k * unit p emin q := by
      refine (lt_unit p emin q).trans_le ?_
      have hdigits : (2 : K) ^ p ≤ 2 ^ k := pow_le_pow_right₀ one_le_two (by omega)
      exact mul_le_mul_of_nonneg_right hdigits hpos.le
    have hm' : (m : K) < 2 ^ k := lt_of_mul_lt_mul_right (hm.symm.trans_lt hq) hpos.le
    have hnext : (m : K) + 1 ≤ 2 ^ k := by
      have hint : m < 2 ^ k := by exact_mod_cast hm'
      exact_mod_cast hint
    calc q + unit p emin q = (m + 1) * unit p emin q := by rw [add_mul, one_mul, ← hm]
      _ ≤ 2 ^ k * unit p emin q := mul_le_mul_of_nonneg_right hnext hpos.le
      _ ≤ x := hfirst.symm.trans_le (zpow_log_le h.pos)
  have hdistance : |x - q| = x - q := abs_of_nonneg (by linarith)
  have hone : (1 : K) ≤ 2 ^ p := one_le_pow₀ one_le_two
  have hclose : (x - q) * 2 ^ (p + 1) < x := by
    rw [← hdistance]
    exact h
  have hbelow := lt_unit p emin q
  rw [pow_succ] at hclose
  nlinarith

/-- The unit of what is close to a number of the format divides that number. -/
theorem Close.exists_multiple (h : Close p x q) (hgrid : OnGrid p emin q) :
    ∃ m : ℤ, q = m * unit p emin x := by
  have hle := h.unitExponent_le hgrid
  obtain ⟨m, hm⟩ := hgrid
  obtain ⟨n, hn⟩ := multiple_of_le (K := K) (m := m) hle
  exact ⟨n, hm.trans hn⟩

/-- **What is close to a number of the format is rounded to it.** -/
theorem eq_of_close (h : Close p x q) (hgrid : OnGrid p emin q) {n : ℤ}
    (hn : |n - x / unit p emin x| ≤ 1 / 2) : n * unit p emin x = q := by
  have hpos := unit_pos p emin x
  obtain ⟨m, hm⟩ := h.exists_multiple hgrid
  have hhalf : |x / unit p emin x - m| < 1 / 2 := by
    have hdivided : x / unit p emin x - m = (x - q) / unit p emin x := by
      rw [sub_div, hm, mul_div_cancel_right₀ _ hpos.ne']
    have hlt := h.lt_half_unit emin
    rw [hdivided, abs_div, abs_of_pos hpos, div_lt_iff₀ hpos]
    linarith
  have hnear : |(n : K) - m| < 1 := by
    have htriangle := abs_sub_le (n : K) (x / unit p emin x) m
    linarith
  have hsame : n = m := by
    have hint : |n - m| < 1 := by exact_mod_cast hnear
    rw [Int.abs_lt_one_iff] at hint
    omega
  rw [hsame, hm]

/-- **What is rounded is a number of the format.**  Rounded up to a power of two, it has a larger unit. -/
theorem onGrid_of_near (hp : 0 < p) {n : ℤ} (hn : |n - x / unit p emin x| ≤ 1 / 2) (hpos : 0 < n) :
    OnGrid p emin (n * unit p emin x) := by
  have hunit := unit_pos p emin x
  have hle : n ≤ 2 ^ p := by
    have hratio : x / unit p emin x < 2 ^ p := (div_lt_iff₀ hunit).mpr (lt_unit p emin x)
    have habove := (abs_le.mp hn).2
    have hlt : (n : K) < 2 ^ p + 1 := by linarith
    have hint : n < 2 ^ p + 1 := by exact_mod_cast hlt
    omega
  have hvalue : (0 : K) < n * unit p emin x := mul_pos (by exact_mod_cast hpos) hunit
  have hmin : emin ≤ unitExponent p emin x := le_max_right _ _
  rcases hle.lt_or_eq with hlt | rfl
  · have hlog : Int.log 2 ((n : K) * unit p emin x) < p + unitExponent p emin x := by
      rw [← Int.lt_zpow_iff_log_lt Nat.one_lt_two hvalue, Nat.cast_ofNat, zpow_add₀ two_ne_zero, zpow_natCast]
      have hdigits : (n : K) < 2 ^ p := by exact_mod_cast hlt
      exact mul_lt_mul_of_pos_right hdigits hunit
    refine multiple_of_le ?_
    rw [unitExponent]
    omega
  · obtain ⟨k, rfl⟩ : ∃ k, p = k + 1 := ⟨p - 1, by omega⟩
    have hpower : (((2 ^ (k + 1) : ℤ)) : K) * unit (k + 1) emin x
        = 2 ^ ((k : ℤ) + (unitExponent (k + 1) emin x + 1)) := by
      rw [unit, zpow_add₀ two_ne_zero, zpow_add₀ two_ne_zero, zpow_natCast]
      push_cast
      ring
    have hlog := Int.log_zpow (R := K) Nat.one_lt_two ((k : ℤ) + (unitExponent (k + 1) emin x + 1))
    rw [Nat.cast_ofNat] at hlog
    rw [hpower]
    have hexponent : unitExponent (k + 1) emin ((2 : K) ^ ((k : ℤ) + (unitExponent (k + 1) emin x + 1)))
        = unitExponent (k + 1) emin x + 1 := by
      rw [unitExponent, hlog]
      push_cast
      omega
    refine ⟨2 ^ k, ?_⟩
    rw [unit, hexponent, zpow_add₀ two_ne_zero, zpow_natCast]
    push_cast
    rfl

end Unit

end HardwareTest.Lib.Rounding
