import Mathlib.Algebra.Order.Field.Power
import Mathlib.Algebra.Order.Ring.Rat
import Mathlib.Tactic.FieldSimp
import Mathlib.Tactic.Linarith
import Mathlib.Tactic.NormNum
import Mathlib.Tactic.Positivity
import Mathlib.Tactic.Ring
import LocalScopes.Decimal.Binary64

/-! # Rounding to 53 bits

What a rounding comes to is told by the exact number that is rounded, a rational (`Rounded`). From
`overflow` on, which lies half a step above the greatest float, there is no answer. Below it the
answer is off by at most half a step, and a step is less than a part in `2 ^ 52` of the number, or
it is the least one there is.

* `round?_rounded`: the rounding of a ratio;
* `ofNat?_rounded`, `mul?_rounded`, `div?_rounded`: the operations. -/

namespace LocalScopes.Binary64

/-- The number that a float stands for. -/
def toRat (x : Binary64) : ℚ := x.mantissa * (2 : ℚ) ^ x.exponent

/-- The least number that is too large to be rounded. -/
def overflow : ℚ := (2 ^ 54 - 1) * 2 ^ 970

theorem overflow_natCast : overflow = ((2 ^ 54 - 1) * 2 ^ 970 : ℕ) := by
  rw [overflow, Nat.cast_mul, Nat.cast_sub (Nat.one_le_two_pow), Nat.cast_pow, Nat.cast_pow,
    Nat.cast_one, Nat.cast_ofNat]

theorem overflow_pos : 0 < overflow := mul_pos (by norm_num) (by positivity)

theorem two_zpow_pos (e : ℤ) : (0 : ℚ) < 2 ^ e := zpow_pos (by norm_num) e

theorem two_zpow_succ (e : ℤ) : (2 : ℚ) ^ (e + 1) = 2 * 2 ^ e := by
  rw [zpow_add₀ (by norm_num), zpow_one, mul_comm]

theorem two_zpow_le {e f : ℤ} (h : e ≤ f) : (2 : ℚ) ^ e ≤ 2 ^ f :=
  zpow_le_zpow_right₀ (by norm_num) h

theorem toRat_nonneg (x : Binary64) : 0 ≤ x.toRat :=
  mul_nonneg (Nat.cast_nonneg _) (two_zpow_pos _).le

/-! ### Quotients -/

theorem roundDiv_bounds (num : ℕ) {den : ℕ} (hden : 0 < den) :
    2 * num ≤ 2 * (roundDiv num den * den) + den ∧
      2 * (roundDiv num den * den) ≤ 2 * num + den := by
  have hsplit : den * (num / den) + num % den = num := Nat.div_add_mod num den
  have hlt : num % den < den := Nat.mod_lt num hden
  have hnext : (num / den + 1) * den = den * (num / den) + den := by ring
  have hsame : num / den * den = den * (num / den) := Nat.mul_comm _ _
  unfold roundDiv
  dsimp only
  split_ifs with hlow hhigh
  · omega
  · omega
  · -- a half goes either way
    have hhalf : 2 * (num % den) = den := by omega
    rcases Nat.mod_two_eq_zero_or_one (num / den) with hparity | hparity
    · rw [hparity, Nat.add_zero]
      omega
    · rw [hparity]
      omega

theorem abs_roundDiv_sub_le (num : ℕ) {den : ℕ} (hden : 0 < den) :
    |(roundDiv num den : ℚ) - num / den| ≤ 1 / 2 := by
  obtain ⟨hlow, hhigh⟩ := roundDiv_bounds num hden
  have hden' : (0 : ℚ) < den := by exact_mod_cast hden
  have hlow' : 2 * (num : ℚ) ≤ 2 * (roundDiv num den * den) + den := by exact_mod_cast hlow
  have hhigh' : 2 * ((roundDiv num den : ℚ) * den) ≤ 2 * num + den := by exact_mod_cast hhigh
  have hnum : (num : ℚ) / den * den = num := div_mul_cancel₀ _ hden'.ne'
  rw [abs_le]
  constructor
  · refine le_of_mul_le_mul_right ?_ hden'
    rw [sub_mul, hnum]
    linarith
  · refine le_of_mul_le_mul_right ?_ hden'
    rw [sub_mul, hnum]
    linarith

/-! ### Scaling -/

theorem shifted_pos (num : ℕ) {den : ℕ} (hden : 0 < den) (shift : ℤ) :
    0 < (shifted num den shift).2 := by
  unfold shifted
  exact Nat.shiftLeft_pos_iff.mpr hden

theorem shifted_ratio (num : ℕ) {den : ℕ} (hden : 0 < den) (shift : ℤ) :
    ((shifted num den shift).1 : ℚ) / (shifted num den shift).2 = num / den * 2 ^ (-shift) := by
  have hden' : (den : ℚ) ≠ 0 := by exact_mod_cast hden.ne'
  unfold shifted
  rw [Nat.shiftLeft_eq, Nat.shiftLeft_eq]
  push_cast
  rw [← zpow_natCast, ← zpow_natCast, mul_div_mul_comm, ← zpow_sub₀ (by norm_num)]
  congr 2
  omega

theorem log2_bounds {n : ℕ} (hn : 0 < n) :
    (2 : ℚ) ^ (n.log2 : ℤ) ≤ n ∧ (n : ℚ) < 2 * 2 ^ (n.log2 : ℤ) := by
  have hle : 2 ^ n.log2 ≤ n := Nat.log2_self_le hn.ne'
  have hlt : n < 2 ^ (n.log2 + 1) := Nat.lt_log2_self
  rw [zpow_natCast]
  constructor
  · exact_mod_cast hle
  · rw [Nat.pow_succ, Nat.mul_comm] at hlt
    exact_mod_cast hlt

/-- Between the powers of two next to it, a ratio is within a factor of two of their quotient. -/
theorem ratio_bounds {num den : ℕ} (hnum : 0 < num) (hden : 0 < den) {shift : ℤ}
    (hshift : shift = num.log2 - den.log2 - 53) :
    (2 : ℚ) ^ 52 ≤ num / den * 2 ^ (-shift) ∧ (num : ℚ) / den * 2 ^ (-shift) < 2 ^ 54 := by
  obtain ⟨hnumLow, hnumHigh⟩ := log2_bounds hnum
  obtain ⟨hdenLow, hdenHigh⟩ := log2_bounds hden
  have hden' : (0 : ℚ) < den := by exact_mod_cast hden
  have hpower : (2 : ℚ) ^ (-shift) = 2 ^ (den.log2 : ℤ) * 2 ^ 53 / 2 ^ (num.log2 : ℤ) := by
    rw [eq_div_iff (two_zpow_pos _).ne', ← zpow_natCast (2 : ℚ) 53, ← zpow_add₀ (by norm_num),
      ← zpow_add₀ (by norm_num), hshift]
    congr 1
    push_cast
    ring
  have hN := two_zpow_pos num.log2
  have hD := two_zpow_pos den.log2
  rw [hpower, div_mul_div_comm]
  generalize (2 : ℚ) ^ (num.log2 : ℤ) = N at *
  generalize (2 : ℚ) ^ (den.log2 : ℤ) = D at *
  constructor
  · rw [le_div_iff₀ (mul_pos hden' hN)]
    have hcross : (den : ℚ) * N ≤ 2 * D * num :=
      mul_le_mul hdenHigh.le hnumLow hN.le (by linarith)
    nlinarith
  · rw [div_lt_iff₀ (mul_pos hden' hN)]
    have hcross : (num : ℚ) * D < 2 * N * den :=
      mul_lt_mul hnumHigh hdenLow hD (by linarith)
    nlinarith

/-- The quotient that is left has 53 bits. -/
theorem fittingShift_bounds {num den : ℕ} (hnum : 0 < num) (hden : 0 < den) :
    (2 : ℚ) ^ 52 ≤ num / den * 2 ^ (-fittingShift num den) ∧
      (num : ℚ) / den * 2 ^ (-fittingShift num den) < 2 ^ 53 := by
  obtain ⟨shift, hshift⟩ : ∃ shift : ℤ, shift = num.log2 - den.log2 - 53 := ⟨_, rfl⟩
  obtain ⟨hlow, hhigh⟩ := ratio_bounds hnum hden hshift
  have hpos := shifted_pos num hden shift
  have hratio := shifted_ratio num hden shift
  have hfit : fittingShift num den =
      if (shifted num den shift).1 / (shifted num den shift).2 < 2 ^ 53 then shift
      else shift + 1 := by
    rw [hshift]
    rfl
  have hquotient : (shifted num den shift).1 / (shifted num den shift).2 < 2 ^ 53 ↔
      (num : ℚ) / den * 2 ^ (-shift) < 2 ^ 53 := by
    have hpos' : (0 : ℚ) < (shifted num den shift).2 := by exact_mod_cast hpos
    rw [Nat.div_lt_iff_lt_mul hpos, ← hratio, div_lt_iff₀ hpos']
    norm_cast
  rw [hfit]
  split_ifs with h
  · exact ⟨hlow, hquotient.mp h⟩
  · have hge : (2 : ℚ) ^ 53 ≤ num / den * 2 ^ (-shift) := not_lt.mp fun hlt => h (hquotient.mpr hlt)
    have hhalf : (num : ℚ) / den * 2 ^ (-shift) = 2 * (num / den * 2 ^ (-(shift + 1))) := by
      rw [show -shift = -(shift + 1) + 1 by ring, two_zpow_succ]
      ring
    rw [hhalf] at hge hhigh
    constructor <;> linarith

/-! ### Rounding -/

/-- **What the number `q` is rounded to**: nothing, or a float in steps of `2 ^ step`, where `q` has
at least `2 ^ 52` steps, or there are none that are smaller. -/
inductive Rounded (q : ℚ) : Option Binary64 → Prop
  | finite {x : Binary64} (step : ℤ) (error : |x.toRat - q| ≤ 2 ^ step / 2)
      (fine : step = minExponent ∨ 2 ^ 52 * 2 ^ step ≤ q) (le : q ≤ overflow) :
      Rounded q (some x)
  | none (le : overflow ≤ q) : Rounded q none

/-- The step in which a ratio is rounded. -/
theorem fittingStep {num den : ℕ} (hnum : 0 < num) (hden : 0 < den) {exponent step : ℤ}
    (hstep : step = max minExponent (fittingShift num den + exponent)) :
    (num : ℚ) / den * 2 ^ exponent < 2 ^ 53 * 2 ^ step ∧
      (step = minExponent ∨ (2 : ℚ) ^ 52 * 2 ^ step ≤ num / den * 2 ^ exponent) := by
  obtain ⟨hlow, hhigh⟩ := fittingShift_bounds hnum hden
  have hexponent : (2 : ℚ) ^ exponent =
      2 ^ (-fittingShift num den) * 2 ^ (fittingShift num den + exponent) := by
    rw [← zpow_add₀ (by norm_num)]
    congr 1
    ring
  have hpos := two_zpow_pos (fittingShift num den + exponent)
  rw [hexponent, ← mul_assoc]
  generalize (num : ℚ) / den * 2 ^ (-fittingShift num den) = x at hlow hhigh
  constructor
  · have hle : (2 : ℚ) ^ (fittingShift num den + exponent) ≤ 2 ^ step :=
      two_zpow_le (hstep ▸ le_max_right _ _)
    calc x * 2 ^ (fittingShift num den + exponent)
        < 2 ^ 53 * 2 ^ (fittingShift num den + exponent) := mul_lt_mul_of_pos_right hhigh hpos
      _ ≤ 2 ^ 53 * 2 ^ step := mul_le_mul_of_nonneg_left hle (by norm_num)
  · rcases max_choice minExponent (fittingShift num den + exponent) with h | h
    · exact .inl (hstep.trans h)
    · right
      rw [hstep.trans h]
      exact mul_le_mul_of_nonneg_right hlow hpos.le

/-- The float of a rounded mantissa, which may have one bit too many. -/
def carry (mantissa : ℕ) (step : ℤ) : Binary64 :=
  if mantissa = mantissaBound then ⟨leastFullMantissa, step + 1⟩ else ⟨mantissa, step⟩

theorem mantissaBound_eq : mantissaBound = 2 ^ 53 := by
  rw [mantissaBound, precision, Nat.one_shiftLeft]

theorem leastFullMantissa_eq : leastFullMantissa = 2 ^ 52 := by
  rw [leastFullMantissa, precision, Nat.one_shiftLeft]

theorem toRat_carry (mantissa : ℕ) (step : ℤ) :
    (carry mantissa step).toRat = mantissa * 2 ^ step := by
  unfold carry toRat
  split_ifs with h
  · rw [h, mantissaBound_eq, leastFullMantissa_eq, two_zpow_succ]
    push_cast
    ring
  · rfl

theorem overflow_eq : overflow = (2 ^ 53 - 1 / 2) * 2 ^ maxExponent := by
  have hpower : (2 : ℚ) ^ maxExponent = 2 * 2 ^ 970 := by
    rw [show maxExponent = (970 : ℕ) + 1 from rfl, two_zpow_succ, zpow_natCast]
  unfold overflow
  rw [hpower]
  generalize (2 : ℚ) ^ 970 = power
  ring

section Carry
variable {q : ℚ} {mantissa : ℕ} {step : ℤ} (hlt : q < 2 ^ 53 * 2 ^ step)
  (hfine : step = minExponent ∨ 2 ^ 52 * 2 ^ step ≤ q)
  (herror : |(mantissa : ℚ) * 2 ^ step - q| ≤ 2 ^ step / 2)
include hlt herror

theorem mantissa_le : mantissa ≤ 2 ^ 53 := by
  have hstep := two_zpow_pos step
  obtain ⟨-, hhigh⟩ := abs_le.mp herror
  by_contra hgt
  have hgt' : ((2 ^ 53 + 1 : ℕ) : ℚ) ≤ mantissa := by exact_mod_cast not_le.mp hgt
  have hmore := mul_le_mul_of_nonneg_right hgt' hstep.le
  push_cast at hmore
  linarith

include hfine

theorem rounded_carry :
    Rounded q (if (carry mantissa step).exponent ≤ maxExponent then some (carry mantissa step)
      else none) := by
  have hstep := two_zpow_pos step
  have hmantissa := mantissa_le hlt herror
  have hfinite := fun hle => Rounded.finite (x := carry mantissa step) step
    (by rwa [toRat_carry]) hfine hle
  obtain ⟨hlow, hhigh⟩ := abs_le.mp herror
  rw [overflow_eq] at hfinite
  by_cases hcarry : mantissa = 2 ^ 53
  · -- the exponent is one greater
    have hexponent : (carry mantissa step).exponent = step + 1 := by
      unfold carry
      rw [if_pos (hcarry.trans mantissaBound_eq.symm)]
    have hexact : (mantissa : ℚ) = 2 ^ 53 := by exact_mod_cast hcarry
    rw [hexact] at hlow hhigh
    split_ifs with hroom
    · rw [hexponent] at hroom
      have hle := two_zpow_le hroom
      rw [two_zpow_succ] at hle
      exact hfinite (by linarith)
    · rw [hexponent, not_le] at hroom
      have hle := two_zpow_le (Int.lt_add_one_iff.mp hroom)
      exact .none (by rw [overflow_eq]; linarith)
  · have hexponent : (carry mantissa step).exponent = step := by
      unfold carry
      rw [if_neg fun h => hcarry (h.trans mantissaBound_eq)]
    have hless : (mantissa : ℚ) + 1 ≤ 2 ^ 53 := by
      exact_mod_cast Nat.lt_of_le_of_ne hmantissa hcarry
    have hmore := mul_le_mul_of_nonneg_right hless hstep.le
    split_ifs with hroom
    · rw [hexponent] at hroom
      have hle := two_zpow_le hroom
      exact hfinite (by linarith)
    · rw [hexponent, not_le] at hroom
      have hle := two_zpow_le (Int.add_one_le_iff.mpr hroom)
      rw [two_zpow_succ] at hle
      rcases hfine with rfl | hmany
      · exact absurd hroom (by decide)
      · exact .none (by rw [overflow_eq]; linarith)

end Carry

theorem round?_rounded (num : ℕ) {den : ℕ} (hden : 0 < den) (exponent : ℤ) :
    Rounded (num / den * 2 ^ exponent) (round? num den exponent) := by
  rcases Nat.eq_zero_or_pos num with rfl | hnum
  · have hzero : ((0 : ℕ) : ℚ) / den * 2 ^ exponent = 0 := by simp
    have hround : round? 0 den exponent = some zero := rfl
    rw [hzero, hround]
    refine .finite minExponent ?_ (.inl rfl) ?_
    · have hpos := two_zpow_pos minExponent
      rw [show zero.toRat = 0 by simp [zero, toRat], sub_zero, abs_zero]
      linarith
    · exact overflow_pos.le
  · obtain ⟨step, hstep⟩ :
        ∃ step : ℤ, step = max minExponent (fittingShift num den + exponent) := ⟨_, rfl⟩
    obtain ⟨hlt, hfine⟩ := fittingStep hnum hden hstep
    have hpos := shifted_pos num hden (step - exponent)
    have hratio := shifted_ratio num hden (step - exponent)
    obtain ⟨mantissa, hmantissa⟩ : ∃ m, m = roundDiv (shifted num den (step - exponent)).1
        (shifted num den (step - exponent)).2 := ⟨_, rfl⟩
    have hround : round? num den exponent =
        if (carry mantissa step).exponent ≤ maxExponent then some (carry mantissa step)
        else none := by
      rw [hmantissa, hstep]
      exact if_neg hnum.ne'
    have hnear := abs_roundDiv_sub_le (shifted num den (step - exponent)).1 hpos
    rw [← hmantissa, hratio, neg_sub, zpow_sub₀ (by norm_num), ← mul_div_assoc] at hnear
    have hpower := two_zpow_pos step
    rw [hround]
    refine rounded_carry hlt hfine ?_
    generalize (num : ℚ) / den * 2 ^ exponent = q at hnear
    have hscale : (mantissa : ℚ) * 2 ^ step - q = (mantissa - q / 2 ^ step) * 2 ^ step := by
      rw [sub_mul, div_mul_cancel₀ _ hpower.ne']
    rw [hscale, abs_mul, abs_of_pos hpower]
    linarith [mul_le_mul_of_nonneg_right hnear hpower.le]

/-! ### Operations -/

theorem ofNat?_rounded (n : ℕ) : Rounded n (ofNat? n) := by
  have h := round?_rounded n Nat.one_pos 0
  rwa [Nat.cast_one, div_one, zpow_zero, mul_one] at h

theorem mul?_rounded (x y : Binary64) : Rounded (x.toRat * y.toRat) (x.mul? y) := by
  have h := round?_rounded (x.mantissa * y.mantissa) Nat.one_pos (x.exponent + y.exponent)
  have heq : ((x.mantissa * y.mantissa : ℕ) : ℚ) / (1 : ℕ) * 2 ^ (x.exponent + y.exponent) =
      x.toRat * y.toRat := by
    rw [zpow_add₀ (by norm_num), Nat.cast_mul, Nat.cast_one, div_one, toRat, toRat]
    ring
  rwa [heq] at h

theorem div?_rounded (x : Binary64) {y : Binary64} (hy : 0 < y.toRat) :
    Rounded (x.toRat / y.toRat) (x.div? y) := by
  have hmantissa : 0 < y.mantissa := by
    refine Nat.pos_of_ne_zero fun h => ?_
    rw [toRat, h, Nat.cast_zero, zero_mul] at hy
    exact lt_irrefl _ hy
  have h := round?_rounded x.mantissa hmantissa (x.exponent - y.exponent)
  have heq : (x.mantissa : ℚ) / y.mantissa * 2 ^ (x.exponent - y.exponent) = x.toRat / y.toRat := by
    rw [zpow_sub₀ (by norm_num), toRat, toRat, mul_div_mul_comm]
  rwa [heq] at h

namespace Rounded

variable {q : ℚ} {answer : Option Binary64} (h : Rounded q answer)
include h

theorem exists_of_lt (hq : q < overflow) : ∃ x, answer = some x := by
  cases h with
  | finite => exact ⟨_, rfl⟩
  | none le => exact absurd hq (not_lt.mpr le)

theorem le_overflow {x : Binary64} (hx : answer = some x) : q ≤ overflow := by
  cases h with
  | finite step error fine le => exact le
  | none => cases hx

/-- A number from 1 on is off by at most one part in `2 ^ 53`. -/
theorem error_le {x : Binary64} (hx : answer = some x) (hq : 1 ≤ q) :
    |x.toRat - q| ≤ q / 2 ^ 53 := by
  cases h with
  | none => cases hx
  | finite step error fine =>
    cases hx
    rcases fine with rfl | fine
    · have htiny : (2 : ℚ) ^ minExponent ≤ 2 ^ (-52 : ℤ) := two_zpow_le (by decide)
      have hpart : (2 : ℚ) ^ (-52 : ℤ) = 1 / 2 ^ 52 := by norm_num
      rw [hpart] at htiny
      linarith
    · linarith

/-- The answer is not much greater than the number. -/
theorem toRat_le {x : Binary64} (hx : answer = some x) (hq : 0 ≤ q) : x.toRat ≤ 2 * q + 1 := by
  cases h with
  | none => cases hx
  | finite step error fine =>
    cases hx
    have hnear := (abs_le.mp error).2
    rcases fine with rfl | fine
    · have htiny : (2 : ℚ) ^ minExponent ≤ 2 ^ (0 : ℤ) := two_zpow_le (by decide)
      rw [zpow_zero] at htiny
      linarith
    · linarith

end Rounded

theorem ofNat?_near {n : ℕ} (hn : (n : ℚ) < overflow) :
    ∃ x, ofNat? n = some x ∧ |x.toRat - n| ≤ n / 2 ^ 53 := by
  rcases Nat.eq_zero_or_pos n with rfl | hpos
  · exact ⟨zero, rfl, by simp [zero, toRat]⟩
  · obtain ⟨x, hx⟩ := (ofNat?_rounded n).exists_of_lt hn
    exact ⟨x, hx, (ofNat?_rounded n).error_le hx (by exact_mod_cast hpos)⟩

end LocalScopes.Binary64
