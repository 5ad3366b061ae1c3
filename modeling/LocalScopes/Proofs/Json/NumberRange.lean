import Mathlib.Tactic.GCongr
import LocalScopes.Proofs.Decimal.Rounding
import LocalScopes.Proofs.Json.NumberText

/-! # Numbers that are too large

A number is read in steps, and only the last may fail. The digits that find no room in 64 bits come
to less than a part in `2 ^ 60` (`NumberText.parts_near`), the significand and the power of ten are
rounded by at most a part in `2 ^ 53` each (`scaled_near`), and what may be too large is the product
of both. So apart from the last steps before the greatest float and the first behind it, a number
has a value just if it is in the range of a float. An exponent of more than 31 bits is not read in
full, which makes a difference only where as many digits make up for it.

* `NumberText.value_ne_none`: numbers below these steps have a value;
* `NumberText.abs_exact_lt`: numbers behind them have none. -/

namespace LocalScopes

open Binary64

namespace Json

/-! ### Digits -/

theorem digit_le {c : Char} (h : c.isDigit = true) : digit c ≤ 9 := by
  have hc := toNat_of_isDigit h
  unfold digit
  omega

theorem ofDigitChars_bounds : ∀ (cs : List Char) (_ : ∀ c ∈ cs, c.isDigit = true) (n : ℕ),
    n * 10 ^ cs.length ≤ Nat.ofDigitChars 10 cs n ∧
      Nat.ofDigitChars 10 cs n + 1 ≤ (n + 1) * 10 ^ cs.length
  | [], _, n => by simp
  | c :: cs, h, n => by
    obtain ⟨hlow, hhigh⟩ := ofDigitChars_bounds cs
      (fun c' hc' => h c' (List.mem_cons_of_mem c hc')) (n * 10 + digit c)
    have hdigit := digit_le (h c List.mem_cons_self)
    rw [ofDigitChars_cons_digit, List.length_cons, Nat.pow_succ]
    constructor
    · calc n * (10 ^ cs.length * 10) = n * 10 * 10 ^ cs.length := by ring
        _ ≤ (n * 10 + digit c) * 10 ^ cs.length := Nat.mul_le_mul_right _ (Nat.le_add_right _ _)
        _ ≤ Nat.ofDigitChars 10 cs (n * 10 + digit c) := hlow
    · calc Nat.ofDigitChars 10 cs (n * 10 + digit c) + 1
          ≤ (n * 10 + digit c + 1) * 10 ^ cs.length := hhigh
        _ ≤ (n + 1) * 10 * 10 ^ cs.length := Nat.mul_le_mul_right _ (by omega)
        _ = (n + 1) * (10 ^ cs.length * 10) := by ring

theorem fraction_bounds {cs : List Char} (h : ∀ c ∈ cs, c.isDigit = true) (n : ℕ) :
    (n : ℚ) ≤ Nat.ofDigitChars 10 cs n * 10 ^ (-(cs.length : ℤ)) ∧
      (Nat.ofDigitChars 10 cs n : ℚ) * 10 ^ (-(cs.length : ℤ)) ≤ n + 1 := by
  obtain ⟨hlow, hhigh⟩ := ofDigitChars_bounds cs h n
  have hpower : (0 : ℚ) < 10 ^ cs.length := by positivity
  rw [zpow_neg, zpow_natCast, ← div_eq_mul_inv, le_div_iff₀ hpower, div_le_iff₀ hpower]
  constructor
  · exact_mod_cast hlow
  · exact_mod_cast (Nat.le_succ _).trans hhigh

/-- The digits that are taken come first. If one is left, it has no room. -/
theorem absorb_split (bound : ℕ) : ∀ (cs : List Char) (_ : ∀ c ∈ cs, c.isDigit = true) (n : ℕ),
    n < bound → ∃ taken left, cs = taken ++ left ∧
      absorb bound n (cs.map digit) = (Nat.ofDigitChars 10 taken n, left.map digit) ∧
      Nat.ofDigitChars 10 taken n < bound ∧
      (left = [] ∨ bound ≤ Nat.ofDigitChars 10 taken n * 10 + 9)
  | [], _, n, hn => ⟨[], [], rfl, by rw [Nat.ofDigitChars_nil]; rfl, by rwa [Nat.ofDigitChars_nil],
      .inl rfl⟩
  | c :: cs, h, n, hn => by
    rw [List.map_cons, absorb]
    split
    · rename_i hlt
      obtain ⟨taken, left, hcs, habsorb, hbound, hleft⟩ :=
        absorb_split bound cs (fun c' hc' => h c' (List.mem_cons_of_mem c hc')) _ hlt
      rw [← ofDigitChars_cons_digit] at habsorb hbound hleft
      exact ⟨c :: taken, left, by rw [hcs, List.cons_append], habsorb, hbound, hleft⟩
    · rename_i hge
      have hdigit := digit_le (h c List.mem_cons_self)
      refine ⟨[], c :: cs, rfl, ?_, ?_, .inr ?_⟩
      · rw [Nat.ofDigitChars_nil, List.map_cons]
      · rwa [Nat.ofDigitChars_nil]
      · rw [Nat.ofDigitChars_nil]
        omega

/-! ### The number that is written -/

namespace NumberText

/-- The number that is written, whatever a float makes of it. -/
def exact (n : NumberText) : ℚ :=
  let fraction := n.fraction.elim [] Digits.chars
  let significand := Nat.ofDigitChars 10 fraction n.whole.value
  let written : ℤ := n.exponent.elim 0 fun e =>
    if e.sign = some true then -e.digits.value else e.digits.value
  (if n.negative then -1 else 1) * significand * 10 ^ (written - fraction.length)

/-- The digits behind the point. -/
def places (n : NumberText) : List Char := n.fraction.elim [] Digits.chars

/-- The number that is written before the exponent, without its sign. -/
def unscaled (n : NumberText) : ℚ :=
  Nat.ofDigitChars 10 n.places n.whole.value * 10 ^ (-(n.places.length : ℤ))

/-- The exponent that is written. -/
def written (n : NumberText) : ℤ :=
  n.exponent.elim 0 fun e => if e.sign = some true then -e.digits.value else e.digits.value

theorem abs_exact (n : NumberText) : |n.exact| = n.unscaled * 10 ^ n.written := by
  have hexact : n.exact = (if n.negative then -1 else 1) *
      Nat.ofDigitChars 10 n.places n.whole.value * 10 ^ (n.written - n.places.length) := rfl
  have hsign : |(if n.negative then -1 else 1 : ℚ)| = 1 := by
    cases n.negative <;> simp
  have hpower : (0 : ℚ) < 10 ^ (n.written - n.places.length) := by positivity
  rw [hexact, abs_mul, abs_mul, hsign, one_mul, Nat.abs_cast, abs_of_pos hpower, unscaled,
    sub_eq_neg_add, zpow_add₀ (by norm_num), mul_assoc]

theorem isDigit_places (n : NumberText) : ∀ c ∈ n.places, c.isDigit = true := by
  intro c hc
  unfold places at hc
  cases hfraction : n.fraction with
  | none => simp [hfraction] at hc
  | some d => exact d.isDigit c (by simpa [hfraction] using hc)

theorem literal_fraction (n : NumberText) : n.literal.fraction = n.places.map digit := by
  rw [literal, places]
  cases n.fraction <;> rfl

theorem length_chars (n : NumberText) :
    n.whole.chars.length + n.places.length ≤ n.chars.length := by
  have hplaces : n.places.length ≤ (fractionChars n.fraction).length := by
    unfold places
    cases n.fraction <;> simp [fractionChars]
  simp only [chars, List.length_append]
  omega

end NumberText

/-! ### Digits without room -/

theorem le_of_no_room {n : ℕ} (h : significandBound ≤ n * 10 + 9) : (2 : ℚ) ^ 60 ≤ n := by
  have hbound : significandBound = 2 ^ 64 := rfl
  have hle : 2 ^ 60 ≤ n := by omega
  exact_mod_cast hle

/-- Two numbers with the same leading digits are close. -/
theorem near_of_leading {leading unit x y : ℚ} (hleading : 2 ^ 60 ≤ leading) (hunit : 0 ≤ unit)
    (hx : leading * unit ≤ x ∧ x ≤ (leading + 1) * unit)
    (hy : leading * unit ≤ y ∧ y ≤ (leading + 1) * unit) : |y - x| ≤ x / 2 ^ 60 := by
  have hnear := abs_sub_le_of_le_of_le hy.1 hy.2 hx.1 hx.2
  have hmany := mul_le_mul_of_nonneg_right hleading hunit
  linarith

/-- The digits before the point that find no room count as places. -/
theorem near_of_spilled {leading : ℕ} (hroom : significandBound ≤ leading * 10 + 9)
    {spilled behind places : List Char} (hspilled : ∀ c ∈ spilled, c.isDigit = true)
    (hbehind : ∀ c ∈ behind, c.isDigit = true) (hplaces : ∀ c ∈ places, c.isDigit = true) :
    |Nat.ofDigitChars 10 places (Nat.ofDigitChars 10 spilled leading) *
          10 ^ (-(places.length : ℤ)) -
        Nat.ofDigitChars 10 behind leading * (10 : ℚ) ^ (spilled.length - behind.length : ℤ)| ≤
      Nat.ofDigitChars 10 behind leading * 10 ^ (spilled.length - behind.length : ℤ) / 2 ^ 60 := by
  have hunit : (0 : ℚ) ≤ 10 ^ spilled.length := by positivity
  obtain ⟨hlow, hhigh⟩ := ofDigitChars_bounds spilled hspilled leading
  obtain ⟨hplacesLow, hplacesHigh⟩ :=
    fraction_bounds hplaces (Nat.ofDigitChars 10 spilled leading)
  obtain ⟨hbehindLow, hbehindHigh⟩ := fraction_bounds hbehind leading
  have hlow' : (leading : ℚ) * 10 ^ spilled.length ≤ Nat.ofDigitChars 10 spilled leading := by
    exact_mod_cast hlow
  have hhigh' : (Nat.ofDigitChars 10 spilled leading : ℚ) + 1 ≤
      (leading + 1) * 10 ^ spilled.length := by exact_mod_cast hhigh
  have hpower : (10 : ℚ) ^ (spilled.length - behind.length : ℤ) =
      10 ^ (-(behind.length : ℤ)) * 10 ^ spilled.length := by
    rw [sub_eq_neg_add, zpow_add₀ (by norm_num), zpow_natCast]
  rw [hpower, ← mul_assoc]
  refine near_of_leading (le_of_no_room hroom) hunit ⟨?_, ?_⟩ ⟨?_, ?_⟩
  · exact mul_le_mul_of_nonneg_right hbehindLow hunit
  · exact mul_le_mul_of_nonneg_right hbehindHigh hunit
  · exact hlow'.trans hplacesLow
  · exact hplacesHigh.trans hhigh'

theorem near_of_dropped {significand : ℕ} {dropped : List Char}
    (hroom : dropped = [] ∨ significandBound ≤ significand * 10 + 9)
    (hdropped : ∀ c ∈ dropped, c.isDigit = true) (behind : ℕ) :
    |Nat.ofDigitChars 10 dropped significand * (10 : ℚ) ^ (-(behind + dropped.length : ℤ)) -
        significand * 10 ^ (-(behind : ℤ))| ≤ significand * 10 ^ (-(behind : ℤ)) / 2 ^ 60 := by
  have hunit : (0 : ℚ) ≤ 10 ^ (-(behind : ℤ)) := by positivity
  have hpower : (10 : ℚ) ^ (-(behind + dropped.length : ℤ)) =
      10 ^ (-(dropped.length : ℤ)) * 10 ^ (-(behind : ℤ)) := by
    rw [neg_add_rev, zpow_add₀ (by norm_num)]
  obtain ⟨hlow, hhigh⟩ := fraction_bounds hdropped significand
  rw [hpower, ← mul_assoc]
  rcases hroom with rfl | hroom
  · have hnone : (Nat.ofDigitChars 10 [] significand : ℚ) * 10 ^ (-(([] : List Char).length : ℤ)) =
        significand := by
      rw [Nat.ofDigitChars_nil, List.length_nil, Nat.cast_zero, neg_zero, zpow_zero, mul_one]
    rw [hnone, sub_self, abs_zero]
    positivity
  · refine near_of_leading (le_of_no_room hroom) hunit ⟨le_rfl, ?_⟩ ⟨?_, ?_⟩
    · exact mul_le_mul_of_nonneg_right (by linarith) hunit
    · exact mul_le_mul_of_nonneg_right hlow hunit
    · exact mul_le_mul_of_nonneg_right hhigh hunit

namespace NumberText

/-- **Digits without room make little difference.** -/
theorem parts_near (n : NumberText) : ∃ significand power,
    n.literal.parts = (significand, power) ∧ significand < significandBound ∧
      |n.unscaled - significand * 10 ^ power| ≤ significand * 10 ^ power / 2 ^ 60 := by
  obtain ⟨whole, spilled, hwhole, habsorbWhole, hboundWhole, hroomWhole⟩ :=
    absorb_split significandBound n.whole.chars n.whole.isDigit 0 (by decide)
  obtain ⟨leading, hleading⟩ : ∃ l, l = Nat.ofDigitChars 10 whole 0 := ⟨_, rfl⟩
  rw [← hleading] at habsorbWhole hboundWhole hroomWhole
  obtain ⟨behind, dropped, hplaces, habsorb, hbound, hroom⟩ :=
    absorb_split significandBound n.places n.isDigit_places leading hboundWhole
  have hparts : n.literal.parts =
      (Nat.ofDigitChars 10 behind leading, (spilled.length : ℤ) - (behind.length : ℤ)) := by
    have hliteral : n.literal.whole = n.whole.chars.map digit := rfl
    have htaken : n.places.length - dropped.length = behind.length := by
      rw [hplaces, List.length_append, Nat.add_sub_cancel]
    simp only [NumberLiteral.parts, hliteral, habsorbWhole, literal_fraction, habsorb,
      List.length_map, htaken]
  have hspilled := n.whole.isDigit
  have hdigits := n.isDigit_places
  rw [hwhole] at hspilled
  rw [hplaces] at hdigits
  obtain ⟨-, hspilled⟩ := List.forall_mem_append.mp hspilled
  obtain ⟨hbehind, hdropped⟩ := List.forall_mem_append.mp hdigits
  refine ⟨_, _, hparts, hbound, ?_⟩
  rw [unscaled, Digits.value, hwhole, Nat.ofDigitChars_append, ← hleading]
  rcases hroomWhole with rfl | hroomWhole
  · rw [hplaces, Nat.ofDigitChars_append, Nat.ofDigitChars_nil, List.length_nil, List.length_append,
      Nat.cast_zero, zero_sub, Nat.cast_add]
    exact near_of_dropped hroom hdropped behind.length
  · exact near_of_spilled hroomWhole hspilled hbehind n.isDigit_places

end NumberText

/-! ### Scaling -/

theorem pow_maxFactor_lt : (10 : ℚ) ^ maxFactor < overflow := by
  have hlt : 10 ^ maxFactor < (2 ^ 54 - 1) * 2 ^ 970 := by decide +kernel
  rw [overflow_natCast]
  exact_mod_cast hlt

theorem overflow_lt : overflow < 10 ^ (maxFactor + 1) := by
  have hlt : (2 ^ 54 - 1) * 2 ^ 970 < 10 ^ (maxFactor + 1) := by decide +kernel
  rw [overflow_natCast]
  exact_mod_cast hlt

theorem powerOfTen?_near {n : ℕ} (hn : n ≤ maxFactor) :
    ∃ t, powerOfTen? n = some t ∧ |t.toRat - 10 ^ n| ≤ 10 ^ n / 2 ^ 53 := by
  have hle : (10 : ℚ) ^ n ≤ 10 ^ maxFactor := pow_le_pow_right₀ (by norm_num) hn
  have hlt : ((Nat.pow 10 n : ℕ) : ℚ) < overflow := by
    rw [Nat.pow_eq, Nat.cast_pow, Nat.cast_ofNat]
    exact hle.trans_lt pow_maxFactor_lt
  obtain ⟨t, ht, hnear⟩ := ofNat?_near hlt
  rw [Nat.pow_eq, Nat.cast_pow, Nat.cast_ofNat] at hnear
  exact ⟨t, ht, hnear⟩

/-- A significand stays below this bound when it is rounded and divided. -/
def quotientBound : ℚ := 2 ^ 65

theorem quotientBound_lt : quotientBound < overflow := by
  have hlt : 2 ^ 65 < (2 ^ 54 - 1) * 2 ^ 970 := by decide +kernel
  rw [overflow_natCast, quotientBound]
  exact_mod_cast hlt

theorem div_powerOfTen? {n : ℕ} (hpos : 0 < n) (hn : n ≤ maxFactor) {x : Binary64}
    (hx : x.toRat ≤ quotientBound) :
    ∃ y, (powerOfTen? n).bind x.div? = some y ∧ y.toRat ≤ quotientBound := by
  obtain ⟨t, ht, hnear⟩ := powerOfTen?_near hn
  have hten : (10 : ℚ) ≤ 10 ^ n := le_self_pow₀ (by norm_num) hpos.ne'
  have hfour : 4 ≤ t.toRat := by
    obtain ⟨hlow, -⟩ := abs_le.mp hnear
    linarith
  have hquotient : x.toRat / t.toRat ≤ quotientBound / 4 :=
    div_le_div₀ (by norm_num [quotientBound]) hx (by norm_num) hfour
  have hnonneg : 0 ≤ x.toRat / t.toRat := div_nonneg x.toRat_nonneg t.toRat_nonneg
  have hrounded := div?_rounded x (show 0 < t.toRat by linarith)
  have hbound := quotientBound_lt
  obtain ⟨y, hy⟩ := hrounded.exists_of_lt (by linarith [x.toRat_nonneg])
  refine ⟨y, by rw [ht, Option.bind_some, hy], ?_⟩
  have hle := hrounded.toRat_le hy hnonneg
  have hone : (1 : ℚ) ≤ quotientBound / 2 := by norm_num [quotientBound]
  linarith

theorem divideRepeatedly_some : ∀ (count : ℕ) {x : Binary64}, x.toRat ≤ quotientBound →
    ∃ y, divideRepeatedly count x = some y ∧ y.toRat ≤ quotientBound
  | 0, x, hx => ⟨x, rfl, hx⟩
  | count + 1, x, hx => by
    rw [divideRepeatedly]
    split_ifs with hzero
    · exact ⟨x, rfl, hx⟩
    · obtain ⟨y, hy, hyBound⟩ := div_powerOfTen? (by decide) le_rfl hx
      rw [hy, Option.bind_some]
      exact divideRepeatedly_some count hyBound

theorem scaleDown_some {x : Binary64} (hx : x.toRat ≤ quotientBound) {n : ℕ} (hn : 0 < n) :
    ∃ y, scaleDown x n = some y := by
  obtain ⟨y, hy, hyBound⟩ := divideRepeatedly_some ((n - 1) / maxFactor) hx
  have hsplit : maxFactor * ((n - 1) / maxFactor) + (n - 1) % maxFactor = n - 1 :=
    Nat.div_add_mod _ _
  have hless : (n - 1) % maxFactor < maxFactor := Nat.mod_lt _ (by decide)
  rw [Nat.mul_comm] at hsplit
  obtain ⟨z, hz, -⟩ := div_powerOfTen? (n := n - (n - 1) / maxFactor * maxFactor)
    (by omega) (by omega) hyBound
  exact ⟨z, by rw [scaleDown, hy, Option.bind_some, hz]⟩

/-- The part by which a product is off whose factors are off by a part in `2 ^ 53` each. -/
def productError : ℚ := 2 / 2 ^ 53 + 1 / 2 ^ 106

theorem mul_near {a b x y : ℚ} (ha : 0 ≤ a) (hb : 0 ≤ b) (hx : |x - a| ≤ a / 2 ^ 53)
    (hy : |y - b| ≤ b / 2 ^ 53) : |x * y - a * b| ≤ a * b * productError := by
  have hsplit : x * y - a * b = (x - a) * (y - b) + (x - a) * b + a * (y - b) := by ring
  have hboth : |(x - a) * (y - b)| ≤ a / 2 ^ 53 * (b / 2 ^ 53) := by
    rw [abs_mul]
    exact mul_le_mul hx hy (abs_nonneg _) (by positivity)
  have hleft : |(x - a) * b| ≤ a / 2 ^ 53 * b := by
    rw [abs_mul, abs_of_nonneg hb]
    exact mul_le_mul_of_nonneg_right hx hb
  have hright : |a * (y - b)| ≤ a * (b / 2 ^ 53) := by
    rw [abs_mul, abs_of_nonneg ha]
    exact mul_le_mul_of_nonneg_left hy ha
  calc |x * y - a * b|
      ≤ |(x - a) * (y - b)| + |(x - a) * b| + |a * (y - b)| := hsplit ▸ abs_add_three _ _ _
    _ ≤ a / 2 ^ 53 * (b / 2 ^ 53) + a / 2 ^ 53 * b + a * (b / 2 ^ 53) := by gcongr
    _ = a * b * productError := by
      rw [productError]
      ring

section Scaled
variable {significand : ℕ} (hbound : significand < significandBound)
include hbound

theorem significand_lt : (significand : ℚ) < 2 ^ 64 := by
  have hlt : significand < 2 ^ 64 := hbound
  exact_mod_cast hlt

theorem significand_near :
    ∃ x, ofNat? significand = some x ∧ |x.toRat - significand| ≤ significand / 2 ^ 53 := by
  have hlt := significand_lt hbound
  have hmore := quotientBound_lt
  refine ofNat?_near ?_
  rw [quotientBound] at hmore
  linarith

theorem scaled_near {n : ℕ} (hn : n ≤ maxFactor) : ∃ product : ℚ,
    |product - significand * 10 ^ n| ≤ significand * 10 ^ n * productError ∧
      Rounded product (scaled significand n) := by
  obtain ⟨x, hx, hxNear⟩ := significand_near hbound
  obtain ⟨t, ht, htNear⟩ := powerOfTen?_near hn
  have hscaled : scaled significand n = x.mul? t := by
    simp only [scaled, hx, if_pos (Int.natCast_nonneg n), Int.toNat_natCast, scaleUp, if_pos hn, ht,
      Option.bind_some]
  rw [hscaled]
  exact ⟨_, mul_near (Nat.cast_nonneg _) (by positivity) hxNear htNear, mul?_rounded x t⟩

theorem scaled_neg {power : ℤ} (hpower : power < 0) : ∃ x, scaled significand power = some x := by
  obtain ⟨x, hx, hnear⟩ := significand_near hbound
  have hlt := significand_lt hbound
  have hx' : x.toRat ≤ quotientBound := by
    obtain ⟨-, hhigh⟩ := abs_le.mp hnear
    rw [quotientBound]
    linarith
  obtain ⟨y, hy⟩ := scaleDown_some hx' (n := (-power).toNat) (by omega)
  exact ⟨y, by simp only [scaled, hx, if_neg (not_le.mpr hpower), hy]⟩

end Scaled

theorem scaled_zero (power : ℤ) : ∃ x, scaled 0 power = some x := by
  rcases lt_or_ge power 0 with hneg | hpos
  · exact scaled_neg (by decide) hneg
  · obtain ⟨n, rfl⟩ := Int.eq_ofNat_of_zero_le hpos
    rcases le_or_gt n maxFactor with hle | hgt
    · obtain ⟨product, hnear, hrounded⟩ := @scaled_near 0 (by decide) n hle
      rw [Nat.cast_zero, zero_mul, zero_mul, sub_zero] at hnear
      have hzero : product = 0 := abs_nonpos_iff.mp hnear
      exact hrounded.exists_of_lt (hzero ▸ overflow_pos)
    · have hround : ofNat? 0 = some zero := rfl
      have hisZero : zero.isZero = true := rfl
      refine ⟨zero, ?_⟩
      simp only [scaled, hround, if_pos hpos, Int.toNat_natCast, scaleUp, if_neg (not_le.mpr hgt),
        hisZero, if_true]

section Scaled
variable {significand : ℕ} (hbound : significand < significandBound)
include hbound

/-- A power beyond the greatest factor is beyond all floats, and so is each multiple of it. -/
theorem scaled_far (hpos : 0 < significand) {n : ℕ} (hn : maxFactor < n) :
    scaled significand n = none ∧ overflow < significand * 10 ^ n := by
  obtain ⟨x, hx, hnear⟩ := significand_near hbound
  have hone : (1 : ℚ) ≤ significand := by exact_mod_cast hpos
  have hzero : x.isZero = false := by
    refine decide_eq_false fun hmantissa => ?_
    have hvalue : x.toRat = 0 := by rw [toRat, hmantissa, Nat.cast_zero, zero_mul]
    obtain ⟨hlow, -⟩ := abs_le.mp hnear
    linarith
  constructor
  · simp only [scaled, hx, if_pos (Int.natCast_nonneg n), Int.toNat_natCast, scaleUp,
      if_neg (not_le.mpr hn), hzero, Bool.false_eq_true, if_false]
  · have hpower : (10 : ℚ) ^ (maxFactor + 1) ≤ 10 ^ n := pow_le_pow_right₀ (by norm_num) hn
    calc overflow < 10 ^ (maxFactor + 1) := overflow_lt
      _ ≤ 1 * 10 ^ n := by rwa [one_mul]
      _ ≤ significand * 10 ^ n := mul_le_mul_of_nonneg_right hone (by positivity)

theorem scaled_some {power : ℤ}
    (h : significand * 10 ^ power * (1 + productError) < overflow) :
    ∃ x, scaled significand power = some x := by
  rcases lt_or_ge power 0 with hneg | hpos
  · exact scaled_neg hbound hneg
  · obtain ⟨n, rfl⟩ := Int.eq_ofNat_of_zero_le hpos
    rw [zpow_natCast] at h
    rcases le_or_gt n maxFactor with hle | hgt
    · obtain ⟨product, hnear, hrounded⟩ := scaled_near hbound hle
      obtain ⟨-, hhigh⟩ := abs_le.mp hnear
      exact hrounded.exists_of_lt (by linarith)
    · rcases Nat.eq_zero_or_pos significand with rfl | hsome
      · exact scaled_zero n
      · obtain ⟨-, hfar⟩ := scaled_far hbound hsome hgt
        have hmore : (0 : ℚ) ≤ significand * 10 ^ n * productError := by
          have hnonneg : 0 ≤ productError := by norm_num [productError]
          positivity
        linarith

theorem le_of_scaled {power : ℤ} {x : Binary64} (h : scaled significand power = some x) :
    significand * 10 ^ power * (1 - productError) ≤ overflow := by
  have hlt := significand_lt hbound
  have hroom := quotientBound_lt
  rw [quotientBound] at hroom
  have herror : 0 ≤ productError ∧ productError ≤ 1 := by norm_num [productError]
  rcases lt_or_ge power 0 with hneg | hpos
  · have hpower : (10 : ℚ) ^ power ≤ 1 := zpow_le_one_of_nonpos₀ (by norm_num) hneg.le
    have hle : (significand : ℚ) * 10 ^ power ≤ significand :=
      mul_le_of_le_one_right (Nat.cast_nonneg _) hpower
    have hless : (significand : ℚ) * 10 ^ power * (1 - productError) ≤ significand * 10 ^ power :=
      mul_le_of_le_one_right (by positivity) (by linarith [herror.1])
    linarith
  · obtain ⟨n, rfl⟩ := Int.eq_ofNat_of_zero_le hpos
    rw [zpow_natCast]
    rcases le_or_gt n maxFactor with hle | hgt
    · obtain ⟨product, hnear, hrounded⟩ := scaled_near hbound hle
      obtain ⟨hlow, -⟩ := abs_le.mp hnear
      linarith [hrounded.le_overflow h]
    · rcases Nat.eq_zero_or_pos significand with rfl | hsome
      · rw [Nat.cast_zero, zero_mul, zero_mul]
        linarith
      · obtain ⟨hnone, -⟩ := scaled_far hbound hsome hgt
        rw [hnone] at h
        cases h

end Scaled

/-! ### Values -/

/-- The greatest float of 64 bits. -/
def greatestFloat : ℕ := (2 ^ 53 - 1) * 2 ^ 971

/-- The step from the float before it to the greatest one. -/
def lastStep : ℕ := 2 ^ 971

theorem overflow_steps :
    overflow = (2 ^ 53 - 1 / 2) * lastStep ∧ (greatestFloat : ℚ) = (2 ^ 53 - 1) * lastStep := by
  have hstep : (2 : ℚ) ^ maxExponent = lastStep := by
    rw [show maxExponent = (971 : ℕ) from rfl, zpow_natCast, lastStep, Nat.cast_pow, Nat.cast_ofNat]
  constructor
  · rw [overflow_eq, hstep]
  · rw [greatestFloat, lastStep, Nat.cast_mul, Nat.cast_sub Nat.one_le_two_pow, Nat.cast_pow 2 53,
      Nat.cast_one, Nat.cast_ofNat]

theorem one_le_lastStep : (1 : ℚ) ≤ lastStep := by
  rw [lastStep, Nat.cast_pow]
  exact one_le_pow₀ (by norm_num)

namespace NumberText

theorem magnitude_eq (n : NumberText) {significand : ℕ} {power : ℤ}
    (hparts : n.literal.parts = (significand, power)) :
    n.literal.magnitude =
      if n.written.natAbs < exponentBound then scaled significand (power + n.written)
      else if significand = 0 ∨ n.written < 0 then some zero
      else none := by
  have hexponent : n.literal.exponent =
      n.exponent.map fun e => (decide (e.sign = some true), e.digits.chars.map digit) := rfl
  rw [NumberLiteral.magnitude, hparts, hexponent, written]
  cases n.exponent with
  | none =>
    have hless : (0 : ℤ).natAbs < exponentBound := by decide
    simp only [Option.map_none, Option.elim_none, if_pos hless, add_zero]
  | some e =>
    have hdigits := absorb_digits exponentBound e.digits.chars 0 (by decide)
    rw [← Digits.value] at hdigits
    have habs : (if e.sign = some true then -(e.digits.value : ℤ) else e.digits.value).natAbs =
        e.digits.value := by
      split_ifs
      · rw [Int.natAbs_neg, Int.natAbs_natCast]
      · rw [Int.natAbs_natCast]
    simp only [Option.map_some, Option.elim_some, habs]
    rcases hdigits with ⟨hlt, habsorb⟩ | ⟨hge, hleft⟩
    · rw [habsorb]
      simp only [if_pos hlt, if_true, decide_eq_true_eq]
      split_ifs
      · rw [sub_eq_add_neg]
      · rfl
    · have hpos : 0 < e.digits.value := lt_of_lt_of_le (by decide) hge
      have hneg : (if e.sign = some true then -(e.digits.value : ℤ) else e.digits.value) < 0 ↔
          e.sign = some true := by
        split_ifs with hsign
        · exact ⟨fun _ => hsign, fun _ => by omega⟩
        · exact ⟨fun h => by omega, fun h => absurd h hsign⟩
      simp only [if_neg (not_lt.mpr hge), if_neg hleft, decide_eq_true_eq, hneg]

theorem exact_near (n : NumberText) : ∃ significand power,
    n.literal.parts = (significand, power) ∧ significand < significandBound ∧
      |(|n.exact|) - significand * 10 ^ (power + n.written)| ≤
        significand * 10 ^ (power + n.written) / 2 ^ 60 := by
  obtain ⟨significand, power, hparts, hbound, hnear⟩ := n.parts_near
  have hpower : (0 : ℚ) < 10 ^ n.written := by positivity
  have hscaled : (significand : ℚ) * 10 ^ (power + n.written) =
      significand * 10 ^ power * 10 ^ n.written := by
    rw [zpow_add₀ (by norm_num), mul_assoc]
  refine ⟨significand, power, hparts, hbound, ?_⟩
  rw [abs_exact, hscaled, ← sub_mul, abs_mul, abs_of_pos hpower, mul_div_right_comm]
  exact mul_le_mul_of_nonneg_right hnear hpower.le

section Far
variable {n : NumberText} (hlength : n.chars.length + maxFactor < exponentBound)
  (hfar : exponentBound ≤ n.written.natAbs)
include hlength hfar

/-- Too few digits are written before the point to make up for a power as low as that. -/
theorem exact_of_far_neg (hneg : n.written < 0) : |n.exact| ≤ 1 := by
  have hdigits := n.length_chars
  obtain ⟨-, hwhole⟩ := ofDigitChars_bounds n.whole.chars n.whole.isDigit 0
  obtain ⟨-, hplaces⟩ := fraction_bounds n.isDigit_places n.whole.value
  rw [zero_add, one_mul] at hwhole
  have hwhole' : (n.whole.value : ℚ) + 1 ≤ 10 ^ (n.whole.chars.length : ℤ) := by
    rw [zpow_natCast]
    exact_mod_cast hwhole
  calc |n.exact| = n.unscaled * 10 ^ n.written := n.abs_exact
    _ ≤ 10 ^ (n.whole.chars.length : ℤ) * 10 ^ n.written :=
        mul_le_mul_of_nonneg_right (hplaces.trans hwhole') (by positivity)
    _ = 10 ^ (n.whole.chars.length + n.written) := (zpow_add₀ (by norm_num) _ _).symm
    _ ≤ 1 := zpow_le_one_of_nonpos₀ (by norm_num) (by omega)

/-- Too few places are written to make up for a power as high as that. -/
theorem exact_of_far_pos (hpos : 0 ≤ n.written) (hzero : n.unscaled ≠ 0) :
    overflow < |n.exact| := by
  have hdigits := n.length_chars
  have hsome : (1 : ℚ) ≤ Nat.ofDigitChars 10 n.places n.whole.value := by
    have hne : Nat.ofDigitChars 10 n.places n.whole.value ≠ 0 := by
      intro h
      rw [unscaled, h, Nat.cast_zero, zero_mul] at hzero
      exact hzero rfl
    exact_mod_cast Nat.one_le_iff_ne_zero.mpr hne
  have hpower : (10 : ℚ) ^ ((maxFactor + 1 : ℕ) : ℤ) ≤ 10 ^ (-(n.places.length : ℤ) + n.written) :=
    zpow_le_zpow_right₀ (by norm_num) (by omega)
  calc overflow < 10 ^ ((maxFactor + 1 : ℕ) : ℤ) := by
        rw [zpow_natCast]
        exact overflow_lt
    _ ≤ 10 ^ (-(n.places.length : ℤ) + n.written) := hpower
    _ ≤ Nat.ofDigitChars 10 n.places n.whole.value * 10 ^ (-(n.places.length : ℤ) + n.written) :=
        le_mul_of_one_le_left (by positivity) hsome
    _ = |n.exact| := by rw [abs_exact, unscaled, mul_assoc, zpow_add₀ (by norm_num)]

end Far

theorem unscaled_eq_zero {n : NumberText} {significand : ℕ} {power : ℤ}
    (hparts : n.literal.parts = (significand, power)) : n.unscaled = 0 ↔ significand = 0 := by
  obtain ⟨significand', power', hparts', -, hnear⟩ := n.parts_near
  obtain ⟨rfl, rfl⟩ := Prod.mk.inj (hparts.symm.trans hparts')
  have hpower : (0 : ℚ) < 10 ^ power := by positivity
  constructor
  · intro hzero
    rw [hzero, zero_sub, abs_neg, abs_of_nonneg (by positivity)] at hnear
    have hproduct : (significand : ℚ) * 10 ^ power = 0 :=
      le_antisymm (by linarith) (by positivity)
    exact_mod_cast (mul_eq_zero.mp hproduct).resolve_right hpower.ne'
  · rintro rfl
    rw [Nat.cast_zero, zero_mul, zero_div, sub_zero] at hnear
    exact abs_nonpos_iff.mp hnear

theorem abs_exact_of_integer {n : NumberText} {i : ℤ} (h : n.literal.integer? = some i) :
    |n.exact| < 2 ^ 64 := by
  have hliteral : n.literal.whole = n.whole.chars.map digit := rfl
  rw [NumberLiteral.integer?, hliteral] at h
  rcases absorb_digits significandBound n.whole.chars 0 (by decide) with ⟨hlt, habsorb⟩ | ⟨-, hleft⟩
  · simp only [habsorb, ne_eq, not_true_eq_false, or_false] at h
    split at h
    · cases h
    · rename_i hplain
      obtain ⟨hfraction, hexponent⟩ := n.isInteger_iff.mp (by simpa using hplain)
      have hexact : |n.exact| = n.whole.value := by
        rw [abs_exact, unscaled, written, places, hfraction, hexponent]
        simp
      rw [hexact]
      exact significand_lt hlt
  · simp [hleft] at h

section Range
variable {n : NumberText} (hlength : n.chars.length + maxFactor < exponentBound)
include hlength

theorem magnitude_some (h : |n.exact| + 2 * lastStep ≤ greatestFloat) :
    ∃ x, n.literal.magnitude = some x := by
  obtain ⟨significand, power, hparts, hbound, hnear⟩ := n.exact_near
  obtain ⟨hoverflow, hgreatest⟩ := overflow_steps
  have hstep := one_le_lastStep
  rw [hgreatest] at h
  rw [n.magnitude_eq hparts]
  split_ifs with hwritten hsmall
  · obtain ⟨hlow, -⟩ := abs_le.mp hnear
    refine scaled_some hbound ?_
    rw [hoverflow, productError]
    linarith
  · exact ⟨zero, rfl⟩
  · rw [not_or, not_lt] at hsmall
    have hfar := exact_of_far_pos hlength (not_lt.mp hwritten) hsmall.2
      (mt (unscaled_eq_zero hparts).mp hsmall.1)
    linarith

theorem abs_exact_lt_of_magnitude {x : Binary64} (hx : n.literal.magnitude = some x) :
    |n.exact| < greatestFloat + 3 * lastStep := by
  obtain ⟨significand, power, hparts, hbound, hnear⟩ := n.exact_near
  obtain ⟨hoverflow, hgreatest⟩ := overflow_steps
  have hstep := one_le_lastStep
  rw [n.magnitude_eq hparts] at hx
  rw [hgreatest]
  split_ifs at hx with hwritten hsmall
  · obtain ⟨-, hhigh⟩ := abs_le.mp hnear
    have hle := le_of_scaled hbound hx
    rw [hoverflow, productError] at hle
    linarith
  · have hfar := not_lt.mp hwritten
    rcases hsmall with hzero | hneg
    · rw [abs_exact, (unscaled_eq_zero hparts).mpr hzero, zero_mul]
      linarith
    · have hone := exact_of_far_neg hlength hfar hneg
      linarith

/-- **A number below the last steps of a float has a value.** -/
theorem value_ne_none (h : |n.exact| + 2 * lastStep ≤ greatestFloat) : n.literal.value ≠ none := by
  obtain ⟨x, hx⟩ := magnitude_some hlength h
  unfold NumberLiteral.value
  cases n.literal.integer? with
  | none => simp [hx]
  | some i => simp

/-- **A number that has a value is not far beyond the greatest float.** -/
theorem abs_exact_lt (h : n.literal.value ≠ none) : |n.exact| < greatestFloat + 3 * lastStep := by
  unfold NumberLiteral.value at h
  cases hinteger : n.literal.integer? with
  | none =>
    simp only [hinteger, ne_eq, Option.map_eq_none_iff] at h
    obtain ⟨x, hx⟩ := Option.ne_none_iff_exists'.mp h
    exact abs_exact_lt_of_magnitude hlength hx
  | some i =>
    have hlt := abs_exact_of_integer hinteger
    have hroom := quotientBound_lt
    obtain ⟨hoverflow, hgreatest⟩ := overflow_steps
    have hstep := one_le_lastStep
    rw [quotientBound, hoverflow] at hroom
    rw [hgreatest]
    linarith

end Range

end NumberText

end Json

end LocalScopes
