/-! # Binary numbers of 53 bits

The finite numbers `mantissa * 2 ^ exponent` with a mantissa below `2 ^ 53` and an exponent from
-1074 to 971, which is what a 64-bit binary float holds beside its sign. Arithmetic is exact and
then rounded once, to the nearest number; of two nearest ones the even mantissa is taken.

* `Binary64.round?`: the number nearest to a ratio, if there is room for it;
* `Binary64.mul?`, `Binary64.div?`: the product and the quotient, rounded. -/

namespace LocalScopes

/-- The number `mantissa * 2 ^ exponent`, which is finite and not negative. -/
structure Binary64 where
  mantissa : Nat
  exponent : Int
deriving DecidableEq, Repr

namespace Binary64

/-- The number of bits of a mantissa. -/
def precision : Nat := 53

/-- The power of two that no mantissa reaches. -/
def mantissaBound : Nat := 1 <<< precision

/-- The least mantissa of 53 bits. -/
def leastFullMantissa : Nat := 1 <<< (precision - 1)

/-- The least exponent. -/
def minExponent : Int := -1074

/-- The greatest exponent. -/
def maxExponent : Int := 971

/-- Zero, at the least exponent. -/
def zero : Binary64 := ⟨0, minExponent⟩

/-- The number is zero. -/
def isZero (x : Binary64) : Bool := x.mantissa = 0

/-- The quotient of two naturals, rounded to the nearest natural; a half goes to the even one. -/
def roundDiv (num den : Nat) : Nat :=
  let quotient := num / den
  let remainder := num % den
  if 2 * remainder < den then quotient
  else if den < 2 * remainder then quotient + 1
  else quotient + quotient % 2

/-- The naturals whose ratio is `num / den / 2 ^ shift`. -/
def shifted (num den : Nat) (shift : Int) : Nat × Nat :=
  (num <<< (-shift).toNat, den <<< shift.toNat)

/-- The power of two that leaves of `num / den` a quotient of 53 bits. -/
def fittingShift (num den : Nat) : Int :=
  let shift : Int := num.log2 - den.log2 - precision
  let (n, d) := shifted num den shift
  if n / d < mantissaBound then shift else shift + 1

/-- The number nearest to `num / den * 2 ^ exponent`, if it is not too large. -/
def round? (num den : Nat) (exponent : Int) : Option Binary64 :=
  if num = 0 then some zero
  else
    let result := max minExponent (fittingShift num den + exponent)
    let (n, d) := shifted num den (result - exponent)
    let mantissa := roundDiv n d
    let rounded : Binary64 :=
      if mantissa = mantissaBound then ⟨leastFullMantissa, result + 1⟩ else ⟨mantissa, result⟩
    if rounded.exponent ≤ maxExponent then some rounded else none

/-- The number nearest to a natural. -/
def ofNat? (n : Nat) : Option Binary64 := round? n 1 0

/-- The product, rounded. -/
def mul? (x y : Binary64) : Option Binary64 :=
  round? (x.mantissa * y.mantissa) 1 (x.exponent + y.exponent)

/-- The quotient by a number that is not zero, rounded. -/
def div? (x y : Binary64) : Option Binary64 :=
  round? x.mantissa y.mantissa (x.exponent - y.exponent)

end Binary64

end LocalScopes
