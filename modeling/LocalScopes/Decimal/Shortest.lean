import LocalScopes.Decimal.Binary64

/-! # Shortest decimals

The decimal with the fewest digits among those that are read as a given binary number. A decimal
is read as the number if it lies in the interval that ends halfway to the two neighbours; the ends
belong to the interval if the mantissa is even. Of two decimals with the fewest digits the nearer
one is taken, and on a tie the one with the even last digit.

* `Decimal.shortest`: the decimal, without trailing zeros. -/

namespace LocalScopes

/-- The number `digits * 10 ^ scale`. -/
structure Decimal where
  digits : Nat
  scale : Int
deriving DecidableEq, Repr

/-- Compares `d` with `n * 2 ^ e`. -/
def Decimal.compareBinary (d : Decimal) (n : Nat) (e : Int) : Ordering :=
  compare ((d.digits * Nat.pow 10 d.scale.toNat) <<< (-e).toNat)
    ((n * Nat.pow 10 (-d.scale).toNat) <<< e.toNat)

namespace Binary64

/-- The lower end of the interval of `x`, in quarters of its last place. The neighbour below a power
of two is only half as far away as the one above. -/
def lowerEnd (x : Binary64) : Nat :=
  if x.mantissa = leastFullMantissa ∧ minExponent < x.exponent then 4 * x.mantissa - 1
  else 4 * x.mantissa - 2

/-- The upper end of the interval of `x`, in quarters of its last place. -/
def upperEnd (x : Binary64) : Nat := 4 * x.mantissa + 2

/-- The decimal is read as `x`. -/
def IsReadFrom (x : Binary64) (d : Decimal) : Prop :=
  let low := d.compareBinary x.lowerEnd (x.exponent - 2)
  let high := d.compareBinary x.upperEnd (x.exponent - 2)
  if x.mantissa % 2 = 0 then low ≠ .lt ∧ high ≠ .gt else low = .gt ∧ high = .lt

instance (x : Binary64) (d : Decimal) : Decidable (x.IsReadFrom d) := by
  unfold IsReadFrom
  infer_instance

/-- The greatest power of ten that does not exceed `x`. The logarithm to base two gives it up to
one step. -/
def leadingPower (x : Binary64) : Int :=
  let guess := ((x.mantissa.log2 + x.exponent) * 30103).fdiv 100000
  let fits (power : Int) : Bool := Decimal.compareBinary ⟨1, power⟩ x.mantissa x.exponent ≠ .gt
  if fits (guess + 1) then guess + 1 else if fits guess then guess else guess - 1

/-- The greatest multiple of `10 ^ scale` that does not exceed `x`. -/
def floorDecimal (x : Binary64) (scale : Int) : Decimal :=
  ⟨((x.mantissa * Nat.pow 10 (-scale).toNat) <<< x.exponent.toNat) /
    (Nat.pow 10 scale.toNat <<< (-x.exponent).toNat), scale⟩

/-- The nearer to `x` of `d` and its successor at the last digit. -/
def nearer (x : Binary64) (d : Decimal) : Decimal :=
  match Decimal.compareBinary ⟨2 * d.digits + 1, d.scale⟩ (2 * x.mantissa) x.exponent with
  | .lt => ⟨d.digits + 1, d.scale⟩
  | .gt => d
  | .eq => ⟨d.digits + d.digits % 2, d.scale⟩

/-- The decimal of `count` digits that is read as `x` and is nearest to it, if there is one. -/
def decimalOfLength? (x : Binary64) (count : Nat) : Option Decimal :=
  let below := x.floorDecimal (x.leadingPower - count + 1)
  let above : Decimal := ⟨below.digits + 1, below.scale⟩
  if x.IsReadFrom below then some (if x.IsReadFrom above then x.nearer below else below)
  else if x.IsReadFrom above then some above
  else none

end Binary64

namespace Decimal

/-- Moves at most `steps` trailing zeros of the digits into the scale. -/
def strip : (steps : Nat) → Decimal → Decimal
  | 0, d => d
  | steps + 1, d =>
    if d.digits % 10 = 0 then strip steps ⟨d.digits / 10, d.scale + 1⟩ else d

/-- The largest number of digits that a binary number needs. -/
def maxLength : Nat := 17

/-- The shortest decimal that is read as `x`, for `x` not zero. -/
def shortest (x : Binary64) : Decimal :=
  let found := (List.range maxLength).findSome? fun n => x.decimalOfLength? (n + 1)
  strip maxLength (found.getD (x.floorDecimal (x.leadingPower - maxLength + 1)))

end Decimal

end LocalScopes
