import LocalScopes.Decimal.Shortest
import LocalScopes.Json.NumberLiteral

/-! # Numbers in JSON

A literal of a 64-bit integer stands for that integer, except `-0`; every other literal stands for a
float. The float is made from the leading digits, as many as fit into 64 bits, which are scaled by a
power of ten in binary arithmetic. A literal whose float would be too large has no value.

* `NumberLiteral.value`: the number that a literal stands for;
* `floatText`: the written form of a float. -/

namespace LocalScopes.Json

/-- A number of a JSON text: a 64-bit integer, signed or unsigned, or a float by sign and
magnitude. -/
inductive Number where
  | integer (n : Int)
  | float (negative : Bool) (magnitude : Binary64)
deriving DecidableEq

/-! ### Values -/

/-- Appends digits to a number as long as it stays below `bound`; answers with the digits that are
left. -/
def absorb (bound n : Nat) : List Nat → Nat × List Nat
  | [] => (n, [])
  | d :: ds => if n * 10 + d < bound then absorb bound (n * 10 + d) ds else (n, d :: ds)

/-- The bound of a significand. -/
def significandBound : Nat := UInt64.size

/-- The greatest power of ten that is used as a single factor. -/
def maxFactor : Nat := 308

/-- The float nearest to a power of ten. -/
def powerOfTen? (n : Nat) : Option Binary64 := Binary64.ofNat? (Nat.pow 10 n)

/-- Divides `count` times by the greatest factor. A value that has become zero stays so. -/
def divideRepeatedly : (count : Nat) → Binary64 → Option Binary64
  | 0, x => some x
  | count + 1, x =>
    if x.isZero then some x
    else ((powerOfTen? maxFactor).bind x.div?).bind (divideRepeatedly count)

/-- Divides by `10 ^ n`, by the greatest factor as long as more than that is left. -/
def scaleDown (x : Binary64) (n : Nat) : Option Binary64 :=
  let count := (n - 1) / maxFactor
  (divideRepeatedly count x).bind fun y => (powerOfTen? (n - count * maxFactor)).bind y.div?

/-- Multiplies by `10 ^ n`, if the result is not too large. -/
def scaleUp (x : Binary64) (n : Nat) : Option Binary64 :=
  if n ≤ maxFactor then (powerOfTen? n).bind x.mul?
  else if x.isZero then some x
  else none

/-- The float made from a significand and a power of ten, if it is not too large. -/
def scaled (significand : Nat) (exponent : Int) : Option Binary64 :=
  match Binary64.ofNat? significand with
  | none => none
  | some x =>
    if 0 ≤ exponent then scaleUp x exponent.toNat else scaleDown x (-exponent).toNat

/-- The bound of a written exponent. One that reaches it makes a number zero or too large. -/
def exponentBound : Nat := 1 <<< 31

namespace NumberLiteral

/-- The significand of a literal, and its power of ten before the written exponent counts. Digits
before the point that found no room count into the power; those behind the point are dropped. -/
def parts (l : NumberLiteral) : Nat × Int :=
  let (whole, spilled) := absorb significandBound 0 l.whole
  let (significand, dropped) := absorb significandBound whole l.fraction
  (significand, (spilled.length : Int) - ((l.fraction.length - dropped.length : Nat) : Int))

/-- The magnitude of the float that a literal stands for, if it is not too large. -/
def magnitude (l : NumberLiteral) : Option Binary64 :=
  let (significand, power) := l.parts
  match l.exponent with
  | none => scaled significand power
  | some (negative, ds) =>
    let (written, left) := absorb exponentBound 0 ds
    if left = [] then scaled significand (if negative then power - written else power + written)
    else if significand = 0 ∨ negative then some Binary64.zero
    else none

/-- The literal has neither a fraction nor an exponent. -/
def isInteger (l : NumberLiteral) : Bool := l.fraction.isEmpty && l.exponent.isNone

/-- The magnitude of the least signed integer of 64 bits. -/
def maxNegated : Nat := 1 <<< 63

/-- The integer that a literal stands for, if it is a literal of one. -/
def integer? (l : NumberLiteral) : Option Int :=
  let (n, left) := absorb significandBound 0 l.whole
  if !l.isInteger ∨ left ≠ [] then none
  else if !l.negative then some n
  else if 0 < n ∧ n ≤ maxNegated then some (-n)
  else none

/-- The number that a literal stands for, if it is not too large. -/
def value (l : NumberLiteral) : Option Number :=
  match l.integer? with
  | some n => some (.integer n)
  | none => l.magnitude.map (.float l.negative)

end NumberLiteral

/-! ### Written form -/

/-- The least power of ten of a leading digit that is written without an exponent. -/
def minPlainPower : Int := -5

/-- The greatest power of ten of a leading digit that is written without an exponent. -/
def maxPlainPower : Int := 15

/-- The digits of a decimal with a point, where the first digit counts `10 ^ power`. -/
def plainText (ds : List Char) (power : Int) : List Char :=
  if power < 0 then '0' :: '.' :: (List.replicate (-power - 1).toNat '0' ++ ds)
  else
    let width := power.toNat + 1
    if ds.length ≤ width then ds ++ List.replicate (width - ds.length) '0' ++ ['.', '0']
    else ds.take width ++ '.' :: ds.drop width

/-- The digits of a decimal with a point behind the first and an exponent. -/
def exponentText (ds : List Char) (power : Int) : List Char :=
  let fraction := if ds.length ≤ 1 then [] else '.' :: ds.drop 1
  let sign := if power < 0 then '-' else '+'
  ds.take 1 ++ fraction ++ 'e' :: sign :: Nat.toDigits 10 power.natAbs

/-- The written form of a float that is not negative. -/
def magnitudeText (x : Binary64) : List Char :=
  if x.isZero then ['0', '.', '0']
  else
    let d := Decimal.shortest x
    let ds := Nat.toDigits 10 d.digits
    let power := d.scale + ds.length - 1
    if minPlainPower ≤ power ∧ power ≤ maxPlainPower then plainText ds power
    else exponentText ds power

/-- The written form of a float. -/
def floatText (negative : Bool) (x : Binary64) : String :=
  String.ofList (if negative then '-' :: magnitudeText x else magnitudeText x)

end LocalScopes.Json
