/-
This file holds the finite binary64 numbers and the two ways between them and
decimals: a decimal is rounded to the nearest number, a tie to the even
significand, and a number is written with the fewest digits that round back to
it. All arithmetic is exact, on natural numbers.
-/

namespace ServiceForge

/-- A power of two. -/
def powerOfTwo (exponent : Nat) : Nat := Nat.pow 2 exponent

/-- A power of ten. -/
def powerOfTen (exponent : Nat) : Nat := Nat.pow 10 exponent

/-- The number `±significand * 2^(exponent - 1074)`. Numbers built here have a significand below
`2^53`, at least `2^52` unless the exponent is zero, and an exponent up to 2045. -/
structure Binary64 where
  negative : Bool
  significand : Nat
  exponent : Nat
deriving DecidableEq, Repr

namespace Binary64

/-- Whether a float is zero, of either sign. -/
def isZero (number : Binary64) : Bool := number.significand == 0

/-- Numerical equality, for which the two zeros are equal. -/
def equal (left right : Binary64) : Bool :=
  (left.isZero && right.isZero) || left == right

theorem equal_self (number : Binary64) : equal number number = true := by
  simp [equal]

/-! ### From decimals -/

/-- The quotient rounded to the nearest natural number, a tie to the even one. -/
def roundQuotient (numerator denominator : Nat) : Nat :=
  let quotient := numerator / denominator
  let remainder := numerator % denominator
  if 2 * remainder < denominator then quotient
  else if denominator < 2 * remainder then quotient + 1
  else quotient + quotient % 2

/-- Rounds `numerator / denominator`, in units of `2^-1074`. There is no result when the rounded
value is beyond the largest finite number. -/
def round? (negative : Bool) (numerator denominator : Nat) : Option Binary64 :=
  let exponent := (numerator / denominator).log2 - 52
  let significand := roundQuotient numerator (denominator * powerOfTwo exponent)
  let (significand, exponent) :=
    if significand = powerOfTwo 53 then (powerOfTwo 52, exponent + 1) else (significand, exponent)
  if exponent ≤ 2045 then some ⟨negative, significand, exponent⟩ else none

/-- The number nearest to `±digits * 10^scale`; there is none beyond the finite numbers. Decimals
far outside the range are settled by their order of magnitude. -/
def ofDecimal? (negative : Bool) (digits : Nat) (scale : Int) : Option Binary64 :=
  let magnitude := (Nat.toDigits 10 digits).length + scale
  if digits = 0 ∨ magnitude < -330 then some ⟨negative, 0, 0⟩
  else if 310 < magnitude then none
  else if 0 ≤ scale then round? negative (digits * powerOfTen scale.toNat * powerOfTwo 1074) 1
  else round? negative (digits * powerOfTwo 1074) (powerOfTen (-scale).toNat)

/-! ### To decimals -/

/-- A decimal `digits * 10^scale`. -/
structure Decimal where
  digits : Nat
  scale : Int
deriving DecidableEq, Repr

/-- Whether `left * 10^scale ≤ right / 2^1076`. -/
def decimalAtMost (left : Nat) (scale : Int) (right : Nat) : Bool :=
  decide (left * powerOfTen scale.toNat * powerOfTwo 1076 ≤ right * powerOfTen (-scale).toNat)

/-- Whether `left / 2^1076 ≤ right * 10^scale`. -/
def atMostDecimal (left right : Nat) (scale : Int) : Bool :=
  decide (left * powerOfTen (-scale).toNat ≤ right * powerOfTen scale.toNat * powerOfTwo 1076)

/-- The reals that round to a number, bounded in units of `2^-1076`. The bounds belong to it when
the significand is even. -/
structure RoundingInterval where
  low : Nat
  high : Nat
  closed : Bool

/-- The numbers that are rounded to a float, in units of a quarter of its last place. -/
def interval (number : Binary64) : RoundingInterval :=
  let unit := powerOfTwo number.exponent
  let below := if number.significand = powerOfTwo 52 ∧ 0 < number.exponent then 1 else 2
  ⟨(4 * number.significand - below) * unit, (4 * number.significand + 2) * unit,
    number.significand % 2 == 0⟩

/-- Whether a decimal is in an interval. -/
def RoundingInterval.contains (bounds : RoundingInterval) (decimal : Decimal) : Bool :=
  if bounds.closed then
    atMostDecimal bounds.low decimal.digits decimal.scale &&
      decimalAtMost decimal.digits decimal.scale bounds.high
  else
    !decimalAtMost decimal.digits decimal.scale bounds.low &&
      !atMostDecimal bounds.high decimal.digits decimal.scale

/-- The exponent of the first decimal digit of a number that is not zero. -/
def decimalExponent (number : Binary64) : Int :=
  let scaled := number.significand * powerOfTwo number.exponent * powerOfTen 324 / powerOfTwo 1074
  (Nat.toDigits 10 scaled).length - 325

/-- The point of the decimal grid `10^scale` nearest to the number among its two neighbours that
round to it; a tie goes to the even point. -/
def nearestOnGrid? (number : Binary64) (scale : Int) : Option Decimal :=
  let value := 4 * number.significand * powerOfTwo number.exponent
  let numerator := value * powerOfTen (-scale).toNat
  let denominator := powerOfTwo 1076 * powerOfTen scale.toNat
  let lower : Decimal := ⟨numerator / denominator, scale⟩
  let upper : Decimal := ⟨numerator / denominator + 1, scale⟩
  match number.interval.contains lower, number.interval.contains upper with
  | true, true =>
    some (if roundQuotient numerator denominator = lower.digits then lower else upper)
  | true, false => some lower
  | false, true => some upper
  | false, false => none

/-- Moves trailing zeros of the digits into the scale. -/
def stripZeros (fuel : Nat) (decimal : Decimal) : Decimal :=
  match fuel with
  | 0 => decimal
  | fuel + 1 =>
    if decimal.digits % 10 = 0 then stripZeros fuel ⟨decimal.digits / 10, decimal.scale + 1⟩
    else decimal

/-- The decimal with the fewest digits that rounds to the number. Seventeen digits always do. -/
def shortest (number : Binary64) : Decimal :=
  if number.isZero then ⟨0, 0⟩
  else
    let grids := (List.range 17).map fun count : Nat => number.decimalExponent - (count : Int)
    match grids.findSome? (nearestOnGrid? number) with
    | some decimal => stripZeros 20 decimal
    | none => ⟨0, 0⟩

end Binary64

end ServiceForge
