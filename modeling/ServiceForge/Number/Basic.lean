/-
This file writes numbers as text. Decimals between `10^-5` and `10^16` are
written positionally and always show a fraction; all others take an exponent.
-/

import ServiceForge.Number.Binary64

namespace ServiceForge

/-- A number of a document: an integer of 64 bits, signed or not, or a binary64 number. -/
inductive Number where
  | integer (value : Int)
  | float (value : Binary64)
deriving DecidableEq, Repr

namespace Number

/-- Numerical equality within each kind; an integer never equals a float. -/
def equal : Number → Number → Bool
  | integer left, integer right => left == right
  | float left, float right => left.equal right
  | _, _ => false

theorem equal_self (number : Number) : equal number number = true := by
  cases number <;> simp [equal, Binary64.equal_self]

/-- The sign that opens a positive exponent. -/
inductive ExponentSign where
  | plus
  | none
deriving DecidableEq, Repr

/-- A number of zeros as text. -/
def zeros (count : Nat) : String := String.ofList (List.replicate count '0')

/-- The text of the exponent of a decimal. -/
def exponentText (sign : ExponentSign) (exponent : Int) : String :=
  if exponent < 0 then "e-" ++ toString exponent.natAbs
  else (if sign = .plus then "e+" else "e") ++ toString exponent.natAbs

/-- The text of a decimal that is not negative. -/
def decimalText (sign : ExponentSign) (decimal : Binary64.Decimal) : String :=
  let digits := Nat.toDigits 10 decimal.digits
  let point := digits.length + decimal.scale
  if decimal.digits = 0 then "0.0"
  else if 0 ≤ decimal.scale ∧ point ≤ 16 then
    String.ofList digits ++ zeros decimal.scale.toNat ++ ".0"
  else if 0 < point ∧ point ≤ 16 then
    String.ofList (digits.take point.toNat) ++ "." ++ String.ofList (digits.drop point.toNat)
  else if -5 < point ∧ point ≤ 0 then
    "0." ++ zeros (-point).toNat ++ String.ofList digits
  else
    let fraction := digits.drop 1
    String.ofList (digits.take 1) ++
      (if fraction.isEmpty then "" else "." ++ String.ofList fraction) ++
      exponentText sign (point - 1)

/-- The text of a float: the shortest decimal that reads as it. -/
def floatText (sign : ExponentSign) (value : Binary64) : String :=
  (if value.negative then "-" else "") ++ decimalText sign value.shortest

/-- The text of a number. -/
def text (sign : ExponentSign) : Number → String
  | integer value => toString value
  | float value => floatText sign value

end Number

end ServiceForge
