/-
This file says which value a scalar without quotes stands for: null, a truth
value, an integer, a float, or its own text. Digits after a leading zero are
text, and so is a decimal too large for a finite float.
-/

import ServiceForge.Number.Basic
import ServiceForge.Number.Binary64
import ServiceForge.Text.Basic
import ServiceForge.Text.CodePoints

namespace ServiceForge.Yaml

open ServiceForge.Text (hexDigit?)

/-- The floats that are not finite numbers. -/
inductive NonFinite where
  | positive
  | negative
  | notANumber
deriving DecidableEq, Repr

namespace NonFinite

/-- The text of a float that is not finite. -/
def text : NonFinite → String
  | positive => ".inf"
  | negative => "-.inf"
  | notANumber => ".nan"

end NonFinite

/-- What a scalar stands for. An oversize integer has more than 64 bits but no more than 128. -/
inductive Scalar where
  | null
  | boolean (value : Bool)
  | integer (value : Int)
  | oversize
  | float (value : Binary64)
  | nonFinite (value : NonFinite)
  | text (value : String)
deriving DecidableEq, Repr

namespace Scalar

/-! ### Null and truth values -/

/-- Whether a text is written for null. -/
def isNull (text : String) : Bool := ["null", "Null", "NULL", "~"].contains text

/-- The flag that a text is written for. -/
def boolean? (text : String) : Option Bool :=
  if ["true", "True", "TRUE"].contains text then some true
  else if ["false", "False", "FALSE"].contains text then some false
  else none

/-! ### Integers -/

/-- The value of digits in a base up to 16; at least one digit is needed. -/
def digits? (base : Nat) (text : List Char) : Option Nat :=
  let digits := text.filterMap fun character => (hexDigit? character).filter (· < base)
  if text ≠ [] ∧ digits.length = text.length then
    some (digits.foldl (fun value digit => value * base + digit) 0)
  else none

/-- Reads `0x`, `0o` and `0b` and the digits after them. -/
def based? (text : List Char) : Option Nat :=
  match text with
  | '0' :: 'x' :: digits => digits? 16 digits
  | '0' :: 'o' :: digits => digits? 8 digits
  | '0' :: 'b' :: digits => digits? 2 digits
  | _ => none

/-- Whether a text is made of digits after a leading zero, which keeps it from being a number. -/
def isPaddedDigits (text : List Char) : Bool :=
  match text with
  | '0' :: digits => !digits.isEmpty && digits.all Char.isDigit
  | _ => false

/-- Reads digits without a sign. -/
def magnitude? (text : List Char) : Option Nat :=
  (based? text).or (if isPaddedDigits text then none else digits? 10 text)

/-- Reads an integer that is not written as negative. -/
def natural? (text : String) : Option Nat :=
  match text.toList with
  | '+' :: digits => magnitude? digits
  | digits => magnitude? digits

/-- The integer that a text is written for. -/
def integer? (text : String) : Option Int :=
  match text.toList with
  | '-' :: digits => (magnitude? digits).map fun value => -(value : Int)
  | _ => (natural? text).map Int.ofNat

/-! ### Floats -/

/-- The exponent of a decimal: its sign and digits. -/
def exponent? (text : List Char) : Option Int :=
  match text with
  | [] => some 0
  | mark :: rest =>
    if mark = 'e' ∨ mark = 'E' then
      match rest with
      | '-' :: digits => (digits? 10 digits).map fun value => -(value : Int)
      | '+' :: digits => (digits? 10 digits).map Int.ofNat
      | digits => (digits? 10 digits).map Int.ofNat
    else none

/-- Reads a decimal without a sign; digits must stand before or after its point. -/
def decimal? (negative : Bool) (text : List Char) : Option Binary64 := do
  let whole := text.takeWhile Char.isDigit
  let rest := text.dropWhile Char.isDigit
  let (fraction, rest) :=
    match rest with
    | '.' :: rest => (rest.takeWhile Char.isDigit, rest.dropWhile Char.isDigit)
    | rest => ([], rest)
  let digits ← digits? 10 (whole ++ fraction)
  let exponent ← exponent? rest
  Binary64.ofDecimal? negative digits (exponent - fraction.length)

/-- The finite float that a text is written for. -/
def finite? (text : String) : Option Binary64 :=
  match text.toList with
  | '+' :: rest => decimal? false rest
  | '-' :: rest => decimal? true rest
  | rest => decimal? false rest

/-- The float that is not finite which a text is written for. -/
def nonFinite? (text : String) : Option NonFinite :=
  if [".inf", ".Inf", ".INF", "+.inf", "+.Inf", "+.INF"].contains text then some .positive
  else if ["-.inf", "-.Inf", "-.INF"].contains text then some .negative
  else if [".nan", ".NaN", ".NAN"].contains text then some .notANumber
  else none

/-! ### Scalars -/

/-- An integer of at most 128 bits. -/
def ofInteger? (text : String) : Option Scalar := do
  let value ← integer? text
  if -(powerOfTwo 63 : Int) ≤ value ∧ value < powerOfTwo 64 then return integer value
  else if -(powerOfTwo 127 : Int) ≤ value ∧ value < powerOfTwo 128 then return oversize
  else none

/-- The float that a text is written for, finite or not. -/
def ofFloat? (text : String) : Option Scalar :=
  ((nonFinite? text).map nonFinite).or ((finite? text).map float)

/-- Whether a text with an optional sign is made of digits after a leading zero. -/
def isPadded (text : String) : Bool :=
  match text.toList with
  | '+' :: digits => isPaddedDigits digits
  | '-' :: digits => isPaddedDigits digits
  | digits => isPaddedDigits digits

/-- What an untagged scalar without quotes stands for. -/
def ofPlain (written : String) : Scalar :=
  if written.isEmpty || isNull written then null
  else
    (((boolean? written).map boolean).or
      ((ofInteger? written).or
        (if isPadded written then none else ofFloat? written))).getD (text written)

end Scalar

end ServiceForge.Yaml
