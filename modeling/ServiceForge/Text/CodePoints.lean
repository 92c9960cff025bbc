/-
This file holds sets of code points as sorted closed ranges. A set is written
as text the way the Unicode data files write ranges (`41-5A 61-7A AA`), read
once, and searched by bisection.
-/

namespace ServiceForge.Text

/-- The value of a hexadecimal digit in either letter case. -/
def hexDigit? (character : Char) : Option Nat :=
  if '0' ≤ character ∧ character ≤ '9' then some (character.toNat - '0'.toNat)
  else if 'a' ≤ character ∧ character ≤ 'f' then some (character.toNat - 'a'.toNat + 10)
  else if 'A' ≤ character ∧ character ≤ 'F' then some (character.toNat - 'A'.toNat + 10)
  else none

/-- Reads hexadecimal digits and skips every other character. -/
def hexValue (digits : List Char) : Nat :=
  (digits.filterMap hexDigit?).foldl (fun value digit => value * 16 + digit) 0

/-- A set of code points as closed ranges in increasing order. -/
structure CodePoints where
  ranges : Array (Nat × Nat)

namespace CodePoints

/-- A range is `first-last` or a single code point, all in hexadecimal. -/
def range (text : List Char) : Nat × Nat :=
  match text.splitOn '-' with
  | [first, last] => (hexValue first, hexValue last)
  | _ => (hexValue text, hexValue text)

/-- The set of the code points and ranges that a text lists in hexadecimal. -/
def ofText (text : String) : CodePoints :=
  let words := text.toList.splitOnP (fun character => character = ' ' ∨ character = '\n')
  ⟨((words.filter fun word => !word.isEmpty).map range).toArray⟩

/-- Bisects the ranges with indices from `low` up to but not including `high`. -/
def search (ranges : Array (Nat × Nat)) (point low high : Nat) : Bool :=
  if low < high then
    let middle := (low + high) / 2
    match ranges[middle]? with
    | none => false
    | some (first, last) =>
      if point < first then search ranges point low middle
      else if last < point then search ranges point (middle + 1) high
      else true
  else false
termination_by high - low

/-- Whether a character is in a set. -/
def contains (set : CodePoints) (character : Char) : Bool :=
  search set.ranges character.toNat 0 set.ranges.size

end CodePoints

end ServiceForge.Text
