/-
This file writes text as string literals of the generated sources. The escaped
form shows only visible characters as they are; the plain form escapes the
backslash, the quote and the line feed and nothing else.
-/

import ServiceForge.Text.Printable

namespace ServiceForge.Source

open ServiceForge.Text

/-- The digits of a number in hexadecimal, without leading zeros. -/
def lowerHex (number : Nat) : List Char := (Nat.toDigits 16 number).map Char.toLower

/-- One character inside an escaped literal. -/
def escapeCharacter (character : Char) : List Char :=
  if character = '\x00' then ['\\', '0']
  else if character = '\t' then ['\\', 't']
  else if character = '\n' then ['\\', 'n']
  else if character = '\r' then ['\\', 'r']
  else if character = '"' then ['\\', '"']
  else if character = '\\' then ['\\', '\\']
  else if isVisible character ∧ !isExtending character then [character]
  else ['\\', 'u', '\x7b'] ++ lowerHex character.toNat ++ ['\x7d']

/-- A literal in which every character without a visible form of its own is escaped. -/
def escapedLiteral (text : String) : String :=
  String.ofList ('"' :: text.toList.flatMap escapeCharacter ++ ['"'])

/-- One character inside a plain literal. -/
def plainCharacter (character : Char) : List Char :=
  if character = '\\' then ['\\', '\\']
  else if character = '"' then ['\\', '"']
  else if character = '\n' then ['\\', 'n']
  else [character]

/-- A literal in which only the backslash, the quote and the line feed are escaped. -/
def plainLiteral (text : String) : String :=
  String.ofList ('"' :: text.toList.flatMap plainCharacter ++ ['"'])

end ServiceForge.Source
