/-
This file writes JSON documents: compactly on one line, and indented by two
spaces with one member or item on each line.
-/

import ServiceForge.Json.Basic
import ServiceForge.Text.Basic

namespace ServiceForge.Json

open ServiceForge.Text

/-- One character inside a JSON string. Controls without a short escape take four digits. -/
def escapeCharacter (character : Char) : List Char :=
  if character = '"' then ['\\', '"']
  else if character = '\\' then ['\\', '\\']
  else if character = '\n' then ['\\', 'n']
  else if character = '\r' then ['\\', 'r']
  else if character = '\t' then ['\\', 't']
  else if character.toNat = 8 then ['\\', 'b']
  else if character.toNat = 12 then ['\\', 'f']
  else if character.toNat < 32 then
    ['\\', 'u', '0', '0'] ++
      [Nat.digitChar (character.toNat / 16), Nat.digitChar (character.toNat % 16)]
  else [character]

/-- A text between quotation marks, with its special characters escaped. -/
def quoted (text : String) : String :=
  String.ofList ('"' :: text.toList.flatMap escapeCharacter ++ ['"'])

mutual

/-- The document on one line without blanks. -/
def compact : Json → String
  | null => "null"
  | bool value => if value then "true" else "false"
  | number value => value.text .plus
  | string value => quoted value
  | array items => "[" ++ join "," (compactItems items) ++ "]"
  | object members => "\x7b" ++ join "," (compactMembers members) ++ "\x7d"

/-- The items of an array, each without white space. -/
def compactItems : List Json → List String
  | [] => []
  | item :: rest => compact item :: compactItems rest

/-- The members of an object, each without white space. -/
def compactMembers : List (String × Json) → List String
  | [] => []
  | (key, value) :: rest => (quoted key ++ ":" ++ compact value) :: compactMembers rest

end

/-- Pieces between two brackets, each on a line of its own unless there is none. -/
def block (opening closing indent : String) (pieces : List String) : String :=
  if pieces.isEmpty then opening ++ closing
  else
    opening ++ "\n" ++ join ",\n" (pieces.map fun piece => indent ++ "  " ++ piece) ++ "\n" ++
      indent ++ closing

mutual

/-- The document over several lines; `indent` opens the lines after the first. -/
def pretty (indent : String) : Json → String
  | null => "null"
  | bool value => if value then "true" else "false"
  | number value => value.text .plus
  | string value => quoted value
  | array items => block "[" "]" indent (prettyItems (indent ++ "  ") items)
  | object members => block "\x7b" "\x7d" indent (prettyMembers (indent ++ "  ") members)

/-- The items of an array, each over several lines. -/
def prettyItems (indent : String) : List Json → List String
  | [] => []
  | item :: rest => pretty indent item :: prettyItems indent rest

/-- The members of an object, each over several lines. -/
def prettyMembers (indent : String) : List (String × Json) → List String
  | [] => []
  | (key, value) :: rest =>
    (quoted key ++ ": " ++ pretty indent value) :: prettyMembers indent rest

end

end ServiceForge.Json
