/-
This file splits a name into words and writes the words in the usual styles. A
word ends where a character is neither letter nor number, before an uppercase
letter that follows lowercase, and before the last capital of a run of capitals
that continues in lowercase (`HTTPServer` is `HTTP` and `Server`).
-/

import ServiceForge.Text.Alphanumeric
import ServiceForge.Text.Basic
import ServiceForge.Text.LetterCase

namespace ServiceForge.Text

/-- The case of the word read so far, given by its last letter that has one. -/
inductive Run where
  | fresh
  | lower
  | upper
deriving DecidableEq, Repr

/-- Splits a run of letters and numbers into words. `word` holds the present word, its last
character first. -/
def wordsFrom (run : Run) (word : List Char) : List Char → List (List Char)
  | [] => []
  | [last] => [(last :: word).reverse]
  | character :: next :: rest =>
    let after :=
      if isLowercase character then Run.lower
      else if isUppercase character then Run.upper
      else run
    if after = .lower ∧ isUppercase next then
      (character :: word).reverse :: wordsFrom .fresh [] (next :: rest)
    else if run = .upper ∧ isUppercase character ∧ isLowercase next then
      word.reverse :: wordsFrom .fresh [character] (next :: rest)
    else wordsFrom after (character :: word) (next :: rest)

/-- The words of a name. -/
def words (name : String) : List (List Char) :=
  (name.toList.splitOnP fun character => !isAlphanumeric character).flatMap (wordsFrom .fresh [])

/-- A word in lowercase, with the final form of a sigma that ends it. -/
def lowerWord : List Char → List Char
  | [] => []
  | [last] => if last = 'Σ' then ['ς'] else lowerCharacter last
  | character :: rest => lowerCharacter character ++ lowerWord rest

/-- A word with a capital first letter and the rest in lowercase. -/
def capitalWord : List Char → List Char
  | [] => []
  | first :: rest => upperCharacter first ++ lowerWord rest

/-- `server_group` -/
def snakeCase (name : String) : String :=
  join "_" ((words name).map fun word => String.ofList (lowerWord word))

/-- `server-group` -/
def kebabCase (name : String) : String :=
  join "-" ((words name).map fun word => String.ofList (lowerWord word))

/-- `ServerGroup` -/
def camelCase (name : String) : String :=
  String.ofList ((words name).flatMap capitalWord)

end ServiceForge.Text
