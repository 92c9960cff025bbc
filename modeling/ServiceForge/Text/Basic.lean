/-
This file holds the operations on text that the other modules share: splitting,
trimming, lines and replacement. Each is stated on lists of characters and given
a form on strings.
-/

namespace ServiceForge.Text

/-! ### Blank characters -/

/-- The white space of Unicode. -/
def isBlank (character : Char) : Bool :=
  let point := character.toNat
  decide (9 ≤ point ∧ point ≤ 13) || point == 0x20 || point == 0x85 || point == 0xA0 ||
    point == 0x1680 || decide (0x2000 ≤ point ∧ point ≤ 0x200A) || point == 0x2028 ||
    point == 0x2029 || point == 0x202F || point == 0x205F || point == 0x3000

/-! ### Ends of a text -/

/-- Drops the characters at the end that satisfy the condition. -/
def dropEndWhile (condition : Char → Bool) (text : List Char) : List Char :=
  (text.reverse.dropWhile condition).reverse

/-- Drops the characters at the start that satisfy the condition. -/
def trimStart (condition : Char → Bool) (text : String) : String :=
  String.ofList (text.toList.dropWhile condition)

/-- Drops the characters at the end that satisfy the condition. -/
def trimEnd (condition : Char → Bool) (text : String) : String :=
  String.ofList (dropEndWhile condition text.toList)

/-- The text without the blanks around it. -/
def trim (text : String) : String :=
  String.ofList (dropEndWhile isBlank (text.toList.dropWhile isBlank))

/-- Whether a text begins with another one. -/
def startsWith (start text : String) : Bool := start.toList.isPrefixOf text.toList

/-- Whether a text ends with another one. -/
def endsWith (finish text : String) : Bool := finish.toList.isSuffixOf text.toList

/-- The text after the given start, if it starts so. -/
def afterStart? (start text : String) : Option String :=
  if startsWith start text then some (String.ofList (text.toList.drop start.toList.length))
  else none

/-- The text before the given end, if it ends so. -/
def beforeEnd? (finish text : String) : Option String :=
  if endsWith finish text then
    some (String.ofList (text.toList.take (text.toList.length - finish.toList.length)))
  else none

/-! ### Pieces of a text -/

/-- The pieces between the occurrences of a character; never empty. -/
def split (separator : Char) (text : String) : List String :=
  (text.toList.splitOn separator).map String.ofList

/-- The pieces between the occurrences of a character that are not empty. -/
def segments (separator : Char) (text : String) : List String :=
  (split separator text).filter fun piece => !piece.isEmpty

/-- The two sides of the first occurrence of a character. -/
def splitOnce? (separator : Char) (text : String) : Option (String × String) :=
  let characters := text.toList
  if characters.contains separator then
    some (String.ofList (characters.takeWhile (· ≠ separator)),
      String.ofList ((characters.dropWhile (· ≠ separator)).drop 1))
  else none

/-- Joins pieces with a separator between them. -/
def join (separator : String) (pieces : List String) : String :=
  separator.intercalate pieces

/-- The lines of a text. A line ends at a line feed, and a carriage return before the line feed
belongs to the ending; the text after the last line feed is a line unless it is empty. -/
def lines (text : String) : List String :=
  let pieces := text.toList.splitOn '\n'
  let ended := pieces.dropLast.map fun line =>
    if line.getLast? = some '\r' then line.dropLast else line
  let rest := (pieces.getLast?.toList).filter fun line => !line.isEmpty
  (ended ++ rest).map String.ofList

/-! ### Replacement -/

/-- Replaces each occurrence of a character. -/
def replaceCharacter (old : Char) (new text : String) : String :=
  String.ofList (text.toList.flatMap fun character =>
    if character = old then new.toList else [character])

/-- Replaces the occurrences of `old`, which is not empty, from the left. `skip` counts the
characters of the occurrence being passed. -/
def replaceFrom (old new : List Char) (skip : Nat) : List Char → List Char
  | [] => []
  | character :: rest =>
    match skip with
    | skip + 1 => replaceFrom old new skip rest
    | 0 =>
      if old.isPrefixOf (character :: rest) then
        new ++ replaceFrom old new (old.length - 1) rest
      else character :: replaceFrom old new 0 rest

/-- Replaces each occurrence of a text, from the start on. -/
def replace (old new text : String) : String :=
  String.ofList (replaceFrom old.toList new.toList 0 text.toList)

/-- The number of characters before the first occurrence of `part`. -/
def findFrom (part : List Char) : List Char → Option Nat
  | [] => if part.isEmpty then some 0 else none
  | character :: rest =>
    if part.isPrefixOf (character :: rest) then some 0 else (findFrom part rest).map (· + 1)

/-- Where a text first occurs in another one. -/
def find? (part text : String) : Option Nat := findFrom part.toList text.toList

end ServiceForge.Text
