/-
This file writes JSON documents as YAML, in block style with two spaces of
indentation. A scalar is written without quotes if it reads back as the same text,
over several lines if it has any, and otherwise in the plainest quotes that can
hold it.
-/

import ServiceForge.Json.Basic
import ServiceForge.Text.Basic
import ServiceForge.Yaml.Cursor
import ServiceForge.Yaml.Scalar
import ServiceForge.Yaml.Token

namespace ServiceForge.Yaml

open ServiceForge.Text (join)

/-! ### What a text admits -/

/-- A character that may stand in a text as it is. -/
def isPrintable (character : Char) : Bool :=
  let point := character.toNat
  point == 0x0A || decide (0x20 ≤ point ∧ point ≤ 0x7E) ||
    (decide (0xA0 ≤ point) && point != 0xFEFF && point != 0xFFFE && point != 0xFFFF)

/-- Whether some two neighbours of a text satisfy a condition. -/
def anyNeighbours (condition : Char → Char → Bool) : List Char → Bool
  | first :: second :: rest =>
    condition first second || anyNeighbours condition (second :: rest)
  | _ => false

/-- Characters that mean something at the start of a scalar. -/
def openingIndicators : List Char :=
  ['#', ',', '[', ']', '\x7b', '\x7d', '&', '*', '!', '|', '>', '\'', '"', '%', '@', '\x60']

/-- Whether a scalar without quotes would be taken for something else. -/
def hasIndicators (text : List Char) : Bool :=
  let blankAfter (rest : List Char) : Bool := rest.head?.all isSpaceOrBreak
  let opens : Bool :=
    match text with
    | first :: rest =>
      openingIndicators.contains first ||
        ((first = '?' || first = ':' || first = '-') && blankAfter rest)
    | [] => false
  opens || ['-', '-', '-'].isPrefixOf text || ['.', '.', '.'].isPrefixOf text ||
    text.getLast? = some ':' ||
    anyNeighbours (fun left right => left = ':' && isSpaceOrBreak right) text ||
    anyNeighbours (fun left right => isSpaceOrBreak left && right = '#') text

/-- Whether a text has more than one line. -/
def isMultiline (text : List Char) : Bool := text.any isBreak

/-- Whether a break is followed by a space, which quotes without escapes cannot keep. -/
def hasBreakSpace (text : List Char) : Bool :=
  anyNeighbours (fun left right => isBreak left && right = ' ') text

/-- Whether characters need escapes, or a space at the end of a line does. -/
def needsEscapes (text : List Char) : Bool :=
  !text.all isPrintable || anyNeighbours (fun left right => left = ' ' && isBreak right) text

/-- Whether a text begins or ends with a space. -/
def hasOuterSpace (text : List Char) : Bool :=
  text.head? = some ' ' || text.getLast? = some ' '

/-- Whether a text can be written without quotation marks. -/
def admitsPlain (text : List Char) : Bool :=
  !hasOuterSpace text && !isMultiline text && !needsEscapes text && !hasIndicators text

/-- Whether a text can be written between single quotation marks. -/
def admitsSingleQuoted (text : List Char) : Bool := !hasBreakSpace text && !needsEscapes text

/-- Whether a text can be written line by line, as it is. -/
def admitsLiteral (text : List Char) : Bool :=
  text.getLast? ≠ some ' ' && !needsEscapes text

/-! ### Styles -/

/-- Whether a text without quotes would stand for a value of another type. -/
def isAmbiguous (text : String) : Bool :=
  Scalar.ofPlain text ≠ .text text || Scalar.isPadded text

/-- The style of a text. A key on one line admits no other lines. -/
def Style.ofText (isKey : Bool) (text : String) : Style :=
  let characters := text.toList
  let quoted : Style := if admitsSingleQuoted characters then .singleQuoted else .doubleQuoted
  if isKey && isMultiline characters then .doubleQuoted
  else if characters.contains '\n' then
    if !isKey && admitsLiteral characters then .literal else .doubleQuoted
  else if isAmbiguous text then quoted
  else if admitsPlain characters then .plain
  else quoted

/-! ### Scalars -/

/-- A number of spaces. -/
def spaces (count : Nat) : List Char := List.replicate count ' '

/-- Indents what follows a break other than a line feed; `broken` says that a break came last. -/
def indentPieces (indent : Nat) (broken : Bool) : List Char → List Char
  | [] => []
  | character :: rest =>
    if isBreak character then character :: indentPieces indent true rest
    else
      (if broken then spaces indent else []) ++ character :: indentPieces indent false rest

/-- Quotes a text in which only the quote is written twice. -/
def singleQuoted (indent : Nat) (text : List Char) : List Char :=
  let doubled := text.flatMap fun character =>
    if character = '\'' then ['\'', '\''] else [character]
  '\'' :: indentPieces indent false doubled ++
    (if text.getLast?.any isBreak then spaces indent else []) ++ ['\'']

/-- The digits of a number in uppercase hexadecimal, of a fixed width. -/
def paddedHex (width number : Nat) : List Char :=
  let digits := (Nat.toDigits 16 number).map Char.toUpper
  List.replicate (width - digits.length) '0' ++ digits

/-- What follows the backslash for a character that is escaped. -/
def escapeCode (character : Char) : List Char :=
  match character.toNat with
  | 0x00 => ['0']
  | 0x07 => ['a']
  | 0x08 => ['b']
  | 0x09 => ['t']
  | 0x0A => ['n']
  | 0x0B => ['v']
  | 0x0C => ['f']
  | 0x0D => ['r']
  | 0x1B => ['e']
  | 0x22 => ['"']
  | 0x5C => ['\\']
  | 0x85 => ['N']
  | 0xA0 => ['_']
  | 0x2028 => ['L']
  | 0x2029 => ['P']
  | point =>
    if point ≤ 0xFF then 'x' :: paddedHex 2 point
    else if point ≤ 0xFFFF then 'u' :: paddedHex 4 point
    else 'U' :: paddedHex 8 point

/-- A text between double quotation marks, with escapes. -/
def doubleQuoted (text : List Char) : List Char :=
  '"' :: text.flatMap (fun character =>
    if !isPrintable character || isBreak character || character = '"' || character = '\\' then
      '\\' :: escapeCode character
    else [character]) ++ ['"']

/-- The header of a literal text: the indentation if its first line hides it, and what happens to
the line breaks at the end. -/
def literalHeader (text : List Char) : List Char :=
  let isHidden := text.head?.any fun character => character = ' ' || isBreak character
  let hint := if isHidden then ['2'] else []
  let chomping :=
    match text.reverse with
    | [] => ['-']
    | [last] => if isBreak last then ['+'] else ['-']
    | last :: before :: _ =>
      if !isBreak last then ['-'] else if isBreak before then ['+'] else []
  '|' :: hint ++ chomping

/-- The lines of a literal text below its header. -/
def literalLines (indent : Nat) (text : List Char) : List (List Char) :=
  let lines := text.splitOn '\n'
  let lines := if lines.getLast? = some [] then lines.dropLast else lines
  lines.map (indentPieces indent true)

/-- The lines of a text whose further lines are indented so far. -/
def textLines (isKey : Bool) (indent : Nat) (text : String) : List (List Char) :=
  let characters := text.toList
  match Style.ofText isKey text with
  | .plain => [characters]
  | .singleQuoted => [singleQuoted indent characters]
  | .doubleQuoted => [doubleQuoted characters]
  | _ => literalHeader characters :: literalLines indent characters

/-! ### Documents -/

/-- A key longer than this many bytes or with several lines takes a mark of its own. -/
def simpleKeyLimit : Nat := 128

/-- Whether a key is short enough to stand on the line of its value. -/
def isSimpleKey (key : String) : Bool :=
  !isMultiline key.toList && key.utf8ByteSize ≤ simpleKeyLimit

/-- Puts lines behind a mark, the first on the line of the mark. -/
def behind (mark : List Char) : List (List Char) → List (List Char)
  | [] => [mark]
  | first :: rest => (mark ++ first) :: rest

mutual

/-- The lines of a document. The first line is not indented; further lines are indented so that
they stand in a collection at the given column. -/
def documentLines (column : Nat) : Json → List (List Char)
  | .null => ["null".toList]
  | .bool value => [(if value then "true" else "false").toList]
  | .number value => [(value.text .none).toList]
  | .string value => textLines false column value
  | .array items => if items.isEmpty then [['[', ']']] else itemLines column items
  | .object members => if members.isEmpty then [['\x7b', '\x7d']] else memberLines column members

/-- The lines of the items of a sequence at a column. -/
def itemLines (column : Nat) : List Json → List (List Char)
  | [] => []
  | item :: rest =>
    behind (['-', ' ']) (documentLines (column + 2) item) ++
      match itemLines column rest with
      | [] => []
      | next :: others => (spaces column ++ next) :: others

/-- The lines of the members of a mapping at a column. -/
def memberLines (column : Nat) : List (String × Json) → List (List Char)
  | [] => []
  | member :: rest =>
    entryLines column member ++
      match memberLines column rest with
      | [] => []
      | next :: others => (spaces column ++ next) :: others

/-- The lines of one member. A collection begins below its key, a sequence at the same column,
unless the key has a mark of its own. -/
def entryLines (column : Nat) : String × Json → List (List Char)
  | (key, value) =>
    if isSimpleKey key then
      let key := textLines true (column + 2) key
      match value with
      | .array (item :: items) =>
        behind (key.flatten ++ [':']) [] ++
          behind (spaces column) (itemLines column (item :: items))
      | .object (member :: members) =>
        behind (key.flatten ++ [':']) [] ++
          behind (spaces (column + 2)) (memberLines (column + 2) (member :: members))
      | value => behind (key.flatten ++ [':', ' ']) (documentLines (column + 2) value)
    else
      behind ['?', ' '] (textLines false (column + 2) key) ++
        behind (spaces column ++ [':', ' ']) (documentLines (column + 2) value)

end

/-- The text of a document. -/
def render (document : Json) : String :=
  let lines :=
    match document with
    | .string value => textLines false 2 value
    | document => documentLines 0 document
  String.ofList (lines.flatMap (· ++ ['\n']))

end ServiceForge.Yaml
