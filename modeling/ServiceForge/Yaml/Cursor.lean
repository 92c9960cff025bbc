/-
This file holds the position of a reader inside a YAML text, the characters that
YAML treats as blanks and line breaks, and the error that reading reports.
-/

import ServiceForge.Text.CodePoints

namespace ServiceForge.Yaml

/-- A place in a text, counted in characters from zero. -/
structure Position where
  index : Nat := 0
  line : Nat := 0
  column : Nat := 0
deriving DecidableEq, Repr

/-- What was wrong with a text and, if it is a matter of its characters, where. -/
structure Error where
  problem : String
  position : Option Position := none
deriving Repr

/-- The text that explains an error, with the place where it occurred. -/
def Error.message (error : Error) : String :=
  error.problem ++
    match error.position with
    | some position =>
      " at line " ++ toString (position.line + 1) ++ " column " ++ toString (position.column + 1)
    | none => ""

/-! ### Characters -/

/-- A space or a tab. -/
def isSpace (character : Char) : Bool := character = ' ' || character = '\t'

/-- Whether a character ends a line. -/
def isBreak (character : Char) : Bool :=
  character = '\n' || character = '\r' || character = '\u0085' || character = '\u2028' ||
    character = '\u2029'

/-- Whether a character separates words or lines. -/
def isSpaceOrBreak (character : Char) : Bool := isSpace character || isBreak character

/-- A character of an anchor, a tag handle or a directive name. -/
def isWordCharacter (character : Char) : Bool :=
  character.isAlphanum || character = '_' || character = '-'

/-- A character that a text may hold at all. -/
def isAllowed (character : Char) : Bool :=
  let point := character.toNat
  point == 9 || point == 10 || point == 13 || decide (0x20 ≤ point ∧ point ≤ 0x7E) ||
    point == 0x85 || decide (0xA0 ≤ point ∧ point ≤ 0xD7FF) ||
    decide (0xE000 ≤ point ∧ point ≤ 0xFFFD) || decide (0x10000 ≤ point)

/-! ### Cursors -/

/-- The characters that are still to be read. -/
structure Cursor where
  rest : List Char
  position : Position := {}

namespace Cursor

/-- The next character. -/
def peek (cursor : Cursor) : Option Char := cursor.rest.head?

/-- The character some places ahead. -/
def peekAt (cursor : Cursor) (offset : Nat) : Option Char := cursor.rest[offset]?

/-- Whether the next character is the given one. -/
def isAt (cursor : Cursor) (character : Char) : Bool := cursor.peek == some character

/-- Whether a blank, a line break or the end of the text stands at the offset. -/
def endsAt (cursor : Cursor) (offset : Nat) : Bool := (cursor.peekAt offset).all isSpaceOrBreak

/-- Whether a space follows. -/
def atSpace (cursor : Cursor) : Bool := cursor.peek.any isSpace

/-- Whether the end of a line follows. -/
def atBreak (cursor : Cursor) : Bool := cursor.peek.any isBreak

/-- Whether the end of a line or of the text follows. -/
def atBreakOrEnd (cursor : Cursor) : Bool := cursor.peek.all isBreak

/-- Passes characters of the present line. -/
def advanceBy (count : Nat) (cursor : Cursor) : Cursor :=
  { rest := cursor.rest.drop count
    position := { cursor.position with
      index := cursor.position.index + count
      column := cursor.position.column + count } }

/-- Passes one character of the present line. -/
def advance (cursor : Cursor) : Cursor := cursor.advanceBy 1

/-- Passes a line break and gives the text that it stands for. -/
def takeBreak (cursor : Cursor) : List Char × Cursor :=
  let passed (count : Nat) : Cursor :=
    { rest := cursor.rest.drop count
      position :=
        { index := cursor.position.index + count, line := cursor.position.line + 1, column := 0 } }
  match cursor.rest with
  | '\r' :: '\n' :: _ => (['\n'], passed 2)
  | '\u2028' :: _ => (['\u2028'], passed 1)
  | '\u2029' :: _ => (['\u2029'], passed 1)
  | character :: _ => if isBreak character then (['\n'], passed 1) else ([], cursor)
  | [] => ([], cursor)

/-- Passes the characters that satisfy a condition, all on the present line. -/
def span (condition : Char → Bool) (cursor : Cursor) : List Char × Cursor :=
  let taken := cursor.rest.takeWhile condition
  (taken, cursor.advanceBy taken.length)

/-- Goes past the characters that satisfy the condition. -/
def skip (condition : Char → Bool) (cursor : Cursor) : Cursor := (cursor.span condition).2

/-- Whether a document marker (`---` or `...`) stands here, at the start of a line. -/
def atMarker (mark : Char) (cursor : Cursor) : Bool :=
  cursor.position.column == 0 && [mark, mark, mark].isPrefixOf cursor.rest && cursor.endsAt 3

/-- Fails at the place of the cursor. -/
def fail {α : Type} (cursor : Cursor) (problem : String) : Except Error α :=
  throw ⟨problem, some cursor.position⟩

end Cursor

end ServiceForge.Yaml
