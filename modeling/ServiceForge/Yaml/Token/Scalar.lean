/-
This file reads the text of one scalar: plain, quoted, or a block scalar. A line
break between two pieces of a scalar becomes a space, and each further one is
kept; only literal block scalars keep all of them.
-/

import ServiceForge.Yaml.Cursor
import ServiceForge.Yaml.Token

namespace ServiceForge.Yaml

open ServiceForge.Text (hexDigit?)

/-! ### Gaps between the pieces of a scalar -/

/-- The blanks and line breaks between two pieces of a scalar. -/
structure Gap where
  spaces : List Char := []
  first : List Char := []
  later : List Char := []
  broken : Bool := false

/-- The text that a gap stands for. -/
def Gap.text (gap : Gap) : List Char :=
  if gap.broken then
    if gap.first = ['\n'] then (if gap.later.isEmpty then [' '] else gap.later)
    else gap.first ++ gap.later
  else gap.spaces

/-- Reads a gap. With a margin, a tab that indents a later line less than the margin is an
error. -/
def takeGap (margin : Option Int) (limit : Nat) (gap : Gap) (cursor : Cursor) :
    Except Error (Gap × Cursor) :=
  match limit with
  | 0 => return (gap, cursor)
  | limit + 1 =>
    if cursor.atSpace then
      let column : Int := cursor.position.column
      if gap.broken && cursor.isAt '\t' && margin.any (column < ·) then
        cursor.fail "found a tab character that violates indentation"
      else if gap.broken then takeGap margin limit gap cursor.advance
      else
        takeGap margin limit { gap with spaces := gap.spaces ++ cursor.peek.toList }
          cursor.advance
    else if cursor.atBreak then
      let (text, next) := cursor.takeBreak
      if gap.broken then takeGap margin limit { gap with later := gap.later ++ text } next
      else takeGap margin limit { gap with spaces := [], first := text, broken := true } next
    else return (gap, cursor)

/-! ### Plain scalars -/

/-- Whether a plain scalar ends before the present character. -/
def endsPlain (flow : Bool) (cursor : Cursor) : Bool :=
  (cursor.isAt ':' && cursor.endsAt 1) ||
    (flow && cursor.peek.any ([',', '[', ']', '\x7b', '\x7d'].contains ·))

/-- Reads the characters of a plain scalar up to a blank or its end; `read` holds the text in
reverse. -/
def takePlainPiece (flow : Bool) (limit : Nat) (read : List Char) (cursor : Cursor) :
    Except Error (List Char × Cursor) :=
  match limit with
  | 0 => return (read, cursor)
  | limit + 1 =>
    if cursor.endsAt 0 then return (read, cursor)
    else if flow && cursor.isAt ':' &&
        (cursor.peekAt 1).any ([',', '?', '[', ']', '\x7b', '\x7d'].contains ·) then
      cursor.fail "found unexpected ':'"
    else if endsPlain flow cursor then return (read, cursor)
    else takePlainPiece flow limit (cursor.peek.toList ++ read) cursor.advance

/-- Reads a plain scalar piece by piece. `gap` is what was passed since the last piece; it counts
only when another piece follows. The result says whether lines were passed at the end. -/
def takePlain (flow : Bool) (margin : Int) (limit : Nat) (read : List Char) (gap : Gap)
    (cursor : Cursor) : Except Error (List Char × Bool × Cursor) :=
  match limit with
  | 0 => return (read, gap.broken, cursor)
  | limit + 1 => do
    if cursor.atMarker '-' || cursor.atMarker '.' || cursor.isAt '#' then
      return (read, gap.broken, cursor)
    let (piece, next) ← takePlainPiece flow (limit + 1) [] cursor
    let (read, broken) :=
      if piece.isEmpty then (read, gap.broken) else (piece ++ gap.text.reverse ++ read, false)
    if next.atSpace || next.atBreak then
      let pending := if piece.isEmpty then gap else {}
      let (gap, next) ← takeGap (some margin) (limit + 1) pending next
      if !flow && next.position.column < margin then return (read, gap.broken, next)
      takePlain flow margin limit read gap next
    else return (read, broken, next)

/-! ### Quoted scalars -/

/-- The value of a number of hexadecimal digits. -/
def hexDigits? (count : Nat) (text : List Char) : Option Nat :=
  let digits := (text.take count).filterMap hexDigit?
  if digits.length = count then
    some (digits.foldl (fun value digit => value * 16 + digit) 0)
  else none

/-- The character with the given code point, unless it is a surrogate or too large. -/
def character? (point : Nat) : Option Char :=
  if point.isValidChar then some (Char.ofNat point) else none

/-- The character an escape stands for and the length of the escape after the backslash. -/
def escape? (text : List Char) : Option (Char × Nat) :=
  let coded (count : Nat) : Option (Char × Nat) := do
    let point ← hexDigits? count (text.drop 1)
    let character ← character? point
    return (character, count + 1)
  match text.head? with
  | some '0' => some ('\x00', 1)
  | some 'a' => some ('\x07', 1)
  | some 'b' => some ('\x08', 1)
  | some 't' => some ('\t', 1)
  | some '\t' => some ('\t', 1)
  | some 'n' => some ('\n', 1)
  | some 'v' => some ('\x0b', 1)
  | some 'f' => some ('\x0c', 1)
  | some 'r' => some ('\r', 1)
  | some 'e' => some ('\x1b', 1)
  | some ' ' => some (' ', 1)
  | some '"' => some ('"', 1)
  | some '/' => some ('/', 1)
  | some '\\' => some ('\\', 1)
  | some 'N' => some ('\u0085', 1)
  | some '_' => some ('\u00a0', 1)
  | some 'L' => some ('\u2028', 1)
  | some 'P' => some ('\u2029', 1)
  | some 'x' => coded 2
  | some 'u' => coded 4
  | some 'U' => coded 8
  | _ => none

/-- Reads the characters of a quoted scalar up to a blank, its closing quote, or an escaped line
break, which is passed and reported. -/
def takeQuotedPiece (single : Bool) (limit : Nat) (read : List Char) (cursor : Cursor) :
    Except Error (List Char × Bool × Cursor) :=
  match limit with
  | 0 => return (read, false, cursor)
  | limit + 1 =>
    if cursor.endsAt 0 then return (read, false, cursor)
    else if single then
      if cursor.isAt '\'' then
        if cursor.peekAt 1 = some '\'' then
          takeQuotedPiece single limit ('\'' :: read) (cursor.advanceBy 2)
        else return (read, false, cursor)
      else takeQuotedPiece single limit (cursor.peek.toList ++ read) cursor.advance
    else if cursor.isAt '"' then return (read, false, cursor)
    else if cursor.isAt '\\' then
      if (cursor.peekAt 1).any isBreak then return (read, true, cursor.advance.takeBreak.2)
      else
        match escape? (cursor.rest.drop 1) with
        | some (character, length) =>
          takeQuotedPiece single limit (character :: read) (cursor.advanceBy (length + 1))
        | none => cursor.fail "found unknown escape character"
    else takeQuotedPiece single limit (cursor.peek.toList ++ read) cursor.advance

/-- Reads a quoted scalar after its opening quote, up to and with its closing quote. -/
def takeQuoted (single : Bool) (limit : Nat) (read : List Char) (cursor : Cursor) :
    Except Error (List Char × Cursor) :=
  match limit with
  | 0 => cursor.fail "found unexpected end of stream"
  | limit + 1 => do
    if cursor.atMarker '-' || cursor.atMarker '.' then
      cursor.fail "found unexpected document indicator"
    if cursor.rest.isEmpty then cursor.fail "found unexpected end of stream"
    let (read, escaped, next) ← takeQuotedPiece single (limit + 1) read cursor
    if next.isAt (if single then '\'' else '"') then return (read, next.advance)
    let (gap, next) ← takeGap none (limit + 1) { broken := escaped } next
    takeQuoted single limit (gap.text.reverse ++ read) next

/-! ### Block scalars -/

/-- What happens to the line breaks at the end of a block scalar. -/
inductive Chomping where
  | strip
  | clip
  | keep
deriving DecidableEq

/-- Passes indentation and empty lines. An indentation of zero is not known yet; the widest
indentation seen is returned with the breaks. -/
def takeEmptyLines (indent : Nat) (limit : Nat) (widest : Nat) (breaks : List Char)
    (cursor : Cursor) : Except Error (Nat × List Char × Cursor) :=
  match limit with
  | 0 => return (widest, breaks, cursor)
  | limit + 1 =>
    let column := cursor.position.column
    let width := cursor.rest.takeWhile (· = ' ')
    let passed := if indent = 0 then width.length else min width.length (indent - column)
    let cursor := cursor.advanceBy passed
    let column := cursor.position.column
    if (indent = 0 || column < indent) && cursor.isAt '\t' then
      cursor.fail "found a tab character where an indentation space is expected"
    else if cursor.atBreak then
      let (text, next) := cursor.takeBreak
      takeEmptyLines indent limit (max widest column) (breaks ++ text) next
    else return (max widest column, breaks, cursor)

/-- Reads the lines of a block scalar. `ending` is the break after the last line read, `breaks`
the empty lines after it, and `blank` says whether that line began with a blank. -/
def takeBlockLines (literal : Bool) (indent : Nat) (limit : Nat) (read ending breaks : List Char)
    (blank : Bool) (cursor : Cursor) :
    Except Error (List Char × List Char × List Char × Cursor) :=
  match limit with
  | 0 => return (read, ending, breaks, cursor)
  | limit + 1 => do
    if cursor.position.column ≠ indent || cursor.rest.isEmpty then
      return (read, ending, breaks, cursor)
    let begins := cursor.atSpace
    let folded :=
      if !literal && ending.head? = some '\n' && !blank && !begins then
        if breaks.isEmpty then [' '] else []
      else ending
    let (line, next) := cursor.span fun character => !isBreak character
    let (ending, next) := next.takeBreak
    let read := line.reverse ++ breaks.reverse ++ folded.reverse ++ read
    let (_, breaks, next) ← takeEmptyLines indent (limit + 1) 0 [] next
    takeBlockLines literal indent limit read ending breaks begins next

/-- Reads the digit that gives the indentation of a block scalar, if there is one. -/
def takeIncrement (cursor : Cursor) : Except Error (Nat × Cursor) :=
  match cursor.peek with
  | some character =>
    if character = '0' then cursor.fail "found an indentation indicator equal to 0"
    else if character.isDigit then return (character.toNat - '0'.toNat, cursor.advance)
    else return (0, cursor)
  | none => return (0, cursor)

/-- Reads what is done with the line breaks at the end of a block. -/
def takeChomping (cursor : Cursor) : Chomping × Cursor :=
  if cursor.isAt '+' then (.keep, cursor.advance)
  else if cursor.isAt '-' then (.strip, cursor.advance)
  else (.clip, cursor)

/-- Reads a block scalar after its indicator. `margin` is the indentation of the collection that
holds it. -/
def takeBlock (literal : Bool) (margin : Int) (limit : Nat) (cursor : Cursor) :
    Except Error (List Char × Cursor) := do
  let (chomping, increment, cursor) ←
    if cursor.isAt '+' || cursor.isAt '-' then do
      let (chomping, next) := takeChomping cursor
      let (increment, next) ← takeIncrement next
      pure (chomping, increment, next)
    else do
      let (increment, next) ← takeIncrement cursor
      let (chomping, next) := if increment = 0 then (Chomping.clip, next) else takeChomping next
      pure (chomping, increment, next)
  let cursor := cursor.skip isSpace
  let cursor :=
    if cursor.isAt '#' then cursor.skip (fun character => !isBreak character) else cursor
  unless cursor.atBreakOrEnd do cursor.fail "did not find expected comment or line break"
  let cursor := cursor.takeBreak.2
  let given : Nat :=
    if increment = 0 then 0 else (if 0 ≤ margin then margin.toNat + increment else increment)
  let (widest, breaks, cursor) ← takeEmptyLines given limit 0 [] cursor
  let indent := if given = 0 then max widest (max (margin + 1).toNat 1) else given
  let (read, ending, breaks, cursor) ←
    takeBlockLines literal indent limit [] [] breaks false cursor
  let tail :=
    match chomping with
    | .strip => []
    | .clip => ending
    | .keep => ending ++ breaks
  return (read.reverse ++ tail, cursor)

end ServiceForge.Yaml
