/-
This file splits a YAML text into tokens. A mapping key without an indicator is
recognized only at the colon after it, so the scanner remembers where a key may
have begun and inserts its token there.
-/

import ServiceForge.Yaml.Token.Scalar

namespace ServiceForge.Yaml

/-- A place where a key without an indicator may have begun: its token number and position.
It is required when nothing but a key can stand there. -/
structure PossibleKey where
  required : Bool
  number : Nat
  position : Position

/-- The state of the scanner. `keys` holds the possible key of each open flow collection and of
the block context below them, the innermost first. `indent` is the column of the innermost block
collection, -1 outside of all. -/
structure Scanner where
  cursor : Cursor
  tokens : Array Token := #[]
  indent : Int := -1
  indents : List Int := []
  keys : List (Option PossibleKey) := [none]
  keyAllowed : Bool := true

namespace Scanner

/-- Actions on a scanner that may fail. -/
abbrev Scan := StateT Scanner (Except Error)

/-- Fails at the place of the scanner. -/
def fail {α : Type} (problem : String) : Scan α := do
  (← get).cursor.fail problem

/-- How many collections in brackets the scanner is inside of. -/
def flowLevel (scanner : Scanner) : Nat := scanner.keys.length - 1

/-- The column that the scanner is at. -/
def column (scanner : Scanner) : Int := scanner.cursor.position.column

/-- Adds a token. -/
def emit (token : Token) : Scan Unit :=
  modify fun scanner => { scanner with tokens := scanner.tokens.push token }

/-- Moves the cursor. -/
def move (step : Cursor → Cursor) : Scan Unit :=
  modify fun scanner => { scanner with cursor := step scanner.cursor }

/-- Says whether a key may follow. -/
def allowKey (allowed : Bool) : Scan Unit :=
  modify fun scanner => { scanner with keyAllowed := allowed }

/-! ### Possible keys -/

/-- Gives up the innermost possible key. -/
def dropKey : Scan Unit := do
  let scanner ← get
  match scanner.keys with
  | [] => return
  | present :: outer =>
    if present.any (·.required) then fail "could not find expected ':'"
    set { scanner with keys := none :: outer }

/-- Remembers that a key may begin here. -/
def saveKey : Scan Unit := do
  let scanner ← get
  if scanner.keyAllowed then
    let required := scanner.flowLevel == 0 && scanner.indent == scanner.column
    dropKey
    modify fun scanner => { scanner with
      keys := some ⟨required, scanner.tokens.size, scanner.cursor.position⟩ :: scanner.keys.tail }

/-- A key stays on one line and is shorter than 1024 characters. -/
def isStale (position : Position) (key : PossibleKey) : Bool :=
  decide (key.position.line < position.line) ||
    decide (key.position.index + 1024 < position.index)

/-- Gives up the possible keys that can no longer be keys. -/
def dropStaleKeys : Scan Unit := do
  let scanner ← get
  let stale := isStale scanner.cursor.position
  if scanner.keys.any (·.any fun key => stale key && key.required) then
    fail "could not find expected ':'"
  set { scanner with
    keys := scanner.keys.map fun slot => Option.filter (fun key => !stale key) slot }

/-- Enters a collection in brackets. -/
def openFlow : Scan Unit :=
  modify fun scanner => { scanner with keys := none :: scanner.keys }

/-- Leaves a collection in brackets. -/
def closeFlow : Scan Unit :=
  modify fun scanner => match scanner.keys with
    | _ :: outer :: rest => { scanner with keys := outer :: rest }
    | _ => scanner

/-! ### Indentation -/

/-- Opens a block collection at a column right of the present one. Its token goes to the given
place. -/
def indentTo (column : Int) (number : Nat) (token : Token) : Scan Unit :=
  modify fun scanner =>
    if scanner.flowLevel = 0 ∧ scanner.indent < column then
      { scanner with
        indent := column
        indents := scanner.indent :: scanner.indents
        tokens := scanner.tokens.insertIdxIfInBounds number token }
    else scanner

/-- Counts the open block collections right of a column. -/
def closedBy (column indent : Int) : List Int → Nat
  | [] => 0
  | outer :: rest => if column < indent then closedBy column outer rest + 1 else 0

/-- Closes the block collections right of a column. -/
def unindentTo (column : Int) : Scan Unit :=
  modify fun scanner =>
    if scanner.flowLevel = 0 then
      let count := closedBy column scanner.indent scanner.indents
      { scanner with
        indent := ((scanner.indent :: scanner.indents)[count]?).getD (-1)
        indents := scanner.indents.drop count
        tokens := scanner.tokens ++ (List.replicate count Token.blockEnd).toArray }
    else scanner

/-! ### Directives, anchors and tags -/

/-- Whether a character may stand in a tag. A verbatim tag admits a few more. -/
def isTagCharacter (verbatim : Bool) (character : Char) : Bool :=
  isWordCharacter character ||
    [';', '/', '?', ':', '@', '&', '=', '+', '$', '.', '%', '!', '~', '*', '\'', '(', ')'].contains
      character ||
    (verbatim && [',', '[', ']'].contains character)

/-- The bytes of the escapes at the start of a text. -/
def escapedBytes : List Char → List Nat
  | '%' :: high :: low :: rest =>
    match Text.hexDigit? high, Text.hexDigit? low with
    | some high, some low => (high * 16 + low) :: escapedBytes rest
    | _, _ => []
  | _ => []

/-- Replaces the escapes of a tag by the characters that they encode in UTF-8; `skip` counts the
characters of the escapes already replaced. -/
def unescapeTag? (skip : Nat) : List Char → Option (List Char)
  | [] => some []
  | character :: rest =>
    match skip with
    | skip + 1 => unescapeTag? skip rest
    | 0 =>
      if character = '%' then do
        let bytes := escapedBytes (character :: rest)
        let first ← bytes.head?
        let width :=
          if first < 0x80 then 1 else if first < 0xE0 then 2 else if first < 0xF0 then 3 else 4
        let text ← String.fromUTF8? ⟨((bytes.take width).map Nat.toUInt8).toArray⟩
        return text.toList ++ (← unescapeTag? (3 * width - 1) rest)
      else return character :: (← unescapeTag? 0 rest)

/-- Reads the characters of a tag after its handle. -/
def takeTagText (verbatim : Bool) (cursor : Cursor) : Except Error (String × Cursor) :=
  let (text, next) := cursor.span (isTagCharacter verbatim)
  match unescapeTag? 0 text with
  | some text => return (String.ofList text, next)
  | none => cursor.fail "found an incorrect escape in a tag"

/-- Reads `!`, `!!` or `!name!`; the closing mark may be missing. -/
def takeHandle (cursor : Cursor) : Except Error (String × Cursor) :=
  if cursor.isAt '!' then
    let (name, next) := cursor.advance.span isWordCharacter
    if next.isAt '!' then return (String.ofList ('!' :: name ++ ['!']), next.advance)
    else return (String.ofList ('!' :: name), next)
  else cursor.fail "did not find expected '!'"

/-- Reads the name of an anchor. -/
def takeAnchorName (cursor : Cursor) : Except Error (String × Cursor) :=
  let (name, next) := cursor.advance.span isWordCharacter
  let closed := next.endsAt 0 ||
    next.peek.any (['?', ':', ',', ']', '\x7d', '%', '@', '\x60'].contains ·)
  if name.isEmpty || !closed then
    next.fail "did not find expected alphabetic or numeric character"
  else return (String.ofList name, next)

/-- Reads a tag. -/
def takeTag (cursor : Cursor) : Except Error (Token × Cursor) := do
  let (token, next) ←
    if cursor.peekAt 1 = some '<' then do
      let (text, next) ← takeTagText true (cursor.advanceBy 2)
      if text.isEmpty then next.fail "did not find expected tag URI"
      unless next.isAt '>' do next.fail "did not find the expected '>'"
      pure (Token.tag "" text, next.advance)
    else do
      let (handle, next) ← takeHandle cursor
      if handle.length > 1 && handle.toList.getLast? = some '!' then
        let (text, next) ← takeTagText false next
        if text.isEmpty then next.fail "did not find expected tag URI"
        pure (Token.tag handle text, next)
      else
        let (text, next) ← takeTagText false next
        let suffix := String.ofList (handle.toList.drop 1) ++ text
        pure (if suffix.isEmpty then Token.tag "" "!" else Token.tag "!" suffix, next)
  unless next.endsAt 0 || next.isAt ',' do
    next.fail "did not find expected whitespace or line break"
  return (token, next)

/-- Reads up to nine digits. -/
def takeNumber (cursor : Cursor) : Except Error (Nat × Cursor) :=
  let (digits, next) := cursor.span Char.isDigit
  if digits.isEmpty then next.fail "did not find expected version number"
  else if digits.length > 9 then next.fail "found extremely long version number"
  else return (digits.foldl (fun value digit => value * 10 + (digit.toNat - '0'.toNat)) 0, next)

/-- Reads the version of a directive. -/
def takeVersion (cursor : Cursor) : Except Error (Token × Cursor) := do
  let (major, next) ← takeNumber (cursor.skip isSpace)
  unless next.isAt '.' do next.fail "did not find expected digit or '.' character"
  let (minor, next) ← takeNumber next.advance
  return (.version major minor, next)

/-- Reads the handle of a directive and what it stands for. -/
def takeTagDirective (cursor : Cursor) : Except Error (Token × Cursor) := do
  let (handle, next) ← takeHandle (cursor.skip isSpace)
  unless handle = "!" || handle.toList.getLast? = some '!' do
    next.fail "did not find expected '!'"
  unless next.atSpace do next.fail "did not find expected whitespace"
  let (text, next) ← takeTagText true (next.skip isSpace)
  if text.isEmpty then next.fail "did not find expected tag URI"
  unless next.endsAt 0 do next.fail "did not find expected whitespace or line break"
  return (.tagDirective handle text, next)

/-- Reads a directive by its name. -/
def takeDirective (cursor : Cursor) : Except Error (Token × Cursor) := do
  let (name, next) := cursor.advance.span isWordCharacter
  if name.isEmpty then next.fail "could not find expected directive name"
  unless next.endsAt 0 do next.fail "found unexpected non-alphabetical character"
  let (token, next) ←
    if String.ofList name = "YAML" then takeVersion next
    else if String.ofList name = "TAG" then takeTagDirective next
    else next.fail "found unknown directive name"
  let next := next.skip isSpace
  let next := if next.isAt '#' then next.skip (fun character => !isBreak character) else next
  unless next.atBreakOrEnd do next.fail "did not find expected comment or line break"
  return (token, next.takeBreak.2)

/-! ### Tokens -/

/-- Passes blanks, comments and line breaks. A new line allows a key in the block context. -/
def skipToToken (limit : Nat) : Scan Unit :=
  match limit with
  | 0 => return
  | limit + 1 => do
    if (← get).column = 0 && (← get).cursor.isAt '\ufeff' then move Cursor.advance
    let scanner ← get
    let tabs := scanner.flowLevel > 0 || !scanner.keyAllowed
    move (·.skip fun character => character = ' ' || (tabs && character = '\t'))
    if (← get).cursor.isAt '#' then move (·.skip fun character => !isBreak character)
    if (← get).cursor.atBreak then
      move fun cursor => cursor.takeBreak.2
      if scanner.flowLevel = 0 then allowKey true
      skipToToken limit

/-- Reads the marker that starts or ends a document. -/
def scanMarker (token : Token) : Scan Unit := do
  unindentTo (-1)
  dropKey
  allowKey false
  move (·.advanceBy 3)
  emit token

/-- Reads the bracket that opens a collection. -/
def scanFlowOpening (token : Token) : Scan Unit := do
  saveKey
  openFlow
  allowKey true
  move Cursor.advance
  emit token

/-- Reads the bracket that closes a collection. -/
def scanFlowClosing (token : Token) : Scan Unit := do
  dropKey
  closeFlow
  allowKey false
  move Cursor.advance
  emit token

/-- Reads the comma between the entries of a collection in brackets. -/
def scanFlowEntry : Scan Unit := do
  dropKey
  allowKey true
  move Cursor.advance
  emit .flowEntry

/-- Opens a block collection for an indicator that stands here. -/
def openBlock (token : Token) (problem : String) : Scan Unit := do
  let scanner ← get
  if scanner.flowLevel = 0 then
    unless scanner.keyAllowed do fail problem
    indentTo scanner.column scanner.tokens.size token

/-- Reads the dash before an item, which may begin a sequence. -/
def scanBlockEntry : Scan Unit := do
  openBlock .blockSequenceStart "block sequence entries are not allowed in this context"
  dropKey
  allowKey true
  move Cursor.advance
  emit .blockEntry

/-- Reads the mark before a key, which may begin a mapping. -/
def scanKey : Scan Unit := do
  openBlock .blockMappingStart "mapping keys are not allowed in this context"
  dropKey
  allowKey ((← get).flowLevel = 0)
  move Cursor.advance
  emit .key

/-- At the colon a possible key becomes a key. -/
def scanValue : Scan Unit := do
  let scanner ← get
  match scanner.keys.head?.join with
  | some key =>
    set { scanner with
      tokens := scanner.tokens.insertIdxIfInBounds key.number .key }
    indentTo key.position.column key.number .blockMappingStart
    modify fun scanner => { scanner with keys := none :: scanner.keys.tail }
    allowKey false
  | none =>
    openBlock .blockMappingStart "mapping values are not allowed in this context"
    allowKey (scanner.flowLevel = 0)
  move Cursor.advance
  emit .value

/-- Reads an anchor or an alias. -/
def scanAnchor (token : String → Token) : Scan Unit := do
  saveKey
  allowKey false
  let (name, next) ← takeAnchorName (← get).cursor
  move fun _ => next
  emit (token name)

/-- Reads a tag, which may belong to a key. -/
def scanTag : Scan Unit := do
  saveKey
  allowKey false
  let (token, next) ← takeTag (← get).cursor
  move fun _ => next
  emit token

/-- Reads a directive, which ends all blocks. -/
def scanDirective : Scan Unit := do
  unindentTo (-1)
  dropKey
  allowKey false
  let (token, next) ← takeDirective (← get).cursor
  move fun _ => next
  emit token

/-- Reads a scalar that is a block of lines. -/
def scanBlockScalar (limit : Nat) (style : Style) : Scan Unit := do
  dropKey
  allowKey true
  let scanner ← get
  let (text, next) ← takeBlock (style = .literal) scanner.indent limit scanner.cursor.advance
  move fun _ => next
  emit (.scalar style (String.ofList text))

/-- Reads a scalar between quotation marks. -/
def scanQuoted (limit : Nat) (style : Style) : Scan Unit := do
  saveKey
  allowKey false
  let (text, next) ← takeQuoted (style = .singleQuoted) limit [] (← get).cursor.advance
  move fun _ => next
  emit (.scalar style (String.ofList text.reverse))

/-- Reads a scalar without quotation marks. If it goes on to another line, a key may follow. -/
def scanPlain (limit : Nat) : Scan Unit := do
  saveKey
  allowKey false
  let scanner ← get
  let (text, broken, next) ←
    takePlain (scanner.flowLevel > 0) (scanner.indent + 1) limit [] {} scanner.cursor
  move fun _ => next
  if broken then allowKey true
  emit (.scalar .plain (String.ofList text.reverse))

/-- Ends all blocks and the tokens. -/
def scanEnd : Scan Unit := do
  unindentTo (-1)
  dropKey
  allowKey false
  emit .streamEnd

/-- Whether a plain scalar may begin here. -/
def beginsPlain (scanner : Scanner) : Bool :=
  let cursor := scanner.cursor
  let reserved := ['-', '?', ':', ',', '[', ']', '\x7b', '\x7d', '#', '&', '*', '!', '|', '>',
    '\'', '"', '%', '@', '\x60']
  !(cursor.endsAt 0 || cursor.peek.any (reserved.contains ·)) ||
    (cursor.isAt '-' && !(cursor.peekAt 1).any isSpace) ||
    (scanner.flowLevel == 0 && (cursor.isAt '?' || cursor.isAt ':') && !cursor.endsAt 1)

/-- Scans the next token and says whether there are more. -/
def scanToken (limit : Nat) : Scan Bool := do
  skipToToken limit
  dropStaleKeys
  unindentTo (← get).column
  let scanner ← get
  let cursor := scanner.cursor
  let flow := scanner.flowLevel > 0
  match cursor.peek with
  | none => scanEnd; return false
  | some character =>
    if scanner.column = 0 && character = '%' then scanDirective
    else if cursor.atMarker '-' then scanMarker .documentStart
    else if cursor.atMarker '.' then scanMarker .documentEnd
    else if character = '[' then scanFlowOpening .flowSequenceStart
    else if character = '\x7b' then scanFlowOpening .flowMappingStart
    else if character = ']' then scanFlowClosing .flowSequenceEnd
    else if character = '\x7d' then scanFlowClosing .flowMappingEnd
    else if character = ',' then scanFlowEntry
    else if character = '-' && cursor.endsAt 1 then scanBlockEntry
    else if character = '?' && (flow || cursor.endsAt 1) then scanKey
    else if character = ':' && (flow || cursor.endsAt 1) then scanValue
    else if character = '*' then scanAnchor .alias
    else if character = '&' then scanAnchor .anchor
    else if character = '!' then scanTag
    else if character = '|' && !flow then scanBlockScalar limit .literal
    else if character = '>' && !flow then scanBlockScalar limit .folded
    else if character = '\'' then scanQuoted limit .singleQuoted
    else if character = '"' then scanQuoted limit .doubleQuoted
    else if scanner.beginsPlain then scanPlain limit
    else fail "found character that cannot start any token"
    return true

/-- Every token but the last passes at least one character. -/
def scanAll (limit : Nat) (fuel : Nat) : Scan Unit :=
  match fuel with
  | 0 => return
  | fuel + 1 => do if ← scanToken limit then scanAll limit fuel

end Scanner

/-- The tokens of a text. -/
def Token.ofText (text : String) : Except Error (List Token) := do
  let characters := text.toList
  unless characters.all isAllowed do
    throw ⟨"control characters are not allowed", none⟩
  let limit := characters.length + 2
  let (_, scanner) ← (Scanner.scanAll limit limit).run { cursor := { rest := characters } }
  return scanner.tokens.toList

end ServiceForge.Yaml
