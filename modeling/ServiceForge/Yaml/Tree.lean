/-
This file reads the tokens of a YAML text as a tree. The tree keeps anchors and
aliases as numbers: an anchor is numbered by how many anchor names were in use
when it was met, and of two anchors with one number the later counts.
-/

import ServiceForge.OrderedMap
import ServiceForge.Yaml.Token.Scanner

namespace ServiceForge.Yaml

/-! ### Tags -/

/-- What a tag says about the node that it stands on. -/
inductive Tag where
  | absent
  | boolean
  | integer
  | float
  | null
  | application (name : String)
  | other
deriving DecidableEq, Repr

namespace Tag

/-- The common start of the tags that YAML itself defines. -/
def standardStart : String := "tag:yaml.org,2002:"

/-- The tag that a text names. Those of the usual types are known. -/
def ofText (text : String) : Tag :=
  if text = standardStart ++ "bool" then boolean
  else if text = standardStart ++ "int" then integer
  else if text = standardStart ++ "float" then float
  else if text = standardStart ++ "null" then null
  else
    match text.toList with
    | '!' :: name => application (String.ofList name)
    | _ => other

end Tag

/-! ### Trees -/

/-- A document with its anchors and aliases. -/
inductive Tree where
  | scalar (anchor : Option Nat) (tag : Tag) (style : Style) (text : String)
  | sequence (anchor : Option Nat) (tag : Tag) (items : List Tree)
  | mapping (anchor : Option Nat) (tag : Tag) (entries : List (Tree × Tree))
  | alias (number : Nat)
deriving Repr

namespace Tree

/-- The node that stands where nothing is written. -/
def empty : Tree := .scalar none .absent .plain ""

/-- The tokens still to be read, the meaning of tag handles, and the anchor names met so far. -/
structure Reading where
  tokens : List Token
  handles : List (String × String) := []
  anchors : OrderedMap Nat := []

/-- Actions on the tokens that are left, which may fail. -/
abbrev Read := StateT Reading (Except Error)

/-- Fails without a place. -/
def fail {α : Type} (problem : String) : Read α := throw ⟨problem, none⟩

/-- The next token. After the last one it is the end. -/
def peek : Read Token := do
  return (← get).tokens.head?.getD .streamEnd

/-- Goes past a token. -/
def advance : Read Unit :=
  modify fun reading => { reading with tokens := reading.tokens.drop 1 }

/-- Passes the next token if it is the given one. -/
def accept (token : Token) : Read Bool := do
  if (← peek) = token then
    advance
    return true
  else return false

/-! ### Properties of a node -/

/-- Takes an anchor, if one follows, and numbers it. -/
def takeAnchor? : Read (Option Nat) := do
  match ← peek with
  | .anchor name =>
    advance
    let anchors := (← get).anchors
    let number := anchors.length
    modify fun reading => { reading with anchors := anchors.insert name number }
    return some number
  | _ => return none

/-- The full text of a tag. -/
def takeTag? : Read (Option String) := do
  match ← peek with
  | .tag handle suffix =>
    advance
    if handle.isEmpty then return some suffix
    else
      match List.lookup handle (← get).handles with
      | some expansion => return some (expansion ++ suffix)
      | none => fail "found undefined tag handle"
  | _ => return none

/-- An anchor and a tag, in either order. -/
def takeProperties : Read (Option Nat × Option String) := do
  match ← takeAnchor? with
  | some anchor => return (some anchor, ← takeTag?)
  | none =>
    match ← takeTag? with
    | some tag => return (← takeAnchor?, some tag)
    | none => return (none, none)

/-- A lone `!` says nothing about a scalar. -/
def scalarTag (tag : Option String) : Tag :=
  match tag with
  | some text => if text = "!" then .absent else .ofText text
  | none => .absent

/-- The tag of a collection, if it is given. -/
def collectionTag (tag : Option String) : Tag :=
  match tag with
  | some text => .ofText text
  | none => .absent

/-! ### Nodes -/

/-- Where a node stands: it may be a block collection, and a block sequence may stand at the
column of the mapping that holds it. -/
inductive Place where
  | flow
  | block
  | blockValue
deriving DecidableEq

/-- A node may have properties and no content. -/
def takeMissing (anchor : Option Nat) (tag : Option String) : Read Tree :=
  if anchor.isSome || tag.isSome then
    return .scalar anchor (collectionTag tag) .plain ""
  else fail "did not find expected node content"

/-- Reads a node unless one of the given tokens shows that it is empty. -/
def unlessEnded (ends : List Token) (take : Read Tree) : Read Tree := do
  if ends.contains (← peek) then return empty else take

mutual

/-- Reads a node. -/
def takeNode (fuel : Nat) (place : Place) : Read Tree :=
  match fuel with
  | 0 => fail "document is too large"
  | fuel + 1 => do
    if let .alias name := ← peek then
      advance
      match OrderedMap.get? (← get).anchors name with
      | some number => return .alias number
      | none => fail "unknown anchor"
    else
      let (anchor, tag) ← takeProperties
      match ← peek with
      | .scalar style text =>
        advance
        return .scalar anchor (scalarTag tag) style text
      | .blockEntry =>
        if place = .blockValue then
          return .sequence anchor (collectionTag tag) (← takeIndentless fuel)
        else takeMissing anchor tag
      | .flowSequenceStart =>
        advance
        return .sequence anchor (collectionTag tag) (← takeFlowSequence fuel true)
      | .flowMappingStart =>
        advance
        return .mapping anchor (collectionTag tag) (← takeFlowMapping fuel true)
      | .blockSequenceStart =>
        if place = .flow then takeMissing anchor tag
        else
          advance
          return .sequence anchor (collectionTag tag) (← takeBlockSequence fuel)
      | .blockMappingStart =>
        if place = .flow then takeMissing anchor tag
        else
          advance
          return .mapping anchor (collectionTag tag) (← takeBlockMapping fuel)
      | _ => takeMissing anchor tag

/-- Takes the items of a sequence that is a block. -/
def takeBlockSequence (fuel : Nat) : Read (List Tree) :=
  match fuel with
  | 0 => fail "document is too large"
  | fuel + 1 => do
    if ← accept .blockEntry then
      let item ← unlessEnded [.blockEntry, .blockEnd] (takeNode fuel .block)
      return item :: (← takeBlockSequence fuel)
    else if ← accept .blockEnd then return []
    else fail "did not find expected '-' indicator"

/-- Reads the entries of a sequence that has no indentation of its own. -/
def takeIndentless (fuel : Nat) : Read (List Tree) :=
  match fuel with
  | 0 => fail "document is too large"
  | fuel + 1 => do
    if ← accept .blockEntry then
      let item ← unlessEnded [.blockEntry, .key, .value, .blockEnd] (takeNode fuel .block)
      return item :: (← takeIndentless fuel)
    else return []

/-- Takes the entries of a mapping that is a block. -/
def takeBlockMapping (fuel : Nat) : Read (List (Tree × Tree)) :=
  match fuel with
  | 0 => fail "document is too large"
  | fuel + 1 => do
    if ← accept .key then
      let key ← unlessEnded [.key, .value, .blockEnd] (takeNode fuel .blockValue)
      let value ←
        if ← accept .value then unlessEnded [.key, .value, .blockEnd] (takeNode fuel .blockValue)
        else pure empty
      return (key, value) :: (← takeBlockMapping fuel)
    else if ← accept .blockEnd then return []
    else fail "did not find expected key"

/-- Reads the items of a flow sequence; `first` says that no item came before. -/
def takeFlowSequence (fuel : Nat) (first : Bool) : Read (List Tree) :=
  match fuel with
  | 0 => fail "document is too large"
  | fuel + 1 => do
    if ← accept .flowSequenceEnd then return []
    unless first do
      unless ← accept .flowEntry do fail "did not find expected ',' or ']'"
    if ← accept .flowSequenceEnd then return []
    else if ← accept .key then
      let pair ← takeFlowPair fuel
      return .mapping none .absent [pair] :: (← takeFlowSequence fuel false)
    else
      let item ← takeNode fuel .flow
      return item :: (← takeFlowSequence fuel false)

/-- Reads a pair that stands in a flow sequence. A token in place of its key is passed. -/
def takeFlowPair (fuel : Nat) : Read (Tree × Tree) :=
  match fuel with
  | 0 => fail "document is too large"
  | fuel + 1 => do
    let key ←
      if [Token.value, .flowEntry, .flowSequenceEnd].contains (← peek) then do
        advance
        pure empty
      else takeNode fuel .flow
    let value ←
      if ← accept .value then unlessEnded [.flowEntry, .flowSequenceEnd] (takeNode fuel .flow)
      else pure empty
    return (key, value)

/-- Reads the entries of a flow mapping; `first` says that no entry came before. -/
def takeFlowMapping (fuel : Nat) (first : Bool) : Read (List (Tree × Tree)) :=
  match fuel with
  | 0 => fail "document is too large"
  | fuel + 1 => do
    if ← accept .flowMappingEnd then return []
    unless first do
      unless ← accept .flowEntry do fail "did not find expected ',' or '\x7d'"
    if ← accept .flowMappingEnd then return []
    else if ← accept .key then
      let key ← unlessEnded [.value, .flowEntry, .flowMappingEnd] (takeNode fuel .flow)
      let value ←
        if ← accept .value then unlessEnded [.flowEntry, .flowMappingEnd] (takeNode fuel .flow)
        else pure empty
      return (key, value) :: (← takeFlowMapping fuel false)
    else
      let key ← takeNode fuel .flow
      return (key, empty) :: (← takeFlowMapping fuel false)

end

/-! ### Documents -/

/-- Reads the directives before a document; `versioned` says that its version was given. -/
def takeDirectives (versioned : Bool) (fuel : Nat) : Read Unit :=
  match fuel with
  | 0 => return
  | fuel + 1 => do
    match ← peek with
    | .version major minor =>
      if versioned then fail "found duplicate %YAML directive"
      unless major = 1 && (minor = 1 || minor = 2) do fail "found incompatible YAML document"
      advance
      takeDirectives true fuel
    | .tagDirective handle expansion =>
      if ((← get).handles.lookup handle).isSome then fail "found duplicate %TAG directive"
      modify fun reading => { reading with handles := (handle, expansion) :: reading.handles }
      advance
      takeDirectives versioned fuel
    | _ => return

/-- Whether a token shows that the start of the document is written out. -/
def opensDocument (token : Token) : Bool :=
  match token with
  | .version .. | .tagDirective .. | .documentStart => true
  | _ => false

/-- The handles that need no directive. -/
def standardHandles : List (String × String) := [("!", "!"), ("!!", Tag.standardStart)]

/-- Passes the marks after a document, behind which nothing may follow. -/
def takeEnd (fuel : Nat) : Read Unit :=
  match fuel with
  | 0 => return
  | fuel + 1 => do
    if ← accept .documentEnd then takeEnd fuel
    else unless (← peek) = .streamEnd do fail "found more than one document"

/-- Reads the one document of a text; a text without one is an empty node. At most two calls are
nested before a token is passed, so the fuel suffices. -/
def takeDocument : Read Tree := do
  let fuel := 4 * (← get).tokens.length + 4
  let opening ← peek
  if opening = .streamEnd then return empty
  takeDirectives false fuel
  modify fun reading => { reading with handles := reading.handles ++ standardHandles }
  let tree ←
    if opensDocument opening then do
      unless ← accept .documentStart do fail "did not find expected <document start>"
      unlessEnded [.documentStart, .documentEnd, .streamEnd] (takeNode fuel .block)
    else takeNode fuel .block
  takeEnd fuel
  return tree

/-- The tree of the document that tokens make. -/
def ofTokens (tokens : List Token) : Except Error Tree := do
  let (tree, _) ← takeDocument.run { tokens }
  return tree

end Tree

end ServiceForge.Yaml
