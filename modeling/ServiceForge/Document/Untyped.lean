/-
This file reads a YAML document without a model, as a JSON document. Keys that
are numbers or truth values become text, tags that YAML does not define are
dropped, and a float that is not finite becomes null. No mapping may hold one key
twice.
-/

import ServiceForge.Document.Value

namespace ServiceForge.Document.Untyped

/-- A tag that is dropped has a name. -/
def checkNamed (tag : Yaml.Tag) : Except Error Unit :=
  if tag = .application "" then mismatch "empty tag" else return

/-- The typed value of a scalar. -/
def atom (tag : Yaml.Tag) (style : Yaml.Style) (text : String) : Except Error Atom := do
  checkNamed tag
  match tag with
  | .application _ => Atom.typed (.written .absent style text)
  | tag => Atom.typed (.written tag style text)

/-- A scalar as a JSON value, with its text if it has no type. -/
def jsonOfAtom : Atom → Json
  | .null => .null
  | .boolean value => .bool value
  | .number value => .number value
  | .nonFinite _ => .null
  | .string value => .string value
  | .written _ _ text => .string text

/-- A key keeps its type, which tells it from keys with the same text. -/
def key : Yaml.Node → Except Error Atom
  | .scalar (.application _) _ _ => mismatch "unsupported mapping key"
  | .scalar tag style text => atom tag style text
  | _ => mismatch "unsupported mapping key"

/-- The text that a scalar is turned into where it is a key. -/
def keyText : Atom → Except Error String
  | .boolean value => return if value then "true" else "false"
  | .number value => return value.text .none
  | .nonFinite value => return value.text
  | .string value => return value
  | _ => mismatch "unsupported mapping key"

/-- Whether two scalars are the same key. -/
def sameKey : Atom → Atom → Bool
  | .boolean left, .boolean right => left == right
  | .number left, .number right => left.equal right
  | .nonFinite left, .nonFinite right => left = right
  | .string left, .string right => left == right
  | _, _ => false

/-- Whether no key stands twice in a list. -/
def areDistinct : List Atom → Bool
  | [] => true
  | key :: rest => !rest.any (sameKey key) && areDistinct rest

mutual

/-- The JSON value of a node. Only tags that have a name may stand at its collections. -/
def ofNode : Yaml.Node → Except Error Json
  | .scalar tag style text => return jsonOfAtom (← atom tag style text)
  | .sequence tag items => do
    checkNamed tag
    return .array (← ofItems items)
  | .mapping tag entries => do
    checkNamed tag
    let entries ← ofEntries entries
    unless areDistinct (entries.map Prod.fst) do mismatch "duplicate entry"
    let members ← entries.mapM fun entry => do return (← keyText entry.1, entry.2)
    return .object (OrderedMap.ofEntries members)

/-- The JSON values of the nodes of a sequence. -/
def ofItems : List Yaml.Node → Except Error (List Json)
  | [] => return []
  | item :: rest => return (← ofNode item) :: (← ofItems rest)

/-- The keys and the JSON values of the nodes of a mapping. -/
def ofEntries : List (Yaml.Node × Yaml.Node) → Except Error (List (Atom × Json))
  | [] => return []
  | (name, value) :: rest => return (← key name, ← ofNode value) :: (← ofEntries rest)

end

/-- The JSON document that a YAML text stands for. -/
def ofText (text : String) : Except Error Json :=
  match Yaml.Node.ofText text with
  | .ok node => ofNode node
  | .error error => throw (.syntaxError error)

end ServiceForge.Document.Untyped
