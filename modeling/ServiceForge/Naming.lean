/-
This file derives the identifiers of the generated sources from the names of an
API: bindings, type names, module names and flags, plural and singular nouns, and
the suffix that tells the variants of an operation apart.
-/

import ServiceForge.Text.Words

namespace ServiceForge.Naming

open ServiceForge.Text

/-- The words that the generated client library may not use as a name. -/
def keywords : List String :=
  ["abstract", "as", "async", "await", "become", "box", "break", "const", "continue", "crate",
    "do", "dyn", "else", "enum", "extern", "false", "final", "fn", "for", "gen", "if", "impl",
    "in", "let", "loop", "macro", "match", "mod", "move", "mut", "override", "priv", "pub", "ref",
    "return", "self", "Self", "static", "struct", "super", "trait", "true", "try", "type",
    "typeof", "unsafe", "unsized", "use", "virtual", "where", "while", "yield"]

/-- Whether a name is a keyword of the generated language. -/
def isKeyword (name : String) : Bool := keywords.contains name

/-- Whether a name starts with a digit. -/
def startsWithDigit (name : String) : Bool := name.toList.head?.any Char.isDigit

/-- The binding of a property or parameter, marked when it would start with a digit or be a
keyword. -/
def fieldName (wireName : String) : String :=
  let name := snakeCase wireName
  if name.isEmpty then "_value"
  else if startsWithDigit name || isKeyword name then "_" ++ name
  else name

/-- The name of a type (`flavor_ref` is `FlavorRef`). -/
def typeName (hint : String) : String :=
  let name := camelCase hint
  if name.isEmpty then "Value"
  else if startsWithDigit name then "V" ++ name
  else name

/-- The name of a module and of its file (`os-interfaces` is `os_interfaces`). -/
def moduleName (segment : String) : String := snakeCase segment

/-- A module name where a keyword needs a mark. -/
def moduleIdentifier (name : String) : String := if isKeyword name then "r#" ++ name else name

/-- The name of a command line flag. -/
def kebab (name : String) : String := kebabCase name

/-- The plural of a noun: a final `y` becomes `ies`, any other noun takes `s`. -/
def pluralize (noun : String) : String :=
  match beforeEnd? "y" noun with
  | some stem => stem ++ "ies"
  | none => noun ++ "s"

/-- The singular of a plural noun, as far as its ending shows it. -/
def singularize (noun : String) : String :=
  match beforeEnd? "ies" noun with
  | some stem => stem ++ "y"
  | none =>
    if ["sses", "xes", "ches", "shes", "uses"].any (endsWith · noun) then
      String.ofList (noun.toList.take (noun.toList.length - 2))
    else if endsWith "ss" noun then noun
    else (beforeEnd? "s" noun).getD noun

/-- The letters and digits of a version (`2.19` is `219`). -/
def versionSuffix (version : String) : String :=
  String.ofList (version.toList.filter Char.isAlphanum)

end ServiceForge.Naming
