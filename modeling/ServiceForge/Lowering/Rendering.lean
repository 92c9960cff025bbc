/-
This file tells which types borrow text and writes types in the generated
sources. A declared type borrows when one of its members does, through any number
of other declared types.
-/

import ServiceForge.Lowering.State

namespace ServiceForge.Lowering

/-! ### Borrowing -/

/-- A search for borrowed text: whether it was found, and the names of the declared types that were
entered, given those that were entered before. -/
abbrev Search := List String → Bool × List String

namespace ValueType

/-- Searches a type, where a name is searched as given. -/
def search (enter : String → Search) : ValueType → Search
  | text, entered => (true, entered)
  | list inner, entered => search enter inner entered
  | commaSeparated inner, entered => search enter inner entered
  | map inner, entered => search enter inner entered
  | optional inner, entered => search enter inner entered
  | boxed inner, entered => search enter inner entered
  | named name, entered => enter name entered
  | _, entered => (false, entered)

end ValueType

/-- Searches types one after another up to the first with borrowed text. -/
def searchTypes (enter : String → Search) : List ValueType → Search
  | [], entered => (false, entered)
  | type :: rest, entered =>
    match type.search enter entered with
    | (true, entered) => (true, entered)
    | (false, entered) => searchTypes enter rest entered

/-- The types of a generated source: their dialect and what is declared. -/
structure Types where
  dialect : Dialect
  subtypes : List Subtype := []

namespace Types

/-- The types that a lowering has declared so far. -/
def ofState (context : Context) (state : State) : Types := ⟨context.dialect, state.subtypes⟩

/-- The type that is declared under a name. -/
def subtype? (types : Types) (name : String) : Option Subtype :=
  types.subtypes.find? (·.name = name)

/-- Searches the type declared under a name, and the types declared in it to some depth. No type is
entered twice, so the depth never exceeds their number by more than one. -/
def enterWithin (types : Types) : Nat → String → Search
  | 0, _, entered => (false, entered)
  | depth + 1, name, entered =>
    if entered.contains name then (false, entered)
    else
      match types.subtype? name with
      | none => (false, name :: entered)
      | some subtype =>
        searchTypes (enterWithin types depth) subtype.memberTypes (name :: entered)

/-- Searches the types declared under a name, to every depth. -/
def enter (types : Types) : String → Search := types.enterWithin (types.subtypes.length + 1)

/-- Whether values of a type borrow. Only the requests of the client library do. -/
def borrows (types : Types) (type : ValueType) : Bool :=
  types.dialect = .sdk && (type.search types.enter []).1

/-- Whether values of a declared type borrow: the search begins with its members. -/
def subtypeBorrows (types : Types) (subtype : Subtype) : Bool :=
  types.dialect = .sdk && (searchTypes types.enter subtype.memberTypes []).1

/-! ### Type expressions -/

/-- The text type of a dialect. -/
def renderText : Dialect → String
  | .sdk => "Cow<'a, str>"
  | _ => "String"

/-- The type of dates with times of a dialect. -/
def renderDateTime : Dialect → String
  | .cli => "String"
  | _ => "DateTime<Utc>"

/-- The type of lists in one text of a dialect. -/
def renderCommaSeparated (item : String) : Dialect → String
  | .sdk => "CommaSeparatedList<" ++ item ++ ">"
  | _ => "Vec<" ++ item ++ ">"

/-- The map type of a dialect. -/
def renderMap (value : String) : Dialect → String
  | .cliRequest => "Vec<(String, " ++ value ++ ")>"
  | _ => "BTreeMap<String, " ++ value ++ ">"

/-- The text of a type. A declared type that borrows carries a lifetime. -/
def render (types : Types) : ValueType → String
  | .text => renderText types.dialect
  | .dateTime => renderDateTime types.dialect
  | .int32 => "i32"
  | .int64 => "i64"
  | .float32 => "f32"
  | .float64 => "f64"
  | .boolean => "bool"
  | .json => "Value"
  | .list item => "Vec<" ++ render types item ++ ">"
  | .commaSeparated item => renderCommaSeparated (render types item) types.dialect
  | .map value => renderMap (render types value) types.dialect
  | .optional inner => "Option<" ++ render types inner ++ ">"
  | .boxed inner => "Box<" ++ render types inner ++ ">"
  | .named name => if types.borrows (.named name) then name ++ "<'a>" else name

end Types

end ServiceForge.Lowering
