/-
This file holds the kinds of operations, named independently of HTTP.
-/

namespace ServiceForge

/-- What an operation does with a resource. A kind without a name here is named after the last
segment of its path. -/
inductive Kind where
  | list
  | listDetailed
  | showItem
  | create
  | update
  | replace
  | delete
  | deleteAll
  | action
  | get
  | download
  | upload
  | find
  | other (name : String)
deriving DecidableEq, Repr

namespace Kind

/-- The kinds with names of their own. -/
def known : List Kind :=
  [list, listDetailed, showItem, create, update, replace, delete, deleteAll, action, get, download,
    upload, find]

/-- The name of a kind. -/
def name : Kind → String
  | list => "list"
  | listDetailed => "list_detailed"
  | showItem => "show"
  | create => "create"
  | update => "update"
  | replace => "replace"
  | delete => "delete"
  | deleteAll => "delete_all"
  | action => "action"
  | get => "get"
  | download => "download"
  | upload => "upload"
  | find => "find"
  | other name => name

/-- The kind with a name, which may be another one than those that are known. -/
def ofName (text : String) : Kind := (known.find? (·.name = text)).getD (other text)

/-- Whether operations of this kind give a collection of resources. -/
def isList (kind : Kind) : Bool := kind = list || kind = listDetailed

end Kind

end ServiceForge
