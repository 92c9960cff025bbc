/-
This file holds the verbs with which the command line and the automation of the
cloud act on resources, and the options that each verb takes.
-/

import ServiceForge.Descriptor.Basic
import ServiceForge.Naming

namespace ServiceForge.Descriptor

/-- What can be done with a resource. -/
inductive Verb where
  | list
  | showItem
  | create
  | delete
  | set
  | unset
deriving DecidableEq, Repr

/-- One option of a verb. -/
structure VerbOption where
  name : String
  described : Attribute
  required : Bool := false
  /-- The option is a flag that clears the attribute. -/
  clears : Bool := false
deriving DecidableEq, Repr

namespace VerbOption

/-- The flag that an option is given by on a command line. -/
def flag (option : VerbOption) : String := "--" ++ Naming.kebab option.name

/-- The name under which the value of the option is found. -/
def destination (option : VerbOption) : String := Naming.moduleName option.name

end VerbOption

namespace Verb

/-- All verbs, in the order in which they are generated. -/
def all : List Verb := [list, showItem, create, delete, set, unset]

/-- The name of a verb. -/
def name : Verb → String
  | list => "list"
  | showItem => "show"
  | create => "create"
  | delete => "delete"
  | set => "set"
  | unset => "unset"

/-- Whether the capabilities of a resource allow a verb. -/
def isAllowed (capabilities : Capabilities) : Verb → Bool
  | list => capabilities.list
  | showItem => capabilities.fetch
  | create => capabilities.create
  | delete => capabilities.delete
  | set | unset => capabilities.commit

/-- The verbs that a resource allows. -/
def allowed (descriptor : Descriptor) : List Verb :=
  all.filter (isAllowed descriptor.capabilities)

/-- Whether a verb names a resource that exists. -/
def targetsExisting (verb : Verb) : Bool := verb ≠ list && verb ≠ create

/-- The option that a verb has for an attribute. A list is filtered by scalars, required
attributes cannot be cleared. -/
def option? (verb : Verb) (name : String) (described : Attribute) : Option VerbOption :=
  match verb with
  | list => if described.type.isScalar then some { name, described } else none
  | create => some { name, described, required := described.required }
  | set => some { name, described }
  | unset => if described.required then none else some { name, described, clears := true }
  | showItem | delete => none

/-- The options of a verb, for the attributes that a client may send. -/
def options (verb : Verb) (descriptor : Descriptor) : List VerbOption :=
  (descriptor.attributes.filter fun entry => !isServerAssigned entry.1).filterMap
    fun (name, described) => verb.option? name described

end Verb

end ServiceForge.Descriptor
