/-
This file holds the modules that automate a cloud, and the documentation from
which a module and its argument specification are written.
-/

import ServiceForge.Descriptor.Document
import ServiceForge.Generation.Resource

namespace ServiceForge.Ansible

open ServiceForge.Descriptor (AttributeType Verb VerbOption)
open ServiceForge.Document
open ServiceForge.Generation
open ServiceForge.Text

/-! ### Modules -/

/-- A module: one verb on one resource. -/
structure Module where
  descriptor : Descriptor
  service : String
  resource : String
  plural : String
  verb : Verb

namespace Module

/-- The module for one verb of a requested resource. -/
def ofRequest (request : ResourceRequest) (verb : Verb) : Module :=
  { descriptor := request.descriptor
    service := request.serviceModule
    resource := request.resourceModule
    plural := request.plural
    verb }

/-- The options that the verb of the module takes. -/
def options (module : Module) : List VerbOption := module.verb.options module.descriptor

/-- The name of the module, which begins with its service and ends with its verb. -/
def name (module : Module) : String :=
  module.service ++ "_" ++ module.resource ++ "_" ++ module.verb.name

/-- The name of the class that implements the module. -/
def className (module : Module) : String := Naming.typeName module.name ++ "Module"

/-- What the module does, in one line. -/
def shortDescription (module : Module) : String :=
  let noun := spaced module.resource
  match module.verb with
  | .list => "List " ++ spaced module.plural
  | .showItem => "Fetch one " ++ noun
  | .create => "Create a " ++ noun
  | .delete => "Delete a " ++ noun
  | .set => "Update " ++ noun ++ " attributes"
  | .unset => "Clear " ++ noun ++ " attributes"

/-- The name under which a module returns its result. -/
def returnKey? (module : Module) : Option String :=
  match module.verb with
  | .list => some module.plural
  | .delete => none
  | _ => some module.resource

end Module

/-! ### Documentation -/

/-- What is said about one option. -/
structure OptionDoc where
  description : String
  type : AttributeType
  required : Bool := false
deriving DecidableEq, Repr

namespace OptionDoc

/-- The type of the elements of a list. -/
def elements? (doc : OptionDoc) : Option String := if doc.type = .list then some "str" else none

/-- How an option is documented: a flag if it clears an attribute, or else with its type. -/
def ofOption (option : VerbOption) : OptionDoc :=
  if option.clears then
    { description := "Clear C(" ++ option.name ++ ")."
      type := .boolean
      required := option.required }
  else
    { description :=
        ((summaryLine? option.described.doc).getD ("Value of C(" ++ option.name ++ ")")) ++ "."
      type := option.described.type
      required := option.required }

/-- The description of an option as a JSON object. -/
def toJson (doc : OptionDoc) : Json :=
  .object
    ([("description", Writer.texts [doc.description]), ("type", doc.type.toJson)] ++
      Writer.whenSet "required" doc.required ++
      Writer.text "elements" doc.elements?)

end OptionDoc

namespace Module

/-- The option that names the resource to act on. -/
def targetOptions (module : Module) : OrderedMap OptionDoc :=
  if module.verb.targetsExisting then
    [("name_or_id", {
      description := "Name or ID of the " ++ spaced module.resource ++ "."
      type := .text
      required := true })]
  else []

/-- The documented options. An attribute with the name of the option before it takes its place. -/
def optionDocs (module : Module) : OrderedMap OptionDoc :=
  module.options.foldl (fun docs option => docs.insert option.name (.ofOption option))
    module.targetOptions

/-- What the module is documented to do. -/
def description (module : Module) : String :=
  match (module.descriptor.doc.map trim).filter fun doc => !doc.isEmpty with
  | some doc => doc
  | none => module.shortDescription ++ "."

/-- The documentation block of the module. -/
def documentation (module : Module) : Json :=
  .object [
    ("module", .string module.name),
    ("short_description", .string module.shortDescription),
    ("description", Writer.texts [module.description]),
    ("options", .object (Writer.map OptionDoc.toJson module.optionDocs))]

end Module

end ServiceForge.Ansible
