/-
This file holds descriptors, which describe a class of resources apart from any
OpenAPI document: the attributes of a resource and what can be done with it.
-/

import ServiceForge.GenerationError
import ServiceForge.Kind
import ServiceForge.OrderedMap
import ServiceForge.Text.Basic

namespace ServiceForge

namespace Descriptor

/-- The types of attributes; a raw attribute holds any value. -/
inductive AttributeType where
  | text
  | integer
  | float
  | boolean
  | list
  | dictionary
  | raw
deriving DecidableEq, Repr

namespace AttributeType

/-- All types of attributes. -/
def all : List AttributeType := [text, integer, float, boolean, list, dictionary, raw]

/-- The name that a type is written by. -/
def name : AttributeType → String
  | text => "str"
  | integer => "int"
  | float => "float"
  | boolean => "bool"
  | list => "list"
  | dictionary => "dict"
  | raw => "raw"

/-- Whether values of a type are single texts, numbers or flags. -/
def isScalar (type : AttributeType) : Bool := [text, integer, float, boolean].contains type

end AttributeType

/-- An attribute of a resource, as it is described. -/
structure Attribute where
  type : AttributeType
  format : Option String := none
  doc : Option String := none
  required : Bool := false
deriving DecidableEq, Repr

/-- Whether the server gives an attribute its value, so that no client sends it. -/
def isServerAssigned (name : String) : Bool :=
  ["id", "status", "trunk_details"].contains name || Text.endsWith "_at" name

/-- What can be done with the resources of a class. -/
structure Capabilities where
  list : Bool := false
  fetch : Bool := false
  create : Bool := false
  delete : Bool := false
  commit : Bool := false
deriving DecidableEq, Repr

namespace Capabilities

/-- Adds the capability that an operation of the given kind gives. -/
def enable (capabilities : Capabilities) : Kind → Capabilities
  | .list | .listDetailed => { capabilities with list := true }
  | .showItem => { capabilities with fetch := true }
  | .create => { capabilities with create := true }
  | .delete => { capabilities with delete := true }
  | .update => { capabilities with commit := true }
  | _ => capabilities

end Capabilities

end Descriptor

/-- A class of resources. -/
structure Descriptor where
  name : String
  doc : Option String := none
  resourceKey : Option String := none
  resourcesKey : Option String := none
  attributes : OrderedMap Descriptor.Attribute := []
  capabilities : Descriptor.Capabilities := {}
deriving Repr

/-- Descriptors by the names of their classes. -/
structure DescriptorFile where
  resources : OrderedMap Descriptor := []
deriving Repr

namespace Descriptor

/-- Adds the capabilities that operations of the given kinds give. -/
def withCapabilities (descriptor : Descriptor) (kinds : List Kind) : Descriptor :=
  { descriptor with capabilities := kinds.foldl Capabilities.enable descriptor.capabilities }

end Descriptor

/-- The descriptor of a class. -/
def DescriptorFile.find (file : DescriptorFile) (className : String) :
    Except GenerationError Descriptor :=
  match file.resources.get? className with
  | some descriptor => return descriptor
  | none => throw (.missingDescriptor className)

end ServiceForge
