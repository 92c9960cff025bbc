/-
This file reads descriptors from documents and writes them.
-/

import ServiceForge.Descriptor.Basic
import ServiceForge.Document.Reader
import ServiceForge.Document.Writer

namespace ServiceForge

open ServiceForge.Document

namespace Descriptor

namespace AttributeType

/-- Reads the type of an attribute by its name. -/
def read : Reader AttributeType := Reader.choice (all.map fun type => (type.name, type))

/-- The name of the type of an attribute as JSON. -/
def toJson (type : AttributeType) : Json := .string type.name

end AttributeType

namespace Attribute

/-- Reads the description of an attribute, which has no other fields. -/
def read : Reader Attribute := fun mode value => do
  let fields ← Fields.ofClosed ["type", "format", "doc", "required"] mode value
  return {
    type := ← fields.required "type" AttributeType.read
    format := ← fields.optional "format" Reader.text
    doc := ← fields.optional "doc" Reader.text
    required := ← fields.flag "required" }

/-- The description of an attribute as a JSON object. -/
def toJson (described : Attribute) : Json :=
  .object
    ([("type", described.type.toJson)] ++
      Writer.text "format" described.format ++
      Writer.text "doc" described.doc ++
      Writer.whenSet "required" described.required)

end Attribute

/-- Reads the descriptor of a resource, which has no other fields. -/
def read : Reader Descriptor := fun mode value => do
  let fields ← Fields.ofClosed
    ["name", "doc", "resource_key", "resources_key", "attributes", "allow_list", "allow_fetch",
      "allow_create", "allow_delete", "allow_commit"]
    mode value
  return {
    name := ← fields.required "name" Reader.text
    doc := ← fields.optional "doc" Reader.text
    resourceKey := ← fields.optional "resource_key" Reader.text
    resourcesKey := ← fields.optional "resources_key" Reader.text
    attributes := ← fields.map "attributes" Attribute.read
    capabilities := {
      list := ← fields.flag "allow_list"
      fetch := ← fields.flag "allow_fetch"
      create := ← fields.flag "allow_create"
      delete := ← fields.flag "allow_delete"
      commit := ← fields.flag "allow_commit" } }

/-- The descriptor of a resource as a JSON object. -/
def toJson (descriptor : Descriptor) : Json :=
  .object
    ([("name", .string descriptor.name)] ++
      Writer.text "doc" descriptor.doc ++
      Writer.text "resource_key" descriptor.resourceKey ++
      Writer.text "resources_key" descriptor.resourcesKey ++
      [("attributes", .object (Writer.map Attribute.toJson descriptor.attributes)),
        ("allow_list", .bool descriptor.capabilities.list),
        ("allow_fetch", .bool descriptor.capabilities.fetch),
        ("allow_create", .bool descriptor.capabilities.create),
        ("allow_delete", .bool descriptor.capabilities.delete),
        ("allow_commit", .bool descriptor.capabilities.commit)])

end Descriptor

namespace DescriptorFile

/-- Reads a file of descriptors. -/
def read : Reader DescriptorFile := fun mode value => do
  let fields ← Fields.ofClosed ["resources"] mode value
  return { resources := ← fields.map "resources" Descriptor.read }

end DescriptorFile

end ServiceForge
