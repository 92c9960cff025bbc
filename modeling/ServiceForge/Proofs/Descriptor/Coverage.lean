/-
This file compares the attributes of a resource with the columns that a command shows of it. Both
come from the schema of the resource in the response. The columns are the properties of the schema
and of its parts, but the attributes are those of the schema alone, so they come first among the
columns and are all of them exactly if the parts define no others.
-/

import ServiceForge.Descriptor.Derivation
import ServiceForge.Proofs.Cli.Wrapping
import ServiceForge.Proofs.Lowering.Fields

namespace ServiceForge.Lowering

open ServiceForge.OpenApi (Schema)

/-! ### Names in layers -/

/-- The names of the first layer come first. -/
theorem definedNames_cons {schema : Schema} (keyed : schema.Keyed) (others : List Schema) :
    definedNames (schema :: others) = OrderedMap.keys schema.properties ++
      ((OrderedMap.keys (definitions others)).removeAll
        (OrderedMap.keys schema.properties)).eraseDups := by
  have names : OrderedMap.keys (definitions (schema :: others)) =
      OrderedMap.keys schema.properties ++ OrderedMap.keys (definitions others) := by
    rw [← List.singleton_append, definitions_append, definitions_singleton]
    exact List.map_append
  have distinct := (OpenApi.Schema.keyed_iff.mp keyed).1.properties
  rw [definedNames, names, List.eraseDups_append, eraseDups_of_nodup distinct]

theorem keys_eq_definedNames_iff {schema : Schema} (keyed : schema.Keyed) {others : List Schema} :
    OrderedMap.keys schema.properties = definedNames (schema :: others) ↔
      ∀ layer ∈ others, ∀ name ∈ OrderedMap.keys layer.properties,
        name ∈ OrderedMap.keys schema.properties := by
  have held (name : String) : name ∈ OrderedMap.keys (definitions others) ↔
      ∃ layer ∈ others, name ∈ OrderedMap.keys layer.properties := by
    rw [OrderedMap.keys, definitions, List.map_flatMap, List.mem_flatMap]
    rfl
  rw [definedNames_cons keyed, List.self_eq_append_right, List.eq_nil_iff_forall_not_mem]
  simp only [List.mem_eraseDups, List.removeAll, List.mem_filter, held]
  constructor
  · intro none layer member name isName
    by_contra new
    exact none name ⟨⟨layer, member, isName⟩, by simpa using new⟩
  · rintro all name ⟨⟨layer, member, isName⟩, new⟩
    simp [all layer member name isName] at new

end ServiceForge.Lowering

namespace ServiceForge.Resource

open ServiceForge.OpenApi (Schema)

theorem mem_of_wrapper? {schema inner : Schema} {leaf name : String}
    (wrapped : wrapper? schema leaf = some (name, inner)) : (name, inner) ∈ schema.properties := by
  unfold wrapper? at wrapped
  split at wrapped
  · next property found =>
    cases wrapped
    exact List.mem_of_find?_eq_some found
  · simp only at wrapped
    split at wrapped
    · next property single =>
      cases wrapped
      exact (List.mem_filter.mp (single ▸ List.mem_singleton_self _)).1
    · cases wrapped

/-- The schema of a resource stands in the payload. -/
theorem holds_locate (payload : Schema) (leaf : String) :
    payload.Holds (locate payload leaf).schema := by
  have unwrapped {schema inner : Schema} {name : String} (held : payload.Holds schema)
      (wrapped : wrapper? schema leaf = some (name, inner)) : payload.Holds inner :=
    held.tail (Schema.mem_parts.mpr (Or.inr (Or.inl ⟨_, mem_of_wrapper? wrapped, rfl⟩)))
  unfold locate
  split
  next schema key start =>
  have begun : payload.Holds schema := by
    split at start
    · next wrapped =>
      cases start
      exact unwrapped .refl wrapped
    · cases start
      exact .refl
  split
  · exact begun
  split
  · exact begun
  · next items isItems =>
    have inside := begun.tail (Schema.mem_parts.mpr (Or.inl isItems))
    split
    · next wrapped =>
      split
      · exact unwrapped inside wrapped
      · exact inside
    · exact inside

theorem keyed_locate {payload : Schema} (keyed : payload.Keyed) (leaf : String) :
    (locate payload leaf).schema.Keyed :=
  fun inner held => keyed inner ((holds_locate payload leaf).trans held)

end ServiceForge.Resource

namespace ServiceForge.Cli

open ServiceForge.Generation
open ServiceForge.Lowering (Field MergeOrder State definedNames run_bind_eq_ok)
open ServiceForge.OpenApi (Schema)

/-- The names of the columns of the output, as the service spells them. -/
def Context.columns (context : Context) : List String :=
  context.responseFields.map Field.wireName

/-- The columns of a response are the properties of the resource in it, those of its parts
included. -/
theorem wireNames_of_lowerResponse {request : OperationRequest} {shape : Shape} {payload : Schema}
    {fields : List Field} {state after : State}
    (components : ∀ name target, request.spec.schema? name = some target → target.Keyed)
    (keyed : payload.Keyed) (shows : shape ≠ .headerOnly)
    (ran : lowerResponse request shape (some payload) state = (.ok fields, after)) :
    ∃ layers, MergeOrder request.spec (Resource.locate payload (leaf request)).schema layers ∧
      fields.map Field.wireName = definedNames layers := by
  have located := Resource.keyed_locate keyed (leaf request)
  unfold lowerResponse at ran
  simp only [shows, if_false] at ran
  split at ran
  · cases ran
  · obtain ⟨own, middle, lowered, returned⟩ := run_bind_eq_ok.mp ran
    cases returned
    obtain ⟨layers, whole, types, isLayers, combines, -, names, -⟩ :=
      Lowering.exists_layers_of_lowerFields components located lowered
    have all : Lowering.settable ⟨request.spec, .cli⟩ whole.properties = whole.properties :=
      List.filter_eq_self.mpr fun property _ => rfl
    rw [all, combines.names] at names
    refine ⟨layers, isLayers, ?_⟩
    rw [List.map_map, ← names]
    rfl

end ServiceForge.Cli

namespace ServiceForge.Descriptor

open ServiceForge.Generation (OperationRequest responseSchema?)
open ServiceForge.Lowering (MergeOrder definedNames definedNames_cons keys_eq_definedNames_iff)
open ServiceForge.OpenApi (PathItem PlacedOperation Schema Spec)

/-! ### Attributes -/

/-- The attributes are the properties of the schema itself. -/
theorem keys_attributes {name : String} {schema : Schema} {descriptor : Descriptor}
    (derived : ofSchema name schema = .ok descriptor) :
    descriptor.attributes.keys = OrderedMap.keys schema.properties := by
  obtain ⟨attributes, each, returned⟩ := bind_eq_ok.mp derived
  cases returned
  refine map_eq_map_of_mapM (fun {property result} made => ?_) each
  obtain ⟨described, -, returned⟩ := bind_eq_ok.mp made
  cases returned
  rfl

theorem keys_attributes_of_ofOperation {spec : Spec} {operation leaf : String}
    {placed : PlacedOperation} {payload : Schema} {descriptor : Descriptor}
    (found : OperationRequest.find spec operation = .ok placed)
    (responds : responseSchema? placed = some payload)
    (derived : ofOperation spec operation leaf = .ok descriptor) :
    descriptor.attributes.keys =
      OrderedMap.keys (Resource.locate payload leaf).schema.properties := by
  unfold ofOperation at derived
  obtain ⟨other, same, derived⟩ := bind_eq_ok.mp derived
  cases found.symm.trans same
  rw [responds] at derived
  simp only [Option.map_some] at derived
  split at derived
  · obtain ⟨own, made, returned⟩ := bind_eq_ok.mp derived
    cases returned
    exact (keys_attributes made :)
  · cases derived

section Coverage

variable {request : OperationRequest} {placed : PlacedOperation} {payload : Schema}
  {descriptor : Descriptor} {sdkCrate : String} {tools : List Cli.Context} {tool : Cli.Context}

/-- The attributes of a resource that an operation shows, and the columns of a command for one
record of it. The attributes are the columns exactly if the properties of the schema that the
resource is found in are those that the layers of the schema for the command define. The two are
found under the name of the resource and its name as a module; where they are the same, the
attributes come first among the columns, and are all of them exactly if no part of the schema
defines a property of its own. -/
theorem attributes_eq_columns_iff
    (components : ∀ name target, request.spec.schema? name = some target → target.Keyed)
    (found : request.placed = .ok placed) (responds : responseSchema? placed = some payload)
    (keyed : payload.Keyed)
    (derived : ofOperation request.spec request.operation request.resource.leaf = .ok descriptor)
    (made : Cli.contexts sdkCrate request = .ok tools) (member : tool ∈ tools)
    (single : tool.shape = .single) :
    ∃ layers,
      MergeOrder request.spec (Resource.locate payload (Cli.leaf request)).schema layers ∧
        let shown := (Resource.locate payload request.resource.leaf).schema
        (descriptor.attributes.keys = tool.columns ↔
          OrderedMap.keys shown.properties = definedNames layers) ∧
        (shown = (Resource.locate payload (Cli.leaf request)).schema →
          descriptor.attributes.keys <+: tool.columns ∧
          (descriptor.attributes.keys = tool.columns ↔
            ∀ layer ∈ layers, ∀ name ∈ OrderedMap.keys layer.properties,
              name ∈ OrderedMap.keys shown.properties)) := by
  have attributes := keys_attributes_of_ofOperation found responds derived
  rw [Cli.contexts_of_placed found rfl] at made
  obtain ⟨media, -, made⟩ := bind_eq_ok.mp made
  obtain ⟨variant, -, given⟩ := (mem_mapM made).mp member
  obtain ⟨after, answered⟩ := (Cli.made_of_ofVariant given).answered
  rw [responds] at answered
  have shows : tool.shape ≠ .headerOnly := by
    rw [single]
    decide
  obtain ⟨layers, isLayers, columns⟩ :=
    Cli.wireNames_of_lowerResponse components keyed shows answered
  have columns : tool.columns = definedNames layers := columns
  refine ⟨layers, isLayers, ?_⟩
  simp only
  rw [attributes, columns]
  refine ⟨Iff.rfl, fun same => ?_⟩
  rw [same]
  have located := Resource.keyed_locate keyed (Cli.leaf request)
  cases isLayers with
  | @mk _ others _ =>
    rw [keys_eq_definedNames_iff located, List.forall_mem_cons, definedNames_cons located]
    exact ⟨List.prefix_append _ _, fun all => ⟨fun _ isName => isName, all⟩, And.right⟩

end Coverage

/-! ### A resource with parts -/

/-- An object that holds a port. -/
def portPayload (port : Schema) : Schema where
  type := some (.single "object")
  properties := [("port", port)]

/-- The operation that shows a port. -/
def showPort (port : Schema) : OpenApi.Operation where
  id := some "show"
  responses := [("200", {
    description := some "Shown"
    content := [(OpenApi.MediaType.json, { schema := some (portPayload port) })] })]

/-- A request for that operation. -/
def portRequest (port : Schema) : OperationRequest where
  spec := {
    version := "3.1.0"
    paths := [("/v2/ports/\x7bport_id\x7d", PathItem.setOperation {} .get (showPort port))] }
  resource := ⟨"network", "ports"⟩
  operation := "show"

/-- A port with tags, which a part describes again. -/
def describedPort : Schema where
  type := some (.single "object")
  properties := [("id", .ofType "string"), ("tags", {})]
  allOf := [{ properties := [("tags", .ofType "array")] }]

theorem describedPort_keyed : describedPort.Keyed := by
  have scalar := Schema.keyed_ofType
  have free : Schema.Keyed {} := .of_parts ⟨by decide, nofun, nofun, rfl⟩ nofun
  have part : Schema.Keyed { properties := [("tags", .ofType "array")] } :=
    .of_parts ⟨by decide, nofun, nofun, rfl⟩ (List.forall_mem_singleton.mpr (scalar _))
  exact .of_parts ⟨by decide, nofun, nofun, rfl⟩ (List.forall_mem_cons.mpr ⟨scalar _,
    List.forall_mem_cons.mpr ⟨free, List.forall_mem_singleton.mpr part⟩⟩)

/-- The operation in its place. -/
def placedPort (port : Schema) : PlacedOperation where
  path := "/v2/ports/\x7bport_id\x7d"
  method := .get
  item := PathItem.setOperation {} .get (showPort port)
  operation := showPort port

theorem placed_portRequest (port : Schema) :
    (portRequest port).placed = .ok (placedPort port) := rfl

theorem responseSchema?_placedPort (port : Schema) :
    responseSchema? (placedPort port) = some (portPayload port) := by
  have success : Text.startsWith "2" "200" = true := by decide
  have json : Generation.isJson OpenApi.MediaType.json = true := by simp [Generation.isJson]
  simp [responseSchema?, placedPort, showPort, OpenApi.Operation.success?, Generation.jsonMedia?,
    success, json]

/-- The port is found in the object that holds it. -/
theorem locate_describedPort :
    (Resource.locate (portPayload describedPort) (portRequest describedPort).resource.leaf).schema =
      describedPort := by
  have key : (Resource.wrapper? (portPayload describedPort)
      (portRequest describedPort).resource.leaf).map Prod.fst = some "port" := by decide +kernel
  obtain ⟨⟨name, inner⟩, wrapped, -⟩ := Option.map_eq_some_iff.mp key
  cases List.mem_singleton.mp (Resource.mem_of_wrapper? wrapped)
  unfold Resource.locate
  rw [wrapped]
  rfl

theorem attributes_eq_columns_iff_port :
    ∃ descriptor tool,
      ofOperation (portRequest describedPort).spec "show"
          (portRequest describedPort).resource.leaf = .ok descriptor ∧
        Cli.contexts Cli.defaultSdkCrate (portRequest describedPort) = .ok [tool] ∧
        tool.shape = .single ∧ descriptor.attributes.keys = tool.columns := by
  have derives : (ofOperation (portRequest describedPort).spec "show"
      (portRequest describedPort).resource.leaf).toOption.isSome = true := by decide +kernel
  have makes : (Cli.contexts Cli.defaultSdkCrate (portRequest describedPort)).toOption.map
      (List.map Cli.Context.shape) = some [.single] := by decide +kernel
  obtain ⟨descriptor, derived⟩ := Option.isSome_iff_exists.mp derives
  obtain ⟨tools, made, shapes⟩ := Option.map_eq_some_iff.mp makes
  obtain ⟨tool, rfl, single⟩ := List.map_eq_singleton_iff.mp shapes
  have derived := toOption_eq_some.mp derived
  have made := toOption_eq_some.mp made
  have components (name : String) (target : Schema)
      (found : (portRequest describedPort).spec.schema? name = some target) : target.Keyed := by
    cases found
  have keyed : (portPayload describedPort).Keyed :=
    .of_parts ⟨by decide, nofun, nofun, rfl⟩ (List.forall_mem_singleton.mpr describedPort_keyed)
  have leaf : Cli.leaf (portRequest describedPort) = (portRequest describedPort).resource.leaf := by
    decide +kernel
  obtain ⟨layers, isLayers, -, same⟩ := attributes_eq_columns_iff components
    (placed_portRequest describedPort) (responseSchema?_placedPort describedPort) keyed derived made
    (List.mem_singleton_self tool) single
  rw [leaf, locate_describedPort] at isLayers same
  cases isLayers.unique (.mk (.cons rfl (.mk .nil) .nil))
  refine ⟨descriptor, tool, derived, made, single, (same rfl).2.mpr ?_⟩
  decide +kernel

/-- A port that has tags from a part. -/
def taggedPort : Schema where
  type := some (.single "object")
  properties := [("id", .ofType "string")]
  allOf := [{ properties := [("tags", .ofType "array")] }]

/-- The attributes of a port, and the shapes and columns of the commands that show it. -/
def portNames (port : Schema) : Option (List String × List (Cli.Shape × List String)) := do
  let request := portRequest port
  let descriptor ←
    (ofOperation request.spec request.operation request.resource.leaf).toOption
  let tools ← (Cli.contexts Cli.defaultSdkCrate request).toOption
  return (descriptor.attributes.keys, tools.map fun tool => (tool.shape, tool.columns))

/-- What only a part defines is a column and no attribute. -/
theorem attributes_miss_columns :
    portNames taggedPort = some (["id"], [(.single, ["id", "tags"])]) := by
  decide +kernel

end ServiceForge.Descriptor
