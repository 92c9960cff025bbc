/-
This file proves which route maps have a document that is loaded as it was made: those in whose
schemas no default is null. A float that is not finite is read as such a default. It is written as
null, which stands for no default where the document is loaded.
-/

import ServiceForge.Proofs.Document.Untyped
import ServiceForge.Proofs.Route.Settled
import ServiceForge.Route.Document

namespace ServiceForge.Route

open ServiceForge.OpenApi

/-! ### Schemas of several routes -/

theorem defaultsToNull_of_isBranch {acting : Bool} {entry : Route × Schema} {branch : Schema}
    (isBranch : IsBranch acting entry branch) :
    branch.DefaultsToNull ↔ entry.2.DefaultsToNull := by
  rw [isBranch.same, Schema.defaultsToNull_iff, Schema.defaultsToNull_iff]
  rfl

theorem defaultsToNull_union {branches : List Schema} {discriminator : String} :
    (union branches discriminator).DefaultsToNull ↔ ∃ branch ∈ branches, branch.DefaultsToNull := by
  rw [Schema.defaultsToNull_iff, parts_union]
  exact or_iff_right nofun

theorem defaultsToNull_of_same {first second : Schema} (keyed : first.Keyed)
    (keyedSecond : second.Keyed) (same : Same first second) :
    first.DefaultsToNull ↔ second.DefaultsToNull := by
  rcases same with rfl | equal
  · rfl
  · exact ⟨Schema.defaultsToNull_of_equal equal,
      Schema.defaultsToNull_of_equal (Schema.equal_symm keyed keyedSecond equal)⟩

/-- What stands for the schemas of routes has a default that is null exactly if one of them has. -/
theorem defaultsToNull_of_standsFor {acting : Bool} {entries : List (Route × Schema)}
    (keyed : ∀ entry ∈ entries, entry.2.Keyed) {schema : Schema}
    (standsFor : StandsFor acting entries schema) :
    schema.DefaultsToNull ↔ ∃ entry ∈ entries, entry.2.DefaultsToNull := by
  cases standsFor with
  | one held all =>
    obtain ⟨entry, isEntry, rfl⟩ := held
    constructor
    · exact fun null => ⟨entry, isEntry, null⟩
    · rintro ⟨other, isOther, null⟩
      exact (defaultsToNull_of_same (keyed entry isEntry) (keyed other isOther)
        (all other isOther)).mpr null
  | @several chosen branches inOrder all differ each =>
    have branch : (∃ branch ∈ branches, branch.DefaultsToNull) ↔
        ∃ kept ∈ chosen, kept.2.DefaultsToNull := by
      clear inOrder all differ
      induction each with
      | nil => simp
      | cons isBranch _ inductionHypothesis =>
        simp only [List.exists_mem_cons_iff, inductionHypothesis,
          defaultsToNull_of_isBranch isBranch]
    rw [defaultsToNull_union, branch]
    constructor
    · rintro ⟨kept, isKept, null⟩
      exact ⟨kept, inOrder.subset isKept, null⟩
    · rintro ⟨entry, isEntry, null⟩
      obtain ⟨kept, isKept, same⟩ := all entry isEntry
      exact ⟨kept, isKept, (defaultsToNull_of_same (keyed kept (inOrder.subset isKept))
        (keyed entry isEntry) same).mpr null⟩

/-! ### Schemas of operations -/

/-- Whether a default in one of some schemas is null. -/
def SomeNull (schemas : List Schema) : Prop := ∃ schema ∈ schemas, schema.DefaultsToNull

theorem someNull_append {first second : List Schema} :
    SomeNull (first ++ second) ↔ SomeNull first ∨ SomeNull second := by
  simp only [SomeNull, List.mem_append, or_and_right, exists_or]

theorem someNull_toList {schema : Option Schema} :
    SomeNull schema.toList ↔ ∃ present, schema = some present ∧ present.DefaultsToNull := by
  simp only [SomeNull, Option.mem_toList]

theorem someNull_withSchema {select : Route → Option Schema} {routes : List Route} :
    (∃ entry ∈ withSchema select routes, entry.2.DefaultsToNull) ↔
      ∃ route ∈ routes, SomeNull (select route).toList := by
  simp only [someNull_toList, withSchema, List.mem_filterMap, Option.map_eq_some_iff]
  constructor
  · rintro ⟨_, ⟨route, isRoute, schema, given, rfl⟩, null⟩
    exact ⟨route, isRoute, schema, given, null⟩
  · rintro ⟨route, isRoute, schema, given, null⟩
    exact ⟨_, ⟨route, isRoute, schema, given, rfl⟩, null⟩

theorem someNull_of_combines {acting : Bool} {entries : List (Route × Schema)}
    (keyed : ∀ entry ∈ entries, entry.2.Keyed) {combined : Option Schema}
    (combines : Combines acting entries combined) :
    SomeNull combined.toList ↔ ∃ entry ∈ entries, entry.2.DefaultsToNull := by
  rw [someNull_toList]
  cases combined with
  | none =>
    rw [combines.absent.mp rfl]
    simp
  | some schema =>
    rw [← defaultsToNull_of_standsFor keyed (combines.standsFor schema rfl)]
    simp

theorem schemas_operation (path id : String) (prose : Option OperationProse) (routes : List Route) :
    (operation path id prose routes).schemas =
      (pathParameters path prose).flatMap Parameter.schemas ++
        (combinedRequest routes).toList ++ (combinedResponse routes).toList := by
  have request : ((operation path id prose routes).requestBody.toList.flatMap RequestBody.schemas) =
      (combinedRequest routes).toList := by
    unfold operation
    cases combinedRequest routes <;> rfl
  have response : ((operation path id prose routes).responses.values.flatMap Response.schemas) =
      (combinedResponse routes).toList := by
    unfold operation
    cases combinedResponse routes <;> rfl
  rw [Operation.schemas, request, response]
  rfl

theorem eq_ofType_of_mem_pathParameters {path : String} {prose : Option OperationProse}
    {schema : Schema} (member : schema ∈ (pathParameters path prose).flatMap Parameter.schemas) :
    schema = .ofType "string" := by
  obtain ⟨parameter, isParameter, inside⟩ := List.mem_flatMap.mp member
  obtain ⟨name, -, rfl⟩ := List.mem_map.mp isParameter
  exact List.mem_singleton.mp inside

section Operation

variable {routes : List Route} (sound : ∀ route ∈ routes, ∀ schema ∈ route.schemas, Sound schema)
  (path id : String) (prose : Option OperationProse)

include sound

theorem sound_of_mem_operation :
    ∀ schema ∈ (operation path id prose routes).schemas, Sound schema := by
  rw [schemas_operation]
  refine List.forall_mem_append.mpr ⟨List.forall_mem_append.mpr ⟨fun schema member => ?_,
    fun schema member => ?_⟩, fun schema member => ?_⟩
  · rw [eq_ofType_of_mem_pathParameters member]
    exact sound_ofType "string"
  · exact sound_combinedRequest sound (Option.mem_toList.mp member)
  · exact sound_combinedResponse sound (Option.mem_toList.mp member)

/-- An operation has a default that is null exactly if one of its routes has. -/
theorem someNull_operation :
    SomeNull (operation path id prose routes).schemas ↔
      ∃ route ∈ routes, SomeNull route.schemas := by
  have parameters : ¬ SomeNull ((pathParameters path prose).flatMap Parameter.schemas) := by
    rintro ⟨schema, member, null⟩
    rw [eq_ofType_of_mem_pathParameters member] at null
    rcases Schema.defaultsToNull_iff.mp null with here | ⟨part, isPart, -⟩
    · cases here
    · cases isPart
  have request := someNull_of_combines
    (fun entry member => (sound_requests sound entry member).tidy.keyed)
    (combines_combinedRequest routes)
  have response := someNull_of_combines
    (fun entry member => (sound_responses sound entry member).tidy.keyed)
    (combines_combine (withSchema Route.responseSchema routes))
  rw [schemas_operation, someNull_append, someNull_append, or_iff_right parameters, request,
    combinedResponse, response, someNull_withSchema, someNull_withSchema]
  simp only [schemas, someNull_append, and_or_left, exists_or]

end Operation

end ServiceForge.Route

namespace ServiceForge.RouteMap

open ServiceForge.Document
open ServiceForge.OpenApi
open ServiceForge.OpenApi.Reference (Foreign)
open ServiceForge.Route (SomeNull Sound)

/-! ### Documents -/

section Extract

variable {routeMap : RouteMap} {prose : Option Prose}

/-- The schemas of the document are those of its operations. -/
theorem mem_topSchemas {schema : Schema} :
    schema ∈ (routeMap.extract prose).topSchemas ↔ ∃ path method operation,
      routeMap.operation? prose path method = some operation ∧ schema ∈ operation.schemas := by
  have noComponents : schema ∉ (routeMap.extract prose).components.schemasInside := List.not_mem_nil
  rw [Spec.topSchemas, List.mem_append, or_iff_left noComponents]
  constructor
  · intro member
    obtain ⟨_, isItem, inside⟩ := List.mem_flatMap.mp member
    obtain ⟨_, isEntry, rfl⟩ := List.mem_map.mp isItem
    obtain ⟨path, -, rfl⟩ := List.mem_map.mp isEntry
    obtain ⟨⟨method, operation⟩, isOperation, inside⟩ := List.mem_flatMap.mp inside
    exact ⟨path, method, operation, PathItem.mem_operations.mp isOperation, inside⟩
  · rintro ⟨path, method, operation, found, inside⟩
    have listed := mem_paths_of_group (operation?_eq_some.mp found).1
    refine List.mem_flatMap.mpr ⟨_, List.mem_map_of_mem (List.mem_map_of_mem
      (List.mem_eraseDups.mpr listed)), List.mem_flatMap.mpr ⟨(method, operation), ?_, inside⟩⟩
    exact PathItem.mem_operations.mpr found

variable (sound : ∀ schema ∈ routeMap.schemas, Sound schema)

include sound

theorem sound_of_mem_group {path : String} {method : Method} :
    ∀ route ∈ routeMap.group path method, ∀ schema ∈ route.schemas, Sound schema :=
  fun route isRoute schema own =>
    sound schema (List.mem_flatMap.mpr ⟨route, (List.mem_filter.mp isRoute).1, own⟩)

theorem sound_of_mem_topSchemas :
    ∀ schema ∈ (routeMap.extract prose).topSchemas, Sound schema := by
  intro schema member
  obtain ⟨path, method, operation, found, inside⟩ := mem_topSchemas.mp member
  obtain ⟨-, rfl⟩ := operation?_eq_some.mp found
  exact Route.sound_of_mem_operation (sound_of_mem_group sound) _ _ _ schema inside

theorem someNull_of_operation? {path : String} {method : Method} {operation : Operation}
    (found : routeMap.operation? prose path method = some operation) :
    SomeNull operation.schemas ↔ ∃ route ∈ routeMap.group path method, SomeNull route.schemas := by
  obtain ⟨-, rfl⟩ := operation?_eq_some.mp found
  exact Route.someNull_operation (sound_of_mem_group sound) _ _ _

/-- The document has a default that is null exactly if the route map has. -/
theorem someNull_topSchemas :
    SomeNull (routeMap.extract prose).topSchemas ↔ SomeNull routeMap.schemas := by
  constructor
  · rintro ⟨schema, member, null⟩
    obtain ⟨path, method, operation, found, inside⟩ := mem_topSchemas.mp member
    obtain ⟨route, isRoute, schema, own, null⟩ :=
      (someNull_of_operation? sound found).mp ⟨schema, inside, null⟩
    exact ⟨schema, List.mem_flatMap.mpr ⟨route, (List.mem_filter.mp isRoute).1, own⟩, null⟩
  · rintro ⟨schema, member, null⟩
    obtain ⟨route, isRoute, own⟩ := List.mem_flatMap.mp member
    have grouped : route ∈ routeMap.group (Route.normalPath route.path) route.method := by
      simp [group, isRoute]
    obtain ⟨operation, found⟩ := Option.isSome_iff_exists.mp
      (isSome_operation?.mpr (List.ne_nil_of_mem grouped))
    obtain ⟨schema, inside, null⟩ :=
      (someNull_of_operation? sound found).mpr ⟨route, grouped, schema, own, null⟩
    exact ⟨schema, mem_topSchemas.mpr ⟨_, _, operation, found, inside⟩, null⟩

end Extract

/-! ### Route maps that are read -/

theorem gathers_route : Gathers (fun _ _ => True) Route.read Route.schemas Schema.read := by
  intro mode value route _ ok
  obtain ⟨fields, -, isRead⟩ := bind_eq_ok.mp ok
  simp only [bind_eq_ok] at isRead
  obtain ⟨path, -, method, -, controller, -, action, -, requestSchema, isRequest, responseSchema,
    isResponse, minVersion, -, maxVersion, -, status, -, returned⟩ := isRead
  cases returned
  have owned : Owned (fun _ _ => True) fields := fun _ _ => trivial
  exact List.forall_mem_append.mpr
    ⟨found_of_schema owned isRequest, found_of_schema owned isResponse⟩

theorem tidy_of_mem_schemas {mode : Mode} {value : Value} {routeMap : RouteMap}
    (isRead : read mode value = .ok routeMap) : ∀ schema ∈ routeMap.schemas, schema.Tidy := by
  obtain ⟨fields, -, isRead⟩ := bind_eq_ok.mp isRead
  simp only [bind_eq_ok] at isRead
  obtain ⟨service, -, version, -, routes, areRoutes, returned⟩ := isRead
  cases returned
  have owned : Owned (fun _ _ => True) fields := fun _ _ => trivial
  intro schema member
  obtain ⟨_, _, -, isRead⟩ :=
    (gathers_route.list inherits_any).withDefault owned rfl areRoutes schema member
  exact Schema.tidy_of_read isRead

/-- A route map whose schemas have no local reference, and whose document is read from its text as
the value that was written, is loaded as it was extracted exactly if no default in its schemas is
null. -/
theorem extract_loads_iff {mode : Mode} {value : Value} {routeMap : RouteMap}
    (isRead : read mode value = .ok routeMap)
    (foreign : ∀ schema ∈ routeMap.schemas, Foreign schema.toJson) (prose : Option Prose)
    (written : ∃ node, Yaml.Node.ofText (routeMap.file prose).contents = .ok node ∧
      Untyped.hasValue node (routeMap.extract prose).toJson = true) :
    Spec.ofText (routeMap.file prose).contents = .ok (routeMap.extract prose) ↔
      ∀ schema ∈ routeMap.schemas, ¬ schema.DefaultsToNull := by
  have sound : ∀ schema ∈ routeMap.schemas, Sound schema := fun schema member =>
    ⟨tidy_of_mem_schemas isRead schema member, foreign schema member⟩
  have settled := settled_extract sound prose
  have tidy : (routeMap.extract prose).Tidy := tidy_extract prose
  have same : SomeNull (routeMap.extract prose).topSchemas ↔ SomeNull routeMap.schemas :=
    someNull_topSchemas sound
  constructor
  · intro loaded schema member null
    obtain ⟨other, isOther, null⟩ := same.mpr ⟨schema, member, null⟩
    exact Spec.not_defaultsToNull_of_ofText loaded other isOther null
  · intro apart
    have restores := (Spec.restores_iff tidy fun schema member =>
      (sound_of_mem_topSchemas sound schema member).tidy).mpr fun schema member null => by
        obtain ⟨other, isOther, null⟩ := same.mp ⟨schema, member, null⟩
        exact apart other isOther null
    -- The keys are distinct, so no member is refused or lost where the node is read.
    obtain ⟨node, isNode, hasValue⟩ := written
    have parsed : Untyped.ofText (routeMap.file prose).contents =
        .ok (routeMap.extract prose).toJson := by
      rw [Untyped.ofText, isNode]
      exact Untyped.ofNode_of_hasValue node settled.keyed hasValue
    -- There is nothing to resolve, so the document is read as it was written.
    rw [Spec.ofText, parsed]
    refine (Spec.ofJson_of_foreign tidy settled.foreign rfl).trans ?_
    exact mapError_eq_ok.mpr restores

/-! ### Numbers -/

/-- A scalar without quotes. -/
def bare (text : String) : Atom := .written .absent .plain text

/-- A mapping whose keys are written without quotation marks. -/
def bareMapping (members : List (String × Value)) : Value :=
  .object .absent (members.map fun member => (.scalar (bare member.1), member.2))

/-- A route map, as it is written, with one route that takes a number with a default. -/
def numberSource (default : String) : Value :=
  bareMapping [
    ("service_type", .atom (bare "compute")),
    ("version", .atom (.written .absent .singleQuoted "2.1")),
    ("routes", .array .absent [
      bareMapping [
        ("path", .atom (bare "/v2.1/servers")),
        ("method", .atom (bare "post")),
        ("request_schema", bareMapping [
          ("type", .atom (bare "number")),
          ("default", .atom (bare default))])]])]

/-- A map with one route, which takes numbers with a default. -/
def numberRoutes (default : Json) : RouteMap where
  service := "compute"
  version := "2.1"
  routes := [
    { path := "/v2.1/servers", method := .post,
      requestSchema := some { Schema.ofType "number" with default := some default } }]

/-- The number one. -/
def one : Json := .number (.integer 1)

/-- What is written of the routes is read as the value that was written. -/
theorem exists_node_numberRoutes : ∀ default ∈ [one, .null],
    ∃ node, Yaml.Node.ofText ((numberRoutes default).file none).contents = .ok node ∧
      Untyped.hasValue node ((numberRoutes default).extract none).toJson = true := by
  have evaluated : ∀ default ∈ [one, .null],
      ((Yaml.Node.ofText ((numberRoutes default).file none).contents).toOption.any fun node =>
        Untyped.hasValue node ((numberRoutes default).extract none).toJson) = true := by
    -- The characters of the text are those of its lines, so the text itself is not evaluated.
    simp only [file, Yaml.render, Yaml.Node.ofText, Yaml.Token.ofText, String.toList_ofList]
    decide +kernel
  intro default member
  have same := evaluated default member
  cases parsed : Yaml.Node.ofText ((numberRoutes default).file none).contents with
  | error problem =>
    rw [parsed] at same
    cases same
  | ok node =>
    rw [parsed] at same
    exact ⟨node, rfl, same⟩

/-- A number is kept as a default. -/
theorem extract_loads_iff_one :
    read .written (numberSource "1") = .ok (numberRoutes one) ∧
      Spec.ofText ((numberRoutes one).file none).contents =
        .ok ((numberRoutes one).extract none) := by
  have isRead : read .written (numberSource "1") = .ok (numberRoutes one) := rfl
  have foreign : ∀ schema ∈ (numberRoutes one).schemas, Foreign schema.toJson :=
    List.forall_mem_singleton.mpr (foreign_of_all_nil rfl)
  refine ⟨isRead, (extract_loads_iff isRead foreign none
    (exists_node_numberRoutes one List.mem_cons_self)).mpr (List.forall_mem_singleton.mpr ?_)⟩
  intro null
  rcases Schema.defaultsToNull_iff.mp null with here | ⟨part, isPart, -⟩
  · cases here
  · cases isPart

/-- A float that is not a number is a default that is lost. -/
theorem numberRoutes_not_loaded :
    read .written (numberSource ".nan") = .ok (numberRoutes .null) ∧
      (∀ schema ∈ (numberRoutes .null).schemas, Foreign schema.toJson) ∧
      (∃ node, Yaml.Node.ofText ((numberRoutes .null).file none).contents = .ok node ∧
        Untyped.hasValue node ((numberRoutes .null).extract none).toJson = true) ∧
      Spec.ofText ((numberRoutes .null).file none).contents ≠
        .ok ((numberRoutes .null).extract none) := by
  have isRead : read .written (numberSource ".nan") = .ok (numberRoutes .null) := rfl
  have foreign : ∀ schema ∈ (numberRoutes .null).schemas, Foreign schema.toJson :=
    List.forall_mem_singleton.mpr (foreign_of_all_nil rfl)
  refine ⟨isRead, foreign, exists_node_numberRoutes .null (by simp), fun loaded => ?_⟩
  have sound : ∀ schema ∈ (numberRoutes .null).schemas, Sound schema := fun schema member =>
    ⟨tidy_of_mem_schemas isRead schema member, foreign schema member⟩
  have null : SomeNull (numberRoutes .null).schemas :=
    ⟨_, List.mem_cons_self, Schema.defaultsToNull_iff.mpr (Or.inl rfl)⟩
  obtain ⟨schema, member, null⟩ := (someNull_topSchemas sound).mpr null
  exact Spec.not_defaultsToNull_of_ofText loaded schema member null

end ServiceForge.RouteMap
