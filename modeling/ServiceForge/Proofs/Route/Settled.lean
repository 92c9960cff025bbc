/-
This file proves that the document of a route map can be written: its keys are distinct, and no
reference in it is local, if the same holds of the schemas of the routes. Annotations add nothing
to a schema that could be taken for one of its own keywords or for a reference.
-/

import ServiceForge.Proofs.Route.Extraction
import ServiceForge.Proofs.Spec.Settled

namespace ServiceForge.Route

open ServiceForge.Document
open ServiceForge.OpenApi
open ServiceForge.OpenApi.Reference (Foreign foreign_object)

/-! ### Annotations -/

section Insert

variable {rest : OrderedMap Json} {key : String} {value : Json}

theorem isKeyed_insert (keyed : Json.isKeyed (.object rest) = true)
    (valueKeyed : value.isKeyed = true) :
    Json.isKeyed (.object (rest.insert key value)) = true := by
  obtain ⟨distinct, inside⟩ := Json.isKeyed_object.mp keyed
  refine Json.isKeyed_object.mpr ⟨OrderedMap.nodup_keys_insert distinct key value, ?_⟩
  intro member held
  rcases OrderedMap.mem_of_mem_insert held with rfl | other
  · exact valueKeyed
  · exact inside member other

/-- A member that is no reference can be set behind other members. -/
theorem foreign_insert (before : OrderedMap Json) (apart : key ≠ "$ref")
    (foreign : Foreign (.object (before ++ rest))) (valueForeign : Foreign value) :
    Foreign (.object (before ++ rest.insert key value)) := by
  obtain ⟨noLocal, inside⟩ := foreign_object.mp foreign
  refine foreign_object.mpr ⟨fun reference named => noLocal reference ?_, fun member held => ?_⟩
  · rwa [Reference.ofMembers?, OrderedMap.get?_append, OrderedMap.get?_insert,
      if_neg (Ne.symm apart), ← OrderedMap.get?_append] at named
  · rcases List.mem_append.mp held with early | late
    · exact inside member (List.mem_append_left _ early)
    · rcases OrderedMap.mem_of_mem_insert late with rfl | other
      · exact valueForeign
      · exact inside member (List.mem_append_right _ other)

end Insert

/-- Whether members can be written behind the ones that a record declares. -/
structure Fits (names : List String) (before rest : OrderedMap Json) : Prop where
  isRest : IsRest names rest
  foreign : Foreign (.object (before ++ rest))

theorem fits_nil (names : List String) : Fits names [] [] :=
  ⟨isRest_nil names, foreign_nil⟩

section Annotate

variable {names : List String} {before rest : OrderedMap Json} (undeclared : annotationKey ∉ names)
  (fits : Fits names before rest) {key : String} (apart : key ≠ "$ref")

include undeclared fits apart

/-- An annotation stands among other members and is neither declared nor a reference. -/
theorem fits_annotate (value : String) : Fits names before (annotate rest key value) := by
  by_cases isOpen : IsOpen rest
  · rw [annotate_of_isOpen isOpen]
    have annotations : Settled (.object ((annotations? rest).getD [])) := by
      cases found : annotations? rest with
      | none => exact ⟨rfl, foreign_nil⟩
      | some annotations =>
        obtain ⟨present, held, isObject⟩ := Option.bind_eq_some_iff.mp found
        obtain ⟨members, rfl⟩ := isOpen present held
        cases isObject
        have member := OrderedMap.mem_of_get? held
        exact ⟨(Json.isKeyed_object.mp fits.isRest.keyed).2 _ member,
          (foreign_object.mp fits.foreign).2 _ (List.mem_append_right _ member)⟩
    refine ⟨⟨isKeyed_insert fits.isRest.keyed (isKeyed_insert annotations.keyed rfl), ?_⟩,
      foreign_insert before (by decide) fits.foreign (foreign_insert [] apart annotations.foreign
        (foreign_of_all_nil rfl))⟩
    intro name listed
    rcases OrderedMap.mem_keys_insert.mp listed with rfl | other
    · exact undeclared
    · exact fits.isRest.apart name other
  · rwa [annotate_of_not_isOpen isOpen]

/-- An added annotation fits beside the fields of a record. -/
theorem fits_annotateSome (value : Option String) :
    Fits names before (annotateSome key value rest) := by
  cases value with
  | none => exact fits
  | some value => exact fits_annotate undeclared fits apart value

omit apart in
/-- The annotations for versions fit beside the fields of a record. -/
theorem fits_annotateVersions (route : Route) : Fits names before (annotateVersions route rest) :=
  fits_annotateSome undeclared (fits_annotateSome undeclared fits (by decide) route.minVersion)
    (by decide) route.maxVersion

end Annotate

/-! ### Schemas of several routes -/

/-- Whether a schema can be written and no reference in it is local. -/
structure Sound (schema : Schema) : Prop where
  tidy : schema.Tidy
  foreign : Foreign schema.toJson

theorem Sound.settled {schema : Schema} (sound : Sound schema) : Settled schema.toJson :=
  ⟨Schema.isKeyed_toJson sound.tidy, sound.foreign⟩

theorem annotationKey_not_mem_keywords : annotationKey ∉ Schema.keywords := by decide

/-- What a sound schema has beside its keywords fits there. -/
theorem Sound.fits {schema : Schema} (sound : Sound schema) :
    Fits Schema.keywords schema.slots.members schema.rest := by
  have here := sound.tidy schema .refl
  exact ⟨⟨here.keyed.rest, here.apart⟩, Schema.toJson_eq schema ▸ sound.foreign⟩

/-- The parts of a schema do not depend on its other keywords. -/
theorem Sound.with_rest {schema : Schema} (sound : Sound schema) {rest : OrderedMap Json}
    (fits : Fits Schema.keywords schema.slots.members rest) : Sound { schema with rest } := by
  obtain ⟨here, inside⟩ := Schema.forall_holds_iff.mp sound.tidy
  refine ⟨Schema.forall_holds_iff.mpr ⟨⟨⟨here.keyed.properties, here.keyed.default,
    here.keyed.choices, fits.isRest.keyed⟩, fits.isRest.apart⟩, inside⟩, ?_⟩
  rw [Schema.toJson_eq]
  exact fits.foreign

/-- A branch by version of a sound schema is sound. -/
theorem sound_versionBranch {schema : Schema} (sound : Sound schema) (route : Route) :
    Sound (versionBranch route schema) :=
  sound.with_rest (fits_annotateVersions annotationKey_not_mem_keywords sound.fits route)

/-- A branch by action of a sound schema is sound. -/
theorem sound_actionBranch {schema : Schema} (sound : Sound schema) (route : Route) :
    Sound (actionBranch route schema) :=
  sound.with_rest (fits_annotateSome annotationKey_not_mem_keywords
    (fits_annotateVersions annotationKey_not_mem_keywords sound.fits route) (by decide)
    route.action)

theorem parts_union (branches : List Schema) (discriminator : String) :
    (union branches discriminator).parts = branches := by
  simp [Schema.parts, union]

/-- A union of sound branches is sound. -/
theorem sound_union {branches : List Schema} (each : ∀ branch ∈ branches, Sound branch)
    (discriminator : String) : Sound (union branches discriminator) := by
  have fits : Fits Schema.keywords [] (union branches discriminator).rest :=
    fits_annotate annotationKey_not_mem_keywords (fits_nil _) (by decide) discriminator
  refine ⟨Schema.forall_holds_iff.mpr ⟨?_, fun part isPart => ?_⟩,
    Schema.foreign_of_parts rfl rfl rfl (fun part isPart => ?_) fits.foreign⟩
  · exact ⟨⟨List.nodup_nil, nofun, List.forall_mem_nil _, fits.isRest.keyed⟩, fits.isRest.apart⟩
  · rw [parts_union] at isPart
    exact (each part isPart).tidy
  · rw [parts_union] at isPart
    exact (each part isPart).foreign

theorem sound_ofType (name : String) : Sound (.ofType name) where
  tidy := Schema.forall_holds_iff.mpr
    ⟨⟨⟨List.nodup_nil, nofun, List.forall_mem_nil _, rfl⟩, List.forall_mem_nil _⟩,
      List.forall_mem_nil _⟩
  foreign := Schema.foreign_of_parts rfl rfl rfl (List.forall_mem_nil _) foreign_nil

/-- What is combined is one of the schemas or a union of branches, which are schemas with
annotations. -/
theorem sound_combine {entries : List (Route × Schema)}
    (each : ∀ entry ∈ entries, Sound entry.2) {schema : Schema}
    (combined : combine entries = some schema) : Sound schema := by
  have kept : ∀ entry ∈ distinctSchemas [] entries, Sound entry.2 := fun entry held =>
    each entry (distinctSchemas_sublist.subset held)
  unfold combine at combined
  split at combined
  · cases combined
  · next only =>
    cases combined
    exact kept _ (only ▸ List.mem_cons_self)
  · cases combined
    exact sound_union (List.forall_mem_map.mpr fun entry held =>
      sound_versionBranch (kept entry held) entry.1) _

/-! ### Operations -/

/-- The schemas of the requests and responses of a route. -/
def schemas (route : Route) : List Schema :=
  route.requestSchema.toList ++ route.responseSchema.toList

theorem tidyMap_jsonContent (schema : Schema) : TidyMap Media.Tidy (jsonContent schema) :=
  ⟨List.nodup_singleton _, List.forall_mem_singleton.mpr (isRest_nil _)⟩

theorem settled_jsonContent {schema : Schema} (sound : Sound schema) :
    ∀ entry ∈ jsonContent schema, Settled entry.2.toJson :=
  List.forall_mem_singleton.mpr (Media.settled (isRest_nil _)
    (List.forall_mem_singleton.mpr sound.settled) foreign_nil)

theorem fits_operationAnnotations (routes : List Route) :
    Fits Model.operation.names [] (operationAnnotations routes) := by
  have undeclared : annotationKey ∉ Model.operation.names := by decide
  unfold operationAnnotations
  extract_lets versions
  have fits : Fits Model.operation.names [] versions := by
    unfold versions
    split
    · split
      · exact fits_annotateVersions undeclared (fits_nil _) _
      · exact fits_nil _
    · exact fits_nil _
  split
  · exact fits_annotate undeclared fits (by decide) _
  · exact fits

/-- An operation that was combined from routes is tidy. -/
theorem tidy_operation (path id : String) (prose : Option OperationProse) (routes : List Route) :
    (operation path id prose routes).Tidy where
  parameters parameter member := by
    obtain ⟨name, -, rfl⟩ := List.mem_map.mp member
    exact isRest_nil _
  body body given := by
    obtain ⟨schema, -, rfl⟩ := Option.map_eq_some_iff.mp given
    exact ⟨tidyMap_jsonContent schema, isRest_nil _⟩
  responses := by
    refine ⟨List.nodup_singleton _, List.forall_mem_singleton.mpr ⟨tidyMap_nil _, ?_, isRest_nil _⟩⟩
    cases combinedResponse routes with
    | none => exact tidyMap_nil _
    | some schema => exact tidyMap_jsonContent schema
  rest := (fits_operationAnnotations routes).isRest

section Operation

variable {routes : List Route} (sound : ∀ route ∈ routes, ∀ schema ∈ route.schemas, Sound schema)

include sound

theorem sound_withSchema {select : Route → Option Schema}
    (own : ∀ {route schema}, select route = some schema → schema ∈ route.schemas) :
    ∀ entry ∈ withSchema select routes, Sound entry.2 := by
  intro entry held
  obtain ⟨route, isRoute, given⟩ := List.mem_filterMap.mp held
  obtain ⟨schema, selected, rfl⟩ := Option.map_eq_some_iff.mp given
  exact sound route isRoute schema (own selected)

theorem sound_requests : ∀ entry ∈ withSchema Route.requestSchema routes, Sound entry.2 :=
  sound_withSchema sound fun selected => List.mem_append_left _ (Option.mem_toList.mpr selected)

theorem sound_responses : ∀ entry ∈ withSchema Route.responseSchema routes, Sound entry.2 :=
  sound_withSchema sound fun selected => List.mem_append_right _ (Option.mem_toList.mpr selected)

/-- Requests are combined to a sound schema. -/
theorem sound_combinedRequest {schema : Schema} (combined : combinedRequest routes = some schema) :
    Sound schema := by
  simp only [combinedRequest] at combined
  split at combined
  · cases combined
    exact sound_union (List.forall_mem_map.mpr fun entry held =>
      sound_actionBranch (sound_requests sound entry held) entry.1) _
  · exact sound_combine (sound_requests sound) combined

/-- Responses are combined to a sound schema. -/
theorem sound_combinedResponse {schema : Schema}
    (combined : combinedResponse routes = some schema) : Sound schema :=
  sound_combine (sound_responses sound) combined

/-- An operation that was combined from sound routes is settled. -/
theorem settled_operation (path id : String) (prose : Option OperationProse) :
    Settled (operation path id prose routes).toJson := by
  have tidy := tidy_operation path id prose routes
  refine Operation.settled tidy (fun parameter member => ?_) (fun body given => ?_)
    (List.forall_mem_singleton.mpr ?_) (fits_operationAnnotations routes).foreign
  · obtain ⟨name, -, rfl⟩ := List.mem_map.mp member
    exact Parameter.settled (isRest_nil _)
      (List.forall_mem_singleton.mpr (sound_ofType "string").settled) foreign_nil
  · obtain ⟨schema, combined, rfl⟩ := Option.map_eq_some_iff.mp given
    exact RequestBody.settled ⟨tidyMap_jsonContent schema, isRest_nil _⟩
      (settled_jsonContent (sound_combinedRequest sound combined)) foreign_nil
  · refine Response.settled (tidy.responses.each _ List.mem_cons_self) (List.forall_mem_nil _) ?_
      foreign_nil
    show ∀ entry ∈ ((combinedResponse routes).map jsonContent).getD [], Settled entry.2.toJson
    cases combined : combinedResponse routes with
    | none => exact List.forall_mem_nil _
    | some schema => exact settled_jsonContent (sound_combinedResponse sound combined)

end Operation

end ServiceForge.Route

namespace ServiceForge.RouteMap

open ServiceForge.Document
open ServiceForge.OpenApi
open ServiceForge.OpenApi.Reference (Foreign foreign_object)
open ServiceForge.Route (Sound)

/-! ### Documents -/

/-- The schemas of the routes. -/
def schemas (routeMap : RouteMap) : List Schema := routeMap.routes.flatMap Route.schemas

section Extract

variable {routeMap : RouteMap} (sound : ∀ schema ∈ routeMap.schemas, Sound schema)
  (prose : Option Prose)

theorem settled_info : Settled (routeMap.extract prose).info := by
  refine settled_object.mpr ⟨?_, ?_, ?_⟩
  · simp [OrderedMap.keys]
  · simp [Reference.ofMembers?, OrderedMap.get?_cons]
  · simp [spreads_settled.text]

/-- An extracted document is tidy. -/
theorem tidy_extract : (routeMap.extract prose).Tidy where
  info := (settled_info prose).keyed
  paths := by
    refine ⟨?_, fun entry member => ?_⟩
    · rw [keys_extract]
      exact nodup_eraseDups _
    · obtain ⟨path, -, rfl⟩ := List.mem_map.mp member
      refine ⟨List.forall_mem_nil _, fun placed isPlaced => ?_, isRest_nil _⟩
      obtain ⟨-, made⟩ := operation?_eq_some.mp (PathItem.mem_operations.mp isPlaced)
      rw [← made]
      exact Route.tidy_operation _ _ _ _
  components := ⟨List.nodup_nil, tidyMap_nil _, tidyMap_nil _, isRest_nil _⟩
  rest := isRest_nil _

include sound

/-- A document that was extracted from sound routes is settled. -/
theorem settled_extract : Settled (routeMap.extract prose).toJson := by
  have tidy : (routeMap.extract prose).Tidy := tidy_extract prose
  refine Spec.settled tidy (settled_info prose).foreign (fun entry member => ?_) rfl foreign_nil
  obtain ⟨path, -, rfl⟩ := List.mem_map.mp member
  refine PathItem.settled (tidy.paths.each _ member) (List.forall_mem_nil _)
    (fun method operation found => ?_) foreign_nil
  obtain ⟨-, rfl⟩ := operation?_eq_some.mp found
  refine Route.settled_operation (fun route isRoute schema own => ?_) _ _ _
  exact sound schema (List.mem_flatMap.mpr ⟨route, (List.mem_filter.mp isRoute).1, own⟩)

end Extract

end ServiceForge.RouteMap
