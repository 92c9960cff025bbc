/-
This file proves which versions the branches of a union keep. A branch has the versions of the
first of the routes whose schemas are equal, so the versions of another one of them are kept
exactly if they are among those of the first.
-/

import Mathlib.Data.Prod.Lex
import ServiceForge.Proofs.Route.Extraction
import ServiceForge.Proofs.Schema.Equivalence
import ServiceForge.Sdk.Source

namespace ServiceForge.Route

open ServiceForge.OpenApi (Operation Schema annotationKey)

/-! ### Ranges of versions -/

/-- Versions from a lower to an upper one, each of which may be missing. -/
structure Range where
  lower : Option String
  upper : Option String
deriving DecidableEq

/-- The versions that a route is known for. -/
def range (route : Route) : Range := ⟨route.minVersion, route.maxVersion⟩

/-- The versions that are noted among the keywords of a schema. -/
def notedRange (rest : OrderedMap Json) : Range where
  lower := (annotation? rest "min-ver").bind Json.string?
  upper := (annotation? rest "max-ver").bind Json.string?

namespace Range

variable {V : Type} [LE V] (number : String → V)

/-- Whether a version is in a range. -/
def Contains (range : Range) (version : V) : Prop :=
  (∀ lower ∈ range.lower, number lower ≤ version) ∧ ∀ upper ∈ range.upper, version ≤ number upper

/-- Whether a range has all versions of another one. -/
def Covers (range other : Range) : Prop :=
  ∀ version, other.Contains number version → range.Contains number version

end Range

/-! ### Schemas without annotations -/

/-- A schema without annotations. -/
def plain (schema : Schema) : Schema :=
  { schema with rest := schema.rest.filter fun member => member.1 != annotationKey }

theorem filter_insert (rest : OrderedMap Json) (value : Json) :
    (rest.insert annotationKey value).filter (fun member => member.1 != annotationKey) =
      rest.filter fun member => member.1 != annotationKey := by
  induction rest with
  | nil => simp [OrderedMap.insert]
  | cons member rest inductionHypothesis =>
    obtain ⟨key, present⟩ := member
    by_cases same : key = annotationKey
    · simp [OrderedMap.insert, same]
    · simp [OrderedMap.insert, same, inductionHypothesis]

theorem filter_annotate (rest : OrderedMap Json) (key value : String) :
    (annotate rest key value).filter (fun member => member.1 != annotationKey) =
      rest.filter fun member => member.1 != annotationKey := by
  unfold annotate
  split
  · exact filter_insert rest _
  · exact filter_insert rest _
  · rfl

theorem filter_annotateSome (rest : OrderedMap Json) (key : String) (value : Option String) :
    (annotateSome key value rest).filter (fun member => member.1 != annotationKey) =
      rest.filter fun member => member.1 != annotationKey := by
  cases value with
  | none => rfl
  | some value => exact filter_annotate rest key value

theorem plain_versionBranch (route : Route) (schema : Schema) :
    plain (versionBranch route schema) = plain schema := by
  simp only [plain, versionBranch, annotateVersions, filter_annotateSome]

section Unannotated

variable {schema : Schema} (unannotated : schema.rest.get? annotationKey = none)
include unannotated

theorem plain_of_unannotated : plain schema = schema := by
  have kept : schema.rest.filter (fun member => member.1 != annotationKey) = schema.rest := by
    refine List.filter_eq_self.mpr fun member held => bne_iff_ne.mpr ?_
    rintro same
    exact OrderedMap.get?_eq_none.mp unannotated (same ▸ List.mem_map_of_mem held)
  cases schema
  exact congrArg _ kept

theorem notedRange_versionBranch (route : Route) :
    notedRange (versionBranch route schema).rest = route.range := by
  have isOpen : IsOpen schema.rest := fun value held => by cases unannotated.symm.trans held
  have nothing (name : String) : annotation? schema.rest name = none := by
    rw [annotation?, OpenApi.annotations?, unannotated]
    rfl
  have noted := (annotated_annotateVersions route schema.rest).set isOpen
  unfold notedRange
  simp only [versionBranch, noted, nothing, Option.or_none, known]
  cases lower : route.minVersion <;> cases upper : route.maxVersion <;>
    simp [range, lower, upper, Json.string?]

end Unannotated

/-! ### The first of equal schemas -/

section First

variable {entries : List (Route × Schema)} {entry : Route × Schema}

/-- A schema that is kept is the first of those that are equal to it. -/
theorem find?_of_mem_distinctSchemas {seen : List Schema} {kept : Route × Schema}
    (keyed : ∀ other ∈ entries, other.2.Keyed) (keyedSeen : ∀ schema ∈ seen, schema.Keyed)
    (keyedEntry : entry.2.Keyed) (member : kept ∈ distinctSchemas seen entries)
    (same : kept.2.equal entry.2 = true) :
    entries.find? (fun other => other.2.equal entry.2) = some kept := by
  have keyedKept := keyed kept (distinctSchemas_sublist.subset member)
  have fromSame := Schema.equal_symm keyedKept keyedEntry same
  fun_induction distinctSchemas with
  | case1 => cases member
  | case2 seen route schema rest known inductionHypothesis =>
    obtain ⟨keyedHere, keyed⟩ := List.forall_mem_cons.mp keyed
    obtain ⟨other, early, known⟩ := List.any_eq_true.mp known
    -- What was seen and is equal to the schema differs from what is kept later.
    have apart : schema.equal entry.2 = false := Bool.eq_false_iff.mpr fun here => by
      have throughSeen := Schema.equal_trans (keyedSeen other early) keyedHere keyedKept known
        (Schema.equal_trans keyedHere keyedEntry keyedKept here fromSame)
      cases throughSeen.symm.trans (not_equal_of_seen member early)
    simp only [List.find?_cons, apart]
    exact inductionHypothesis keyed keyedSeen member
  | case3 seen route schema rest new inductionHypothesis =>
    obtain ⟨keyedHere, keyed⟩ := List.forall_mem_cons.mp keyed
    rcases List.mem_cons.mp member with rfl | later
    · exact List.find?_cons_of_pos same
    · have apart : schema.equal entry.2 = false := Bool.eq_false_iff.mpr fun here => by
        have early : schema ∈ seen ++ [schema] := List.mem_append_right _ List.mem_cons_self
        have equal := Schema.equal_trans keyedHere keyedEntry keyedKept here fromSame
        cases equal.symm.trans (not_equal_of_seen later early)
      simp only [List.find?_cons, apart]
      refine inductionHypothesis keyed (fun other held => ?_) later
      rcases List.mem_append.mp held with early | here
      · exact keyedSeen other early
      · rwa [List.mem_singleton.mp here]

variable (keyed : ∀ other ∈ entries, other.2.Keyed)
include keyed

/-- A schema that is equal to that of a route is kept. -/
theorem exists_kept (member : entry ∈ entries) :
    ∃ kept ∈ distinctSchemas [] entries, kept.2.equal entry.2 = true := by
  obtain ⟨kept, held, same | equal⟩ :=
    (exists_same_of_mem member).resolve_left fun ⟨_, held, _⟩ => List.not_mem_nil held
  · rw [← same] at *
    exact ⟨kept, held, Schema.equal_self _ (keyed _ (distinctSchemas_sublist.subset held))⟩
  · exact ⟨kept, held, equal⟩

/-- Schemas that differ are combined to a union. -/
theorem combine_of_differ {first second : Route × Schema} (isFirst : first ∈ entries)
    (isSecond : second ∈ entries) (differ : first.2.equal second.2 = false) :
    combine entries = some (union ((distinctSchemas [] entries).map
      fun (route, schema) => versionBranch route schema) "microversion") := by
  obtain ⟨kept, held, same⟩ := exists_kept keyed isFirst
  obtain ⟨other, otherHeld, otherSame⟩ := exists_kept keyed isSecond
  have inside : distinctSchemas [] entries ⊆ entries := distinctSchemas_sublist.subset
  unfold combine
  split
  · next none =>
    rw [none] at held
    cases held
  · next only =>
    rw [only, List.mem_singleton] at held otherHeld
    subst held otherHeld
    have equal := Schema.equal_euclidean (keyed _ (inside (only ▸ List.mem_cons_self))) _ _
      (keyed first isFirst) (keyed second isSecond) same otherSame
    cases equal.symm.trans differ
  · rfl

/-- Each schema has one that is kept and equal to it, the first of those that are. -/
theorem exists_first (member : entry ∈ entries) :
    ∃ first ∈ distinctSchemas [] entries, first.2.equal entry.2 = true ∧
      entries.find? (fun other => other.2.equal entry.2) = some first ∧
      ∀ kept ∈ distinctSchemas [] entries, kept.2.equal entry.2 = true → kept = first := by
  have found {kept : Route × Schema} (held : kept ∈ distinctSchemas [] entries)
      (same : kept.2.equal entry.2 = true) :
      entries.find? (fun other => other.2.equal entry.2) = some kept :=
    find?_of_mem_distinctSchemas keyed (List.forall_mem_nil _) (keyed entry member) held same
  obtain ⟨first, held, same⟩ := exists_kept keyed member
  refine ⟨first, held, same, found held same, fun kept keptHeld keptSame => ?_⟩
  exact Option.some.inj ((found keptHeld keptSame).symm.trans (found held same))

end First

/-! ### Payloads -/

/-- What a route and its operation describe: requests or responses. -/
inductive Payload where
  | request
  | response
deriving DecidableEq

namespace Payload

/-- The schema that a route has for a payload. -/
def ofRoute : Payload → Route → Option Schema
  | request => Route.requestSchema
  | response => Route.responseSchema

/-- The schema that an operation has for a payload. -/
def ofOperation (payload : Payload) (operation : Operation) : Option Schema :=
  match payload with
  | request => operation.requestContent.bind fun content => content.schema? OpenApi.MediaType.json
  | response =>
    operation.responses.head?.bind fun entry => entry.2.content.schema? OpenApi.MediaType.json

/-- The routes that describe a payload, with its schema. -/
def entries (payload : Payload) (routes : List Route) : List (Route × Schema) :=
  withSchema payload.ofRoute routes

end Payload

/-- The schemas of routes that select no action are combined by their versions. -/
theorem ofOperation_operation (path id : String) (prose : Option OperationProse)
    {routes : List Route} (noAction : ∀ route ∈ routes, route.action = none) (payload : Payload) :
    payload.ofOperation (operation path id prose routes) = combine (payload.entries routes) := by
  cases payload with
  | request =>
    have none : (withSchema Route.requestSchema routes).any
        (fun entry => entry.1.action.isSome) = false := by
      refine List.any_eq_false.mpr fun entry member => ?_
      obtain ⟨route, isRoute, given⟩ := List.mem_filterMap.mp member
      obtain ⟨schema, -, rfl⟩ := Option.map_eq_some_iff.mp given
      simp [noAction route isRoute]
    refine (requestSchema_operation path id prose routes).trans ?_
    simp only [combinedRequest, none]
    rfl
  | response => exact schema?_responseContent (combinedResponse routes)

end ServiceForge.Route

namespace ServiceForge.RouteMap

open ServiceForge.OpenApi (PlacedOperation Schema annotationKey)
open ServiceForge.Route (IsBranch Payload notedRange plain union)

/-- If no route of an operation selects an action and two of their schemas for a payload differ,
the operation has a union with a branch for the first of equal schemas. If also no schema comes
with annotations, a branch with the schema and all versions of a route is there exactly if the
first route with an equal schema has all these versions. -/
theorem versions_kept_iff {routeMap : RouteMap} {prose : Option Prose} {placed : PlacedOperation}
    (member : placed ∈ (routeMap.extract prose).operations) (payload : Payload)
    (noAction : ∀ route ∈ routeMap.group placed.path placed.method, route.action = none) :
    let entries := payload.entries (routeMap.group placed.path placed.method)
    (∀ entry ∈ entries, entry.2.Keyed) →
    (∃ first ∈ entries, ∃ second ∈ entries, first.2.equal second.2 = false) →
      ∃ branches, payload.ofOperation placed.operation = some (union branches "microversion") ∧
        ∀ entry ∈ entries, ∃ first,
          entries.find? (fun other => other.2.equal entry.2) = some first ∧
            (∃ branch ∈ branches, IsBranch false first branch) ∧
            ((∀ other ∈ entries, other.2.rest.get? annotationKey = none) →
              ∀ {V : Type} [LE V] (number : String → V),
                (∃ branch ∈ branches, (plain branch).equal (plain entry.2) = true ∧
                  (notedRange branch.rest).Covers number entry.1.range) ↔
                first.1.range.Covers number entry.1.range) := by
  intro entries keyed ⟨first, isFirst, second, isSecond, differ⟩
  obtain ⟨-, made⟩ := operation?_eq_some.mp (operation?_of_mem routeMap prose member)
  have combined := Route.ofOperation_operation placed.path
    (Route.operationId placed.path placed.method) (prose.bind fun prose =>
      prose.operations.get? (Route.operationId placed.path placed.method)) noAction payload
  rw [made, Route.combine_of_differ keyed isFirst isSecond differ] at combined
  refine ⟨_, combined, fun entry isEntry => ?_⟩
  obtain ⟨kept, held, same, found, only⟩ := Route.exists_first keyed isEntry
  refine ⟨kept, found, ⟨_, List.mem_map_of_mem held, Route.isBranch_versionBranch kept⟩,
    fun unannotated V _ number => ?_⟩
  have keptUnannotated := unannotated kept (Route.distinctSchemas_sublist.subset held)
  have range : notedRange (Route.versionBranch kept.1 kept.2).rest = kept.1.range :=
    Route.notedRange_versionBranch keptUnannotated kept.1
  constructor
  · rintro ⟨_, isBranch, hasSchema, covers⟩
    obtain ⟨other, otherHeld, rfl⟩ := List.mem_map.mp isBranch
    have otherUnannotated := unannotated other (Route.distinctSchemas_sublist.subset otherHeld)
    rw [Route.plain_versionBranch, Route.plain_of_unannotated otherUnannotated,
      Route.plain_of_unannotated (unannotated entry isEntry)] at hasSchema
    rwa [only other otherHeld hasSchema, range] at covers
  · intro covers
    refine ⟨_, List.mem_map_of_mem held, ?_, ?_⟩
    · rwa [Route.plain_versionBranch, Route.plain_of_unannotated keptUnannotated,
        Route.plain_of_unannotated (unannotated entry isEntry)]
    · rwa [range]

/-! ### Tags -/

/-- Tags are objects up to a version and, after versions in which they are text, again. -/
def tagRoutes (limit : Option String) : RouteMap where
  service := "compute"
  version := "2.1"
  routes := [
    { path := "/v2.1/tags", method := .put, minVersion := some "2.1", maxVersion := limit,
      requestSchema := some (.ofType "object") },
    { path := "/v2.1/tags", method := .put, minVersion := some "2.6", maxVersion := some "2.9",
      requestSchema := some (.ofType "string") },
    { path := "/v2.1/tags", method := .put, minVersion := some "2.10",
      requestSchema := some (.ofType "object") }]

/-- Versions are ordered by their first number and then by their second one. -/
def versionOrder (version : String) : ℕ ×ₗ ℕ := toLex ((Sdk.versionNumbers? version).getD (0, 0))

theorem versions_kept_iff_tags :
    ∃ placed ∈ ((tagRoutes none).extract none).operations, placed.path = "/v2.1/tags" ∧
      ∃ branches, Payload.request.ofOperation placed.operation =
          some (union branches "microversion") ∧
        ∃ branch ∈ branches, (plain branch).equal (plain (.ofType "object")) = true ∧
          (notedRange branch.rest).Covers versionOrder ⟨some "2.10", none⟩ := by
  have isOperation := (mem_map_operations (tagRoutes none) none).mpr
    ⟨_, List.mem_cons_self, rfl, rfl⟩
  obtain ⟨placed, member, same⟩ := List.mem_map.mp isOperation
  obtain ⟨path, method⟩ := Prod.mk.inj same
  have scalar (name : String) : (Schema.ofType name).Keyed :=
    Schema.keyed_iff.mpr ⟨⟨List.nodup_nil, nofun, nofun, rfl⟩, nofun⟩
  have group : (tagRoutes none).group placed.path placed.method = (tagRoutes none).routes := by
    rw [path, method]
    exact List.filter_eq_self.mpr (by decide +kernel)
  have kept := versions_kept_iff member .request (by rw [group]; decide)
  rw [group] at kept
  have keyed : ∀ entry ∈ Payload.request.entries (tagRoutes none).routes, entry.2.Keyed :=
    List.forall_mem_cons.mpr ⟨scalar _, List.forall_mem_cons.mpr ⟨scalar _,
      List.forall_mem_singleton.mpr (scalar _)⟩⟩
  obtain ⟨branches, combined, each⟩ := kept keyed
    ⟨_, List.mem_cons_self, _, List.mem_cons_of_mem _ List.mem_cons_self, by decide⟩
  obtain ⟨first, found, -, covered⟩ := each _ (List.mem_cons_of_mem _
    (List.mem_cons_of_mem _ List.mem_cons_self))
  cases found
  refine ⟨placed, member, path, branches, combined, (covered (by decide) versionOrder).mpr ?_⟩
  have below : versionOrder "2.1" ≤ versionOrder "2.10" := by decide +kernel
  refine fun version contains => ⟨fun lower isLower => ?_, nofun⟩
  cases isLower
  exact le_trans below (contains.1 _ rfl)

theorem tagRoutes_lose_versions :
    ∃ branches, ((tagRoutes (some "2.5")).extract none).operations.map (fun placed =>
        Payload.request.ofOperation placed.operation) = [some (union branches "microversion")] ∧
      ∀ branch ∈ branches, (plain branch).equal (.ofType "object") = true →
        ¬ (notedRange branch.rest).Covers versionOrder ⟨some "2.10", none⟩ := by
  have above : ¬ versionOrder "2.10" ≤ versionOrder "2.5" := by decide +kernel
  refine ⟨_, rfl, List.forall_mem_cons.mpr ⟨fun _ covers => ?_, List.forall_mem_singleton.mpr ?_⟩⟩
  · have contains := covers (versionOrder "2.10") ⟨fun lower isLower => ?_, nofun⟩
    · exact above (contains.2 _ rfl)
    · cases isLower
      exact le_refl _
  · intro same
    cases same

end ServiceForge.RouteMap
