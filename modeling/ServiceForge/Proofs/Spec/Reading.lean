/-
This file proves where the references of a document come from. A model is read from
a JSON document part by part, and a schema takes a reference from a member `$ref` of the
object that it is read from. So the references in whatever is read stand in the JSON
document that it is read from.
-/

import ServiceForge.OpenApi.Loading
import ServiceForge.Proofs.Document.Reading
import ServiceForge.Proofs.Reference.Parts
import ServiceForge.Proofs.Schema.Size

namespace ServiceForge.OpenApi

open ServiceForge.Document

/-! ### Readers -/

/-- Whether the references in schemas stand in a JSON document. -/
def Covered (schemas : List Schema) (json : Json) : Prop :=
  ∀ schema ∈ schemas, ∀ reference, schema.Refers reference → reference ∈ Reference.all json

/-- Whether the references in the schemas of what is read stand in the JSON document that it is
read from. -/
def Cites {α : Type} (read : Reader α) (schemas : α → List Schema) : Prop :=
  ∀ json value, read .typed (.ofJson json) = .ok value → Covered (schemas value) json

section Readers

variable {α : Type} {read : Reader α} {schemas : α → List Schema}

theorem Covered.append {first second : List Schema} {json : Json} (covered : Covered first json)
    (others : Covered second json) : Covered (first ++ second) json :=
  fun schema member => (List.mem_append.mp member).elim (covered schema) (others schema)

theorem Cites.optional (cites : Cites read schemas) :
    Cites (Reader.optional read) fun value => value.toList.flatMap schemas := by
  intro json value ok schema member
  obtain ⟨absent, -, ok⟩ := bind_eq_ok.mp ok
  split at ok
  · cases ok
    cases member
  · obtain ⟨result, isRead, returned⟩ := bind_eq_ok.mp ok
    cases returned
    exact cites json result isRead schema (by simpa using member)

/-- Lists cite what they are read from if their items do. -/
theorem Cites.list (cites : Cites read schemas) :
    Cites (Reader.list read) fun values => values.flatMap schemas := by
  intro json values ok schema member reference refers
  obtain ⟨sources, items, each⟩ := bind_eq_ok.mp ok
  obtain ⟨items, rfl, rfl⟩ := items_ofJson items
  obtain ⟨value, isValue, inside⟩ := List.mem_flatMap.mp member
  obtain ⟨source, isSource, isRead⟩ := (mem_mapM each).mp isValue
  obtain ⟨item, isItem, rfl⟩ := List.mem_map.mp isSource
  rw [Reference.all]
  exact Reference.mem_allInItems.mpr
    ⟨item, isItem, cites item value isRead schema inside reference refers⟩

/-- Maps cite what they are read from if their values do. -/
theorem Cites.map (cites : Cites read schemas) :
    Cites (Reader.map read) fun values => values.values.flatMap schemas := by
  intro json values ok schema member reference refers
  obtain ⟨members, rfl, each, -⟩ := entries_ofJson ok
  obtain ⟨value, isValue, inside⟩ := List.mem_flatMap.mp member
  obtain ⟨entry, isEntry, rfl⟩ := List.mem_map.mp isValue
  obtain ⟨source, isSource, -, isRead⟩ := each entry isEntry
  rw [Reference.all]
  exact List.mem_append_right _ (Reference.mem_allInMembers.mpr
    ⟨source, isSource, cites source.2 entry.2 isRead schema inside reference refers⟩)

end Readers

/-! ### Fields -/

end ServiceForge.OpenApi

namespace ServiceForge.Document

open ServiceForge.OpenApi

section Fields

variable {α : Type} {read : Reader α} {schemas : α → List Schema} {fields : Fields}
  {names : List String} {members : List (String × Json)} {name : String} {value fallback : α}
  (declares : Declares fields names members) (listed : name ∈ names)

include declares listed

/-- A field cites the object that it was read from. -/
theorem Declares.cites (cites : Cites read schemas) (empty : schemas fallback = [])
    (ok : fields.withDefault name fallback read = .ok value) :
    Covered (schemas value) (.object members) := by
  intro schema member reference refers
  rcases (declares.withDefault listed).mp ok with ⟨-, rfl⟩ | ⟨source, found, isRead⟩
  · rw [empty] at member
    cases member
  · have inside : Reference.step? (.object members) name = some source := found
    exact Reference.all_subset_of_step inside
      (cites source value isRead schema member reference refers)

theorem Declares.optional {value : Option α} (cites : Cites read schemas)
    (ok : fields.optional name read = .ok value) :
    Covered (value.toList.flatMap schemas) (.object members) := by
  have covered := declares.cites listed cites.optional rfl ok
  exact covered

theorem Declares.list {values : List α} (cites : Cites read schemas)
    (ok : fields.list name read = .ok values) :
    Covered (values.flatMap schemas) (.object members) := by
  have covered := declares.cites listed cites.list rfl ok
  exact covered

theorem Declares.map {values : OrderedMap α} (cites : Cites read schemas)
    (ok : fields.map name read = .ok values) :
    Covered (values.values.flatMap schemas) (.object members) := by
  have covered := declares.cites listed cites.map rfl ok
  exact covered

end Fields

/-- A schema takes a reference from the member `$ref`. -/
theorem Declares.reference {fields : Fields} {names : List String}
    {members : List (String × Json)} {reference : String}
    (declares : Declares fields names members) (listed : "$ref" ∈ names)
    (ok : fields.optional "$ref" Reader.text = .ok (some reference)) :
    reference ∈ Reference.all (.object members) := by
  rcases (declares.withDefault listed).mp ok with ⟨-, impossible⟩ | ⟨source, found, isRead⟩
  · cases impossible
  obtain ⟨absent, -, isRead⟩ := bind_eq_ok.mp isRead
  split at isRead
  · cases isRead
  · obtain ⟨text, isText, same⟩ := bind_eq_ok.mp isRead
    cases same
    rw [text_ofJson.mp isText] at found
    have named : Reference.ofMembers? members = some reference := by
      rw [Reference.ofMembers?, found]
      rfl
    rw [Reference.all, named]
    exact List.mem_append_left _ List.mem_cons_self

/-- The schemas of a map are those of its entries. -/
theorem Declares.entries {α : Type} {read : Reader α} {schemas : α → List Schema}
    {values : OrderedMap α} (declares : Declares fields names members) (listed : name ∈ names)
    (cites : Cites read schemas) (ok : fields.map name read = .ok values) {schema : Schema}
    (member : schema ∈ values.values.flatMap schemas) :
    ∃ entries, OrderedMap.get? members name = some (.object entries) ∧
      ∃ entry ∈ entries, Covered [schema] entry.2 := by
  obtain ⟨value, isValue, inside⟩ := List.mem_flatMap.mp member
  obtain ⟨entry, isEntry, rfl⟩ := List.mem_map.mp isValue
  rcases (declares.withDefault listed).mp ok with ⟨-, rfl⟩ | ⟨source, found, isRead⟩
  · cases isEntry
  obtain ⟨entries, rfl, each, -⟩ := entries_ofJson isRead
  obtain ⟨source, isSource, -, isRead⟩ := each entry isEntry
  refine ⟨entries, found, source, isSource, fun other same => ?_⟩
  obtain rfl := List.mem_singleton.mp same
  exact cites source.2 entry.2 isRead other inside

/-- The keys of a map are read from the keys of an object. -/
theorem Declares.keys {α : Type} {read : Reader α} {values : OrderedMap α} {source : Json}
    (declares : Declares fields names members) (listed : name ∈ names)
    (ok : fields.map name read = .ok values)
    (found : OrderedMap.get? members name = some source) :
    ∃ entries, source = .object entries ∧
      ∀ key ∈ OrderedMap.keys entries, key ∈ OrderedMap.keys values := by
  rcases (declares.withDefault listed).mp ok with ⟨absent, -⟩ | ⟨other, same, isRead⟩
  · rw [found] at absent
    cases absent
  · cases found.symm.trans same
    obtain ⟨entries, rfl, -, keys⟩ := entries_ofJson isRead
    exact ⟨entries, rfl, keys⟩

end ServiceForge.Document

namespace ServiceForge.OpenApi

open ServiceForge.Document

/-- What is read from the fields of an object cites it if it does so for any fields. -/
theorem Cites.of_fields {α : Type} {names : List String} {schemas : α → List Schema}
    {build : Fields → Except Error α}
    (each : ∀ fields members value, Declares fields names members → build fields = .ok value →
      Covered (schemas value) (.object members)) :
    Cites (fun mode value => do build (← Fields.ofOpen names mode value)) schemas := by
  intro json value ok
  obtain ⟨fields, isFields, isRead⟩ := bind_eq_ok.mp ok
  obtain ⟨members, rfl, ⟨declares, -, -⟩⟩ := splits_of_ofOpen isFields
  exact each fields members value declares isRead

/-! ### Schemas -/

/-- What is allowed beside the properties cites what it is read from, if its schema does. -/
theorem Additional.cites_read {α : Type} {read : Reader α} {schemas : α → List Schema}
    (cites : Cites read schemas) :
    Cites (Additional.read read) fun additional => additional.schemas.flatMap schemas := by
  intro json additional ok
  cases json with
  | array items | object members =>
    obtain ⟨value, isRead, same⟩ := bind_eq_ok.mp ok
    cases same
    intro schema member
    exact cites _ value isRead schema (by simpa [Additional.schemas] using member)
  | _ =>
    obtain ⟨flag, -, same⟩ := bind_eq_ok.mp ok
    cases same
    intro schema member
    cases member

/-- Schemas that are read to any depth cite what they are read from. -/
theorem Schema.cites_readWithin (limit : Nat) :
    Cites (Schema.readWithin limit) fun schema => [schema] := by
  induction limit with
  | zero =>
    intro json schema ok
    cases ok
  | succ limit inductionHypothesis =>
    refine .of_fields fun fields members schema declares isRead => ?_
    simp only [bind_eq_ok] at isRead
    obtain ⟨reference, isReference, type, -, format, -, title, -, description, -, default, -,
      items, isItems, properties, isProperties, required, -, nullable, -, additional, isAdditional,
      oneOf, isOneOf, anyOf, isAnyOf, allOf, isAllOf, choices, -, pattern, -, maxLength, -,
      minLength, -, readOnly, -, returned⟩ := isRead
    cases returned
    have inside := (((((declares.optional (by decide) inductionHypothesis isItems).append
      (declares.map (by decide) inductionHypothesis isProperties)).append
      (declares.optional (by decide) (Additional.cites_read inductionHypothesis) isAdditional)).append
      (declares.list (by decide) inductionHypothesis isOneOf)).append
      (declares.list (by decide) inductionHypothesis isAnyOf)).append
      (declares.list (by decide) inductionHypothesis isAllOf)
    simp only [List.flatMap_singleton'] at inside
    intro schema same other refers
    obtain rfl := List.mem_singleton.mp same
    rcases Schema.refers_iff.mp refers with own | ⟨part, isPart, refers⟩
    · obtain rfl : reference = some other := own
      exact declares.reference (by decide) isReference
    · exact inside part isPart other refers

theorem Schema.cites_read : Cites Schema.read fun schema => [schema] :=
  fun json schema ok => Schema.cites_readWithin _ json schema ok

/-! ### The parts of a document -/

section Model

variable {fields : Fields} {names : List String} {members : List (String × Json)} {name : String}

/-- A schema in a field is covered by the object that it was read from. -/
theorem covered_of_schema {schema : Option Schema} (declares : Declares fields names members)
    (listed : name ∈ names) (ok : fields.optional name Schema.read = .ok schema) :
    Covered schema.toList (.object members) := by
  have covered := declares.optional listed Schema.cites_read ok
  rwa [List.flatMap_singleton'] at covered

theorem Media.cites_read : Cites Media.read Media.schemas := by
  refine .of_fields fun fields members media declares isRead => ?_
  obtain ⟨schema, isSchema, returned⟩ := bind_eq_ok.mp isRead
  cases returned
  exact covered_of_schema declares (by decide) isSchema

theorem Parameter.cites_read : Cites Parameter.read Parameter.schemas := by
  refine .of_fields fun fields members parameter declares isRead => ?_
  simp only [bind_eq_ok] at isRead
  obtain ⟨name, -, location, -, description, -, required, -, style, -, explode, -, schema, isSchema,
    returned⟩ := isRead
  cases returned
  exact covered_of_schema declares (by decide) isSchema

theorem Header.cites_read : Cites Header.read Header.schemas := by
  refine .of_fields fun fields members header declares isRead => ?_
  simp only [bind_eq_ok] at isRead
  obtain ⟨description, -, schema, isSchema, returned⟩ := isRead
  cases returned
  exact covered_of_schema declares (by decide) isSchema

theorem Response.cites_read : Cites Response.read Response.schemas := by
  refine .of_fields fun fields members response declares isRead => ?_
  simp only [bind_eq_ok] at isRead
  obtain ⟨description, -, headers, isHeaders, content, isContent, returned⟩ := isRead
  cases returned
  exact (declares.map (by decide) Header.cites_read isHeaders).append
    (declares.map (by decide) Media.cites_read isContent)

theorem RequestBody.cites_read : Cites RequestBody.read RequestBody.schemas := by
  refine .of_fields fun fields members body declares isRead => ?_
  simp only [bind_eq_ok] at isRead
  obtain ⟨description, -, content, isContent, required, -, returned⟩ := isRead
  cases returned
  exact declares.map (by decide) Media.cites_read isContent

/-- Operations cite what they are read from. -/
theorem Operation.cites_read : Cites Operation.read Operation.schemas := by
  refine .of_fields fun fields members operation declares isRead => ?_
  simp only [bind_eq_ok] at isRead
  obtain ⟨id, -, summary, -, description, -, tags, -, parameters, areParameters, body, isBody,
    responses, areResponses, returned⟩ := isRead
  cases returned
  exact ((declares.list (by decide) Parameter.cites_read areParameters).append
    (declares.optional (by decide) RequestBody.cites_read isBody)).append
      (declares.map (by decide) Response.cites_read areResponses)

/-- Paths cite what they are read from. -/
theorem PathItem.cites_read : Cites PathItem.read PathItem.schemas := by
  refine .of_fields fun fields members item declares isRead => ?_
  simp only [bind_eq_ok] at isRead
  obtain ⟨parameters, areParameters, operations, areOperations, returned⟩ := isRead
  cases returned
  refine (declares.list (by decide) Parameter.cites_read areParameters).append ?_
  intro schema member
  obtain ⟨⟨method, operation⟩, isOperation, inside⟩ := List.mem_flatMap.mp member
  obtain ⟨other, -, found⟩ := List.mem_filterMap.mp isOperation
  obtain ⟨_, found, same⟩ := Option.map_eq_some_iff.mp found
  cases same
  obtain ⟨before, after, whole, -⟩ := List.lookup_eq_some_iff.mp (Option.join_eq_some_iff.mp found)
  have isEntry : (method, some operation) ∈ operations := by simp [whole]
  obtain ⟨own, isOwn, isRead⟩ := (mem_mapM areOperations).mp isEntry
  obtain ⟨_, isRead, same⟩ := bind_eq_ok.mp isRead
  cases same
  exact declares.optional (List.mem_cons_of_mem _ (List.mem_map_of_mem isOwn))
    Operation.cites_read isRead schema (by simpa using inside)

/-- The schemas of the components are those of the entries of sections. -/
theorem Components.reads {json : Json} {components : Components}
    (ok : Components.read .typed (.ofJson json) = .ok components) :
    (∀ schema ∈ components.schemasInside, ∃ name ∈ Reference.sections, ∃ entries,
      json.get? name = some (.object entries) ∧ ∃ entry ∈ entries, Covered [schema] entry.2) ∧
    ∀ source, json.get? "schemas" = some source → ∃ entries, source = .object entries ∧
      ∀ name ∈ OrderedMap.keys entries, name ∈ OrderedMap.keys components.schemas := by
  obtain ⟨fields, isFields, isRead⟩ := bind_eq_ok.mp ok
  obtain ⟨members, rfl, ⟨declares, -, -⟩⟩ := splits_of_ofOpen isFields
  simp only [bind_eq_ok] at isRead
  obtain ⟨schemas, areSchemas, parameters, areParameters, headers, areHeaders, returned⟩ := isRead
  cases returned
  refine ⟨fun schema member => ?_, fun source => declares.keys (by decide) areSchemas⟩
  rcases List.mem_append.mp member with earlier | isHeader
  · rcases List.mem_append.mp earlier with isSchema | isParameter
    · exact ⟨"schemas", by decide, declares.entries (by decide) Schema.cites_read areSchemas
        (by rwa [List.flatMap_singleton'])⟩
    · exact ⟨"parameters", by decide,
        declares.entries (by decide) Parameter.cites_read areParameters isParameter⟩
  · exact ⟨"headers", by decide, declares.entries (by decide) Header.cites_read areHeaders isHeader⟩

end Model

/-- Where the schemas of a document and the names of its components are read from. -/
structure ReadFrom (spec : Spec) (json : Json) : Prop where
  paths : ∃ source, json.get? "paths" = some source ∧
    Covered (spec.paths.values.flatMap PathItem.schemas) source
  components : ∀ schema ∈ spec.components.schemasInside, ∃ name ∈ Reference.sections, ∃ entries,
    Reference.section? json name = some (.object entries) ∧
      ∃ entry ∈ entries, Covered [schema] entry.2
  names : ∀ source, Reference.section? json "schemas" = some source →
    ∃ entries, source = .object entries ∧
      ∀ name ∈ OrderedMap.keys entries, name ∈ OrderedMap.keys spec.components.schemas

/-- The schemas of a document cite the parts of it that they were read from. -/
theorem Spec.readFrom {json : Json} {spec : Spec} (ok : Document.ofJson Spec.read json = .ok spec) :
    ReadFrom spec json := by
  obtain ⟨fields, isFields, isRead⟩ := bind_eq_ok.mp ok
  obtain ⟨members, rfl, ⟨declares, -, -⟩⟩ := splits_of_ofOpen isFields
  simp only [bind_eq_ok] at isRead
  obtain ⟨version, -, info, -, paths, arePaths, components, areComponents, returned⟩ := isRead
  cases returned
  have fromPaths : ∃ source, OrderedMap.get? members "paths" = some source ∧
      Covered (paths.values.flatMap PathItem.schemas) source := by
    unfold Fields.required at arePaths
    rw [declares.declared "paths" (by decide), declares.mode] at arePaths
    cases found : OrderedMap.get? members "paths" with
    | none =>
      rw [found] at arePaths
      cases arePaths
    | some source =>
      rw [found] at arePaths
      exact ⟨source, rfl, PathItem.cites_read.map source paths arePaths⟩
  rcases (declares.withDefault (by decide)).mp areComponents with ⟨absent, rfl⟩ | ⟨source, found, isRead⟩
  · have noSection (name : String) : Reference.section? (.object members) name = none :=
      Option.bind_eq_none_iff.mpr fun _ found => by cases absent.symm.trans found
    refine ⟨fromPaths, fun schema member => (by cases member), fun source given => ?_⟩
    rw [noSection] at given
    cases given
  · have sections (name : String) :
        Reference.section? (.object members) name = source.get? name := by
      rw [Reference.section?, show Json.get? (.object members) "components" = some source from found,
        Option.bind_some]
    obtain ⟨covered, named⟩ := Components.reads isRead
    refine ⟨fromPaths, fun schema member => ?_, fun content given => ?_⟩
    · obtain ⟨name, listed, entries, held, entry⟩ := covered schema member
      exact ⟨name, listed, entries, (sections name).trans held, entry⟩
    · exact named content ((sections "schemas").symm.trans given)

end ServiceForge.OpenApi
