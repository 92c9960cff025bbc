/-
This file says when a request is built from the properties of its body. It has a field
for each of them that can be set if the body or one of its direct parts is an object;
otherwise it has none, or carries the body as one value. A body without a type that is
only a union of one branch is a value if the union is written as `oneOf`, and is left out
if it is written as `anyOf`. Otherwise the keyword of such a union does not matter.
-/

import ServiceForge.Proofs.Lowering.Fields
import ServiceForge.Proofs.Sdk.Members

namespace ServiceForge.Lowering

open ServiceForge.OpenApi (Schema Spec)

/-! ### Unions under the other keyword -/

/-- A schema with its union written under the other keyword. -/
def respelled (schema : Schema) : Schema :=
  { schema with oneOf := schema.anyOf, anyOf := schema.oneOf }

section Respelled

variable {spec : Spec} {context : Context} {recur : Recur} {schema whole branch : Schema}
  {hint : String}

theorem size_respelled (schema : Schema) : (respelled schema).size = schema.size := by
  rw [Schema.size_eq, Schema.size_eq schema]
  simp only [respelled]
  omega

theorem foldl_mergePart_respelled (parts : List Schema) (start : Schema) :
    parts.foldl mergePart (respelled start) = respelled (parts.foldl mergePart start) := by
  induction parts generalizing start with
  | nil => rfl
  | cons part rest inductionHypothesis => exact inductionHypothesis (mergePart start part)

/-- Merging parts into a schema in the other spelling gives the other spelling of what they merge
to. -/
theorem mergeParts_respelled (schema : Schema) (parts : List Schema) :
    mergeParts (respelled schema) parts = respelled (mergeParts schema parts) := by
  have folded := foldl_mergePart_respelled parts { schema with allOf := [] }
  have completed (whole : Schema) :
      completeType (respelled whole) = respelled (completeType whole) := by
    unfold completeType respelled
    simp only
    split <;> rfl
  rw [mergeParts, mergeParts, ← completed, ← folded]
  rfl

/-- Merging does not look at the union of a schema. -/
theorem mergeWithin_respelled (spec : Spec) (limit : Nat) (schema : Schema) :
    mergeWithin spec limit (respelled schema) =
      (mergeWithin spec limit schema).map respelled := by
  cases limit with
  | zero => rfl
  | succ limit =>
    have parts : (respelled schema).allOf = schema.allOf := rfl
    rw [mergeWithin_succ, mergeWithin_succ, parts]
    cases schema.allOf.mapM (givePart spec limit) with
    | error failure => rfl
    | ok given => exact congrArg Except.ok (mergeParts_respelled schema given)

/-- The other spelling of a schema is merged to the other spelling of what it is merged to. -/
theorem mergeAllOf_respelled (spec : Spec) (schema : Schema) :
    mergeAllOf spec (respelled schema) = (mergeAllOf spec schema).map respelled := by
  unfold mergeAllOf
  rw [size_respelled, mergeWithin_respelled]

/-- A merged schema has the union of the schema itself. -/
theorem union_of_mergeAllOf (merged : mergeAllOf spec schema = .ok whole) :
    whole.oneOf = schema.oneOf ∧ whole.anyOf = schema.anyOf := by
  have folded : ∀ (parts : List Schema) (start : Schema),
      (parts.foldl mergePart start).oneOf = start.oneOf ∧
        (parts.foldl mergePart start).anyOf = start.anyOf := by
    intro parts
    induction parts with
    | nil => exact fun start => ⟨rfl, rfl⟩
    | cons part rest inductionHypothesis =>
      exact fun start => inductionHypothesis (mergePart start part)
  have completed (whole : Schema) :
      (completeType whole).oneOf = whole.oneOf ∧ (completeType whole).anyOf = whole.anyOf := by
    unfold completeType
    split <;> exact ⟨rfl, rfl⟩
  rw [mergeAllOf, mergeWithin_succ] at merged
  obtain ⟨parts, -, returned⟩ := bind_eq_ok.mp merged
  cases returned
  obtain ⟨oneOf, anyOf⟩ := folded parts { schema with allOf := [] }
  exact ⟨(completed _).1.trans oneOf, (completed _).2.trans anyOf⟩

/-- A union of one branch besides null that is written as `oneOf`. -/
structure OnlyBranch (schema branch : Schema) : Prop where
  anyOf : schema.anyOf = []
  branches : schema.nonNullBranches = [branch]

theorem OnlyBranch.oneOf_ne_nil (only : OnlyBranch schema branch) : schema.oneOf ≠ [] := by
  intro none
  have branches := only.branches
  rw [Schema.nonNullBranches, Schema.branches, none, only.anyOf] at branches
  cases branches

theorem OnlyBranch.branches_respelled (only : OnlyBranch schema branch) :
    (respelled schema).branches = schema.branches := by
  have union : (respelled schema).branches = schema.oneOf := by
    show (if schema.anyOf.isEmpty then schema.oneOf else schema.anyOf) = _
    rw [only.anyOf]
    rfl
  rw [union, Schema.branches, if_neg (by simpa using only.oneOf_ne_nil)]

/-- Merging keeps the only branch of a union. -/
theorem OnlyBranch.of_mergeAllOf (only : OnlyBranch schema branch)
    (merged : mergeAllOf spec schema = .ok whole) : OnlyBranch whole branch := by
  obtain ⟨oneOf, anyOf⟩ := union_of_mergeAllOf merged
  refine ⟨anyOf.trans only.anyOf, ?_⟩
  rw [← only.branches, Schema.nonNullBranches, Schema.nonNullBranches, Schema.branches,
    Schema.branches, oneOf, anyOf]

/-- A union with one branch is lowered alike in both spellings, by its form. -/
theorem OnlyBranch.lowerPlain_respelled (only : OnlyBranch schema branch) (context : Context)
    (recur : Recur) (hint : String) :
    lowerPlain context recur (respelled schema) hint = lowerPlain context recur schema hint := by
  have isUnion : (!schema.oneOf.isEmpty || !schema.anyOf.isEmpty) = true := by
    simp [only.oneOf_ne_nil]
  have isUnionToo : (!(respelled schema).oneOf.isEmpty || !(respelled schema).anyOf.isEmpty) =
      true := (Bool.or_comm _ _).trans isUnion
  have branches : (respelled schema).nonNullBranches = [branch] := by
    rw [← only.branches, Schema.nonNullBranches, only.branches_respelled, Schema.nonNullBranches]
  unfold lowerPlain lowerUnion Schema.hasNullBranch
  rw [if_pos isUnion, if_pos isUnionToo, branches, only.branches, only.branches_respelled]

/-- A union of one branch is lowered alike under both keywords. -/
theorem OnlyBranch.lowerWithin_respelled (only : OnlyBranch schema branch) (context : Context)
    (limit : Nat) (hint : String) :
    lowerWithin context limit (respelled schema) hint = lowerWithin context limit schema hint := by
  -- No name is claimed for the union: that would tell the two schemas apart.
  induction limit generalizing schema with
  | zero => rfl
  | succ limit inductionHypothesis =>
    have reference : (respelled schema).referenceName? = schema.referenceName? := rfl
    have foreign : (respelled schema).reference = schema.reference := rfl
    have allOf : (respelled schema).allOf = schema.allOf := rfl
    have nullable : (respelled schema).isNullable = schema.isNullable := rfl
    show lowerStep _ _ _ _ = lowerStep _ _ _ _
    unfold lowerStep
    rw [reference, foreign, allOf, nullable, mergeAllOf_respelled, only.lowerPlain_respelled]
    cases merged : mergeAllOf context.spec schema with
    | error failure => rfl
    | ok whole =>
      have same := inductionHypothesis (only.of_mergeAllOf merged)
      have settled : (settle (Except.map respelled (.ok whole)) >>= fun whole =>
          lowerWithin context limit whole hint) =
            (settle (.ok whole) >>= fun whole => lowerWithin context limit whole hint) := same
      rw [settled]

/-- A union with one branch is lowered alike in both spellings. -/
theorem OnlyBranch.lower_respelled (only : OnlyBranch schema branch) (context : Context)
    (hint : String) : lower context (respelled schema) hint = lower context schema hint := by
  unfold lower depthLimit
  rw [size_respelled, only.lowerWithin_respelled]

theorem lowerProperties_respelled (context : Context) (recur : Recur) (schema : Schema)
    (owner : String) (fields : List Field) (properties : List (String × Schema)) :
    lowerProperties context recur (respelled schema) owner fields properties =
      lowerProperties context recur schema owner fields properties := by
  induction properties generalizing fields with
  | nil => rfl
  | cons property rest inductionHypothesis =>
    have required (name : String) : (respelled schema).isRequired name = schema.isRequired name :=
      rfl
    unfold lowerProperties
    simp only [inductionHypothesis, required]

/-- The fields of an object do not depend on a union. -/
theorem lowerFields_respelled (context : Context) (schema : Schema) (owner : String) :
    lowerFields context (respelled schema) owner = lowerFields context schema owner := by
  have allOf : (respelled schema).allOf = schema.allOf := rfl
  unfold lowerFields lowerFieldsWith
  rw [allOf, mergeAllOf_respelled]
  split
  · exact lowerProperties_respelled context _ schema owner [] schema.properties
  · cases mergeAllOf context.spec schema with
    | error failure => rfl
    | ok whole => exact lowerProperties_respelled context _ whole owner [] whole.properties

end Respelled

end ServiceForge.Lowering

namespace ServiceForge.Sdk

open ServiceForge.Generation
open ServiceForge.Lowering (Field Lower MergeOrder OnlyBranch State bind_pure_run bind_run
  bind_run_of_ok definedNames lastDefinition? respelled run_bind_eq_ok)
open ServiceForge.OpenApi (PathItem PlacedOperation Schema)

/-! ### The body of a variant -/

section Bodies

variable {request : OperationRequest} {placed : PlacedOperation} {kind : Kind}
  {sent : Option Schema} {variant : Variant} {schema : Schema} {key : Option String}

/-- The body of a request is lowered after its parameters. -/
def bodyOf (request : OperationRequest) (placed : PlacedOperation) (schema : Schema) :
    Except GenerationError Body :=
  (do
    let _ ← lowerAllBindings request placed
    lowerBody request schema : Lower Body) {} |>.1

/-- A body is lowered after the parameters of its operation. -/
theorem bodyOf_eq_ok {body : Body} :
    bodyOf request placed schema = .ok body ↔
      ∃ bindings state after, lowerAllBindings request placed {} = (.ok bindings, state) ∧
        lowerBody request schema state = (.ok body, after) := by
  unfold bodyOf
  constructor
  · intro given
    obtain ⟨bindings, state, bound, lowered⟩ := run_bind_eq_ok.mp (Prod.ext given rfl)
    exact ⟨bindings, state, _, bound, lowered⟩
  · rintro ⟨bindings, state, after, bound, lowered⟩
    rw [bind_run_of_ok bound, lowered]

/-- Completing a context leaves its body as it is. -/
theorem map_body_complete (request : OperationRequest) (lowering : Lower Context) :
    (complete request lowering).map Context.body = (lowering {}).1.map Context.body := by
  have completed : complete request lowering = (lowering {}).1.map fun context =>
      { context with
        imports := (lowering {}).2.imports
        types := .ofState (loweringContext request) (lowering {}).2 } := rfl
  rw [completed]
  cases (lowering {}).1 <;> rfl

theorem withBody_run (payload : variant.payload? request.resource.leaf = some (schema, key))
    (context : Context) (state : State) :
    withBody request (.json sent) variant context state =
      ((lowerBody request schema state).1.map fun body => { context with
          mediaType := some OpenApi.MediaType.json
          requestKey := request.parameters.requestKey.or key
          body },
        (lowerBody request schema state).2) := by
  unfold withBody
  simp only
  rw [payload]
  exact bind_pure_run _ _ state

/-- Of a variant only its payload matters to the body. -/
theorem map_body_ofVariant
    (payload : variant.payload? request.resource.leaf = some (schema, key)) :
    (ofVariant request placed kind (.json sent) variant).map Context.body =
      bodyOf request placed schema := by
  unfold ofVariant bodyOf
  rw [map_body_complete, bind_run, bind_run]
  rcases lowerAllBindings request placed {} with ⟨failure | bindings, state⟩
  · rfl
  simp only
  rw [bind_run, withBody_run payload]
  rcases lowerBody request schema state with ⟨failure | body, after⟩
  · rfl
  · cases kind.isList <;> rfl

/-- The properties of layers that can be set. -/
def writableNames (layers : List Schema) : List String :=
  (definedNames layers).filter fun name =>
    (lastDefinition? layers name).all fun property => property.readOnly ≠ some true

/-- The fields of a merged body are those that can be written in its layers. -/
theorem keys_settable {layers : List Schema} {whole : Schema} (request : OperationRequest)
    (combines : Lowering.Combines lastDefinition? layers whole) :
    OrderedMap.keys (Lowering.settable (loweringContext request) whole.properties) =
      writableNames layers := by
  rw [writableNames, ← combines.names, OrderedMap.keys, OrderedMap.keys, List.filter_map]
  refine congrArg (List.map Prod.fst) (List.filter_congr fun property member => ?_)
  rw [Function.comp_apply, combines.pick_of_mem member]
  simp [loweringContext]

/-- A body that is no object has no fields if nothing tells its type, and is a value otherwise. -/
theorem lowerBody_of_not_hasFields {state after : State} {body : Body}
    (object : ¬ hasFields schema = true)
    (ran : lowerBody request schema state = (.ok body, after)) :
    schema.type = none ∧ schema.oneOf = [] ∧ body = .fields [] ∨
      (schema.type = none → schema.oneOf ≠ []) ∧ ∃ type, body = .value type := by
  unfold lowerBody at ran
  rw [if_neg object] at ran
  by_cases free : (schema.type.isNone && schema.oneOf.isEmpty) = true
  · rw [if_pos free] at ran
    cases ran
    obtain ⟨untyped, none⟩ : schema.type = none ∧ schema.oneOf = [] := by simpa using free
    exact Or.inl ⟨untyped, none, rfl⟩
  · rw [if_neg free] at ran
    obtain ⟨type, middle, -, returned⟩ := run_bind_eq_ok.mp ran
    cases returned
    exact Or.inr ⟨by simpa using free, type, rfl⟩

/-- A body has a field for each property that can be set if it or a direct part of it is an object,
or if there is nothing to lower. -/
theorem fields_of_lowerBody_iff {state after : State} {body : Body} {layers : List Schema}
    (components : ∀ name target, request.spec.schema? name = some target → target.Keyed)
    (keyed : schema.Keyed) (isLayers : MergeOrder request.spec schema layers)
    (ran : lowerBody request schema state = (.ok body, after)) :
    (∃ fields, body = .fields fields ∧ fields.map Field.wireName = writableNames layers) ↔
      hasFields schema = true ∨
        schema.type = none ∧ schema.oneOf = [] ∧ writableNames layers = [] := by
  by_cases object : hasFields schema = true
  · unfold lowerBody at ran
    rw [if_pos object] at ran
    obtain ⟨fields, middle, lowered, returned⟩ := run_bind_eq_ok.mp ran
    cases returned
    refine iff_of_true ⟨fields, rfl, ?_⟩ (Or.inl object)
    obtain ⟨others, whole, types, isOthers, combines, -, wireNames, -⟩ :=
      Lowering.exists_layers_of_lowerFields components keyed lowered
    rw [isLayers.unique isOthers, wireNames, keys_settable request combines]
  rcases lowerBody_of_not_hasFields object ran with ⟨untyped, none, rfl⟩ | ⟨told, type, rfl⟩
  · constructor
    · rintro ⟨fields, same, names⟩
      cases same
      exact Or.inr ⟨untyped, none, names.symm⟩
    · rintro (isObject | ⟨-, -, names⟩)
      · exact absurd isObject object
      · exact ⟨[], rfl, names.symm⟩
  · refine iff_of_false ?_ ?_
    · rintro ⟨fields, same, -⟩
      cases same
    · rintro (isObject | ⟨untyped, none, -⟩)
      · exact object isObject
      · exact told untyped none

/-! ### Unions of one branch -/

section Unions

variable {branch : Schema}

/-- A body with one branch is lowered alike in both spellings, if its fields or type are told. -/
theorem lowerBody_respelled (only : OnlyBranch schema branch)
    (told : schema.type ≠ none ∨ hasFields schema = true) :
    lowerBody request (respelled schema) = lowerBody request schema := by
  have object : hasFields (respelled schema) = hasFields schema := rfl
  have type : (respelled schema).type = schema.type := rfl
  unfold lowerBody
  simp only [object, type, Lowering.lowerFields_respelled, only.lower_respelled]
  rcases told with typed | isObject
  · simp [typed]
  · rw [if_pos isObject, if_pos isObject]

/-- If a union of one branch has a body then it has the same one under the other keyword exactly if
something besides the union tells what it is. -/
theorem bodyOf_respelled_iff (only : OnlyBranch schema branch) {body : Body}
    (given : bodyOf request placed schema = .ok body) :
    bodyOf request placed (respelled schema) = .ok body ↔
      schema.type ≠ none ∨ hasFields schema = true := by
  constructor
  · intro same
    by_contra untold
    obtain ⟨untyped, object⟩ : schema.type = none ∧ ¬ hasFields schema = true := by
      simpa only [not_or, not_not] using untold
    obtain ⟨_, _, _, bound, ran⟩ := bodyOf_eq_ok.mp given
    obtain ⟨_, _, _, boundToo, ranToo⟩ := bodyOf_eq_ok.mp same
    cases bound.symm.trans boundToo
    rcases lowerBody_of_not_hasFields object ran with ⟨-, none, -⟩ | ⟨-, type, rfl⟩
    · exact only.oneOf_ne_nil none
    have objectToo : ¬ hasFields (respelled schema) = true := object
    rcases lowerBody_of_not_hasFields objectToo ranToo with ⟨-, -, same⟩ | ⟨told, -⟩
    · cases same
    · exact told untyped only.anyOf
  · intro told
    unfold bodyOf
    rw [lowerBody_respelled only told]
    exact given

end Unions

/-- The body of a variant whose payload is known. It consists of fields for exactly the properties
that can be set, in order, if the payload or one of its direct parts is an object; otherwise only if
there are no such properties and neither a type nor `oneOf` says what the payload is. A payload that
is a union of one branch besides null gives the same body under the keyword `anyOf` as under `oneOf`
exactly if it has a type, or it or one of its direct parts is an object. -/
theorem body_fields_and_keyword_iff {context : Context}
    (components : ∀ name target, request.spec.schema? name = some target → target.Keyed)
    (payload : variant.payload? request.resource.leaf = some (schema, key))
    (keyed : schema.Keyed)
    (given : ofVariant request placed kind (.json sent) variant = .ok context) :
    (∀ layers, MergeOrder request.spec schema layers →
      ((∃ fields, context.body = .fields fields ∧
          fields.map Field.wireName = writableNames layers) ↔
        hasFields schema = true ∨
          schema.type = none ∧ schema.oneOf = [] ∧ writableNames layers = [])) ∧
      ∀ branch other otherSent otherKey, OnlyBranch schema branch →
        other.payload? request.resource.leaf = some (respelled schema, otherKey) →
          ((ofVariant request placed kind (.json otherSent) other).map Context.body =
              .ok context.body ↔
            schema.type ≠ none ∨ hasFields schema = true) := by
  have body : bodyOf request placed schema = .ok context.body := by
    rw [← map_body_ofVariant payload, given]
    rfl
  refine ⟨fun layers isLayers => ?_, fun branch other otherSent otherKey only found => ?_⟩
  · obtain ⟨_, _, _, -, ran⟩ := bodyOf_eq_ok.mp body
    exact fields_of_lowerBody_iff components keyed isLayers ran
  · rw [map_body_ofVariant found]
    exact bodyOf_respelled_iff only body

end Bodies

/-- The operation that makes a zone with the given body. -/
def createZone (schema : Schema) : OpenApi.Operation where
  id := some "create"
  requestBody := some { content := [(OpenApi.MediaType.json, { schema := some schema })] }
  responses := [("204", { description := some "Made" })]

/-- A request for that operation. -/
def zoneRequest (schema : Schema) : OperationRequest where
  spec := {
    version := "3.1.0"
    paths := [("/v2/zones", PathItem.setOperation {} .post (createZone schema))] }
  resource := ⟨"dns", "zones"⟩
  operation := "create"

/-- The operation in its place. -/
def placedZone (schema : Schema) : PlacedOperation where
  path := "/v2/zones"
  method := .post
  item := PathItem.setOperation {} .post (createZone schema)
  operation := createZone schema

/-- A zone in one form besides null, with a label that is told in a part of a part. -/
def zoneSchema : Schema where
  type := some (.multiple ["object", "null"])
  oneOf := [{ required := ["label"] }, .ofType "null"]
  allOf := [
    { allOf := [{ properties := [("label", .ofType "string")] }] },
    { properties := [("id", { readOnly := some true }), ("ttl", .ofType "integer")] }]

theorem zoneSchema_keyed : zoneSchema.Keyed := by
  have scalar := Schema.keyed_ofType
  refine .of_parts ⟨by decide, nofun, nofun, rfl⟩ (List.forall_mem_cons.mpr ⟨?_,
    List.forall_mem_cons.mpr ⟨scalar _, List.forall_mem_cons.mpr
      ⟨?_, List.forall_mem_singleton.mpr ?_⟩⟩⟩)
  · exact .of_parts ⟨by decide, nofun, nofun, rfl⟩ nofun
  · refine .of_parts ⟨by decide, nofun, nofun, rfl⟩ (List.forall_mem_singleton.mpr ?_)
    exact .of_parts ⟨by decide, nofun, nofun, rfl⟩ (List.forall_mem_singleton.mpr (scalar _))
  · refine .of_parts ⟨by decide, nofun, nofun, rfl⟩ (List.forall_mem_cons.mpr
      ⟨?_, List.forall_mem_singleton.mpr (scalar _)⟩)
    exact .of_parts ⟨by decide, nofun, nofun, rfl⟩ nofun

/-- The variant of the operation with a body. -/
def zoneVariant (schema : Schema) : Variant := { moduleName := "create", body := some schema }

/-- The context of the operation with a body in place of its own. -/
def zoneContext (schema : Schema) : Except GenerationError Context :=
  ofVariant (zoneRequest zoneSchema) (placedZone zoneSchema) .create (.json (some schema))
    (zoneVariant schema)

theorem body_fields_and_keyword_iff_zone :
    ∃ context, zoneContext zoneSchema = .ok context ∧
      (∃ fields, context.body = .fields fields ∧ fields.map Field.wireName = ["label", "ttl"]) ∧
      (zoneContext (respelled zoneSchema)).map Context.body = .ok context.body := by
  have components (name : String) (target : Schema)
      (found : (zoneRequest zoneSchema).spec.schema? name = some target) : target.Keyed := by
    cases found
  have returns : (zoneContext zoneSchema).toOption.isSome = true := by decide +kernel
  obtain ⟨context, returned⟩ := Option.isSome_iff_exists.mp returns
  have given := toOption_eq_some.mp returned
  have payload : (zoneVariant zoneSchema).payload? (zoneRequest zoneSchema).resource.leaf =
      some (zoneSchema, none) := rfl
  obtain ⟨fields, keyword⟩ :=
    body_fields_and_keyword_iff components payload zoneSchema_keyed given
  refine ⟨context, given, ?_, ?_⟩
  · have isLayers : MergeOrder (zoneRequest zoneSchema).spec zoneSchema _ :=
      .mk (.cons rfl (.mk (.cons rfl (.mk .nil) .nil)) (.cons rfl (.mk .nil) .nil))
    exact (fields _ isLayers).mpr (Or.inl (by decide))
  · exact (keyword { required := ["label"] } (zoneVariant (respelled zoneSchema)) _ _
      ⟨rfl, rfl⟩ rfl).mpr (Or.inl nofun)

/-- A zone whose only property is told in a part of a part. -/
def labelledZone : Schema where
  allOf := [{ allOf := [{ properties := [("label", .ofType "string")] }] }]

/-- A text or null. -/
def optionalText : Schema := { oneOf := [.ofType "string", .ofType "null"] }

/-- Properties of deeper parts are lost, and the keyword of a union without a type matters. -/
theorem body_lost :
    (contexts (zoneRequest labelledZone)).toOption.map (List.map Context.body) =
        some [.fields []] ∧
      (∃ layers, MergeOrder (zoneRequest labelledZone).spec labelledZone layers ∧
        writableNames layers = ["label"]) ∧
      (contexts (zoneRequest optionalText)).toOption.map (List.map Context.body) =
        some [.value (.optional .text)] ∧
      (contexts (zoneRequest (respelled optionalText))).toOption.map (List.map Context.body) =
        some [.fields []] := by
  refine ⟨by decide +kernel, ⟨_, .mk (.cons rfl (.mk (.cons rfl (.mk .nil) .nil)) .nil), ?_⟩,
    by decide +kernel, by decide +kernel⟩
  decide

end ServiceForge.Sdk
