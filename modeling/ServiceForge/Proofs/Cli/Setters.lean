/-
This file says which setters of the client library the commands of an operation call,
and which of these there are. The setters for parameters are all there. The setter for
an argument of the body is that of its property, but the client library has it only if
it reads the body as an object too, lets the property be set, and has no property named
alike before it.
-/

import ServiceForge.Proofs.Cli.Wrapping
import ServiceForge.Proofs.Sdk.MemberNames

namespace ServiceForge.Cli

open ServiceForge.Generation
open ServiceForge.Lowering (Binding Field State fieldNames propertyNames lowerFields_names)
open ServiceForge.OpenApi (PathItem PlacedOperation Schema Spec)
open ServiceForge.Source
open ServiceForge.Text

/-! ### Calls of setters -/

/-- A statement that passes an argument to a setter, perhaps only if the argument is there. -/
structure Call where
  setter : String
  /-- The wire name of the argument. -/
  wireName : String
  value : String
  /-- The argument that has to be there, in which case the value is taken from it. -/
  optional : Option String := none

namespace Call

/-- The lines of a call, which is made only if its argument is given. -/
def lines (call : Call) : List String :=
  let statement := "ep_builder." ++ call.setter ++ "(" ++ call.value ++ ");"
  match call.optional with
  | none => ["        " ++ statement]
  | some argument =>
    ["        if let Some(val) = &" ++ argument ++ " \x7b", "            " ++ statement,
      "        \x7d"]

/-- The member that the setter should set. -/
def entry (call : Call) : String × String := (call.setter, call.wireName)

/-- The call that hands over a part of the path. -/
def ofPath (binding : Binding) : Call :=
  { setter := binding.name, wireName := binding.wireName, value := "&self.path." ++ binding.name }

/-- The call that hands over an argument of the query. -/
def ofQuery (binding : Binding) : Call :=
  { setter := binding.name
    wireName := binding.wireName
    value := setterValue "val" binding.type
    optional := some ("self.query." ++ binding.name) }

/-- The call that hands over a field of the body. -/
def ofField (field : Field) : Call :=
  let taken := if field.type.isOptional then "val" else "&self." ++ field.name
  { setter := trimEnd (· = '_') field.name
    wireName := field.wireName
    value := setterValue taken field.type
    optional := if field.type.isOptional then some ("self." ++ field.name) else none }

theorem lines_ofPath (binding : Binding) :
    (ofPath binding).lines = [setPath "ep_builder" binding] := by
  simp [lines, ofPath, setPath, ← String.toList_inj]

theorem lines_ofQuery (binding : Binding) : (ofQuery binding).lines = setQuery binding := by
  simp [lines, ofQuery, setQuery, ← String.toList_inj]

theorem lines_ofField (field : Field) : (ofField field).lines = setField field := by
  unfold lines ofField setField
  cases field.type.isOptional <;> simp [← String.toList_inj]

end Call

namespace Context

/-- The calls for the parameters of a command. -/
def parameterCalls (context : Context) : List Call :=
  context.pathBindings.map .ofPath ++ context.queryBindings.map .ofQuery

/-- The calls for the arguments of the body, which are part of the patch if there is one. -/
def bodyCalls (context : Context) : List Call :=
  if context.shape = .patch then [] else context.bodyFields.map .ofField

/-- All calls that a command makes on the builder of its endpoint. -/
def calls (context : Context) : List Call := context.parameterCalls ++ context.bodyCalls

/-- A command calls the setters one after another. -/
theorem calls_infix (context : Context) :
    forEach context.calls Call.lines <:+: actionLines context := by
  have path : forEach (context.pathBindings.map .ofPath) Call.lines =
      context.pathBindings.map (setPath "ep_builder") := by
    unfold forEach
    rw [List.flatMap_map]
    simp only [Call.lines_ofPath]
    exact List.map_eq_flatMap.symm
  have query : forEach (context.queryBindings.map .ofQuery) Call.lines =
      forEach context.queryBindings setQuery := by
    unfold forEach
    simp only [List.flatMap_map, Call.lines_ofQuery]
  have body : forEach (context.bodyFields.map .ofField) Call.lines =
      forEach context.bodyFields setField := by
    unfold forEach
    simp only [List.flatMap_map, Call.lines_ofField]
  have whole : forEach context.calls Call.lines =
      context.pathBindings.map (setPath "ep_builder") ++ forEach context.queryBindings setQuery ++
        forEach context.bodyCalls Call.lines := by
    rw [← path, ← query]
    simp [calls, parameterCalls, forEach]
  rw [whole]
  unfold actionLines bodyCalls
  by_cases patched : context.shape = .patch
  · rw [if_pos patched, if_pos patched]
    exact ⟨_, _, by
      simp only [List.append_assoc]
      rfl⟩
  · rw [if_neg patched, if_neg patched, body]
    exact ⟨_, _, by
      simp only [List.append_assoc]
      rfl⟩

end Context

/-! ### Arguments of the body -/

/-- The properties of a variant's body that a command has arguments for. -/
def argumentNames (request : OperationRequest) (variant : Variant) : List String :=
  match variant.payload? (leaf request) with
  | some (schema, _) =>
    if schema.isObject || !schema.allOf.isEmpty then
      propertyNames ⟨request.spec, .cliRequest⟩ schema
    else []
  | none => []

section Bodies

variable {sdkCrate : String} {request : OperationRequest} {placed : PlacedOperation} {kind : Kind}
  {media : RequestMedia} {variant : Variant}

theorem lowerBody_names {shape : Shape} {response : Option Schema} {state after : State}
    {fields : List Field} (sent : shape ≠ .patch)
    (ran : lowerBody request shape response variant state = (.ok fields, after)) :
    fields.map (fun field => (field.name, field.wireName)) =
      fieldNames [] (argumentNames request variant) := by
  unfold argumentNames
  have same : lowerBody request shape response variant =
      lowerBody request .single response variant := by
    cases shape with
    | patch => exact absurd rfl sent
    | _ => rfl
  rw [same] at ran
  unfold lowerBody at ran
  simp only at ran
  cases payload : variant.payload? (leaf request) with
  | none =>
    rw [payload] at ran
    cases ran
    rfl
  | some found =>
    simp only [payload] at ran ⊢
    by_cases object : (found.1.isObject || !found.1.allOf.isEmpty) = true
    · rw [if_pos object] at ran ⊢
      exact lowerFields_names ran
    · rw [if_neg object] at ran ⊢
      cases ran
      rfl

/-- The mark of a reserved name is taken off with the others. -/
theorem entry_ofField_markReserved (field : Field) :
    (Call.ofField (markReserved field)).entry = (trimEnd (· = '_') field.name, field.wireName) := by
  unfold markReserved
  split
  · exact congrArg (·, field.wireName) (trimEnd_append_mark field.name)
  · rfl

/-- A command passes each argument of its body to the setter named after the property. -/
theorem Made.entry_of_mem_bodyCalls {context : Context}
    (made : Made sdkCrate request placed kind media variant context) {call : Call}
    (member : call ∈ context.bodyCalls) :
    ∃ wireName ∈ argumentNames request variant,
      call.entry = (Naming.fieldName wireName, wireName) := by
  unfold Context.bodyCalls at member
  split at member
  · cases member
  next sent =>
    obtain ⟨_, _, fields, _, -, -, -, sentBody, whole⟩ := made.lowered
    rw [whole, List.map_map] at member
    obtain ⟨field, held, rfl⟩ := List.mem_map.mp member
    have named := List.mem_map_of_mem (f := fun field : Field => (field.name, field.wireName)) held
    rw [lowerBody_names sent sentBody] at named
    have listed := List.mem_map_of_mem (f := Prod.snd) named
    rw [Lowering.fieldNames_wireNames] at listed
    refine ⟨field.wireName, listed, ?_⟩
    rw [Function.comp_apply, entry_ofField_markReserved,
      Lowering.trimEnd_of_mem_fieldNames named]

/-! ### Bodies that are read alike -/

/-- A variant whose body the client library and the command line tool read alike: they find the same
payload and take the same for an object, every property can be set, and no two properties are named
alike. -/
structure ReadAlike (request : OperationRequest) (variant : Variant) : Prop where
  payload : variant.payload? (leaf request) = variant.payload? request.resource.leaf
  object : ∀ schema key, variant.payload? request.resource.leaf = some (schema, key) →
    schema.allOf ≠ [] → Sdk.hasFields schema = true
  settable : ∀ schema key whole, variant.payload? request.resource.leaf = some (schema, key) →
    Lowering.wholeOf ⟨request.spec, .sdk⟩ schema = .ok whole →
      ∀ property ∈ whole.properties, property.2.readOnly ≠ some true
  distinct : ((argumentNames request variant).map Naming.fieldName).Nodup

/-- Only a body in JSON has a variant with a payload. -/
theorem json_of_payload (member : variant ∈ Sdk.variantsOf request placed kind media)
    {leaf : String} (sent : variant.payload? leaf ≠ none) : ∃ schema, media = .json schema := by
  cases media with
  | json schema => exact ⟨schema, rfl⟩
  | _ =>
    cases List.mem_singleton.mp member
    exact absurd rfl sent

/-- If all properties can be set then the dialects agree on them. -/
theorem propertyNames_sdk {spec : Spec} {schema : Schema}
    (free : ∀ whole, Lowering.wholeOf ⟨spec, .sdk⟩ schema = .ok whole →
      ∀ property ∈ whole.properties, property.2.readOnly ≠ some true) :
    propertyNames ⟨spec, .sdk⟩ schema = propertyNames ⟨spec, .cliRequest⟩ schema := by
  have same : Lowering.wholeOf ⟨spec, .cliRequest⟩ schema = Lowering.wholeOf ⟨spec, .sdk⟩ schema :=
    rfl
  unfold propertyNames
  rw [same]
  cases merged : Lowering.wholeOf ⟨spec, .sdk⟩ schema with
  | error failure => rfl
  | ok whole =>
    refine congrArg (List.map Prod.fst) (List.filter_congr fun property held => ?_)
    simp [free whole merged property held]

/-- The arguments of a body that is read alike are for the properties that can be set. -/
theorem ReadAlike.settableNames (alike : ReadAlike request variant)
    (member : variant ∈ Sdk.variantsOf request placed kind media) :
    Sdk.settableNames request media variant = argumentNames request variant := by
  unfold Sdk.settableNames argumentNames
  rw [alike.payload]
  cases payload : variant.payload? request.resource.leaf with
  | none => cases media <;> rfl
  | some found =>
    obtain ⟨sent, rfl⟩ := json_of_payload member (payload ▸ Option.some_ne_none found)
    obtain ⟨schema, key⟩ := found
    have object : (schema.isObject || !schema.allOf.isEmpty) = Sdk.hasFields schema := by
      by_cases parts : schema.allOf = []
      · simp [Sdk.hasFields, parts]
      · simp [alike.object schema key payload parts, parts]
    simp only [object]
    split
    · exact propertyNames_sdk (alike.settable schema key · payload)
    · rfl

/-- A property is the first with its name if no other has that name. -/
theorem find?_fieldName_of_nodup {wireNames : List String} {wireName : String}
    (distinct : (wireNames.map Naming.fieldName).Nodup) (member : wireName ∈ wireNames) :
    wireNames.find? (fun other => Naming.fieldName other = Naming.fieldName wireName) =
      some wireName := by
  have some : (wireNames.find? fun other =>
      Naming.fieldName other = Naming.fieldName wireName).isSome = true :=
    List.find?_isSome.mpr ⟨wireName, member, decide_eq_true rfl⟩
  obtain ⟨found, taken⟩ := Option.isSome_iff_exists.mp some
  have alike : Naming.fieldName found = Naming.fieldName wireName := by
    simpa using List.find?_some taken
  rw [taken, List.inj_on_of_nodup_map distinct (List.mem_of_find?_eq_some taken) member alike]

/-! ### Commands beside modules -/

variable {other : Variant} {library : Sdk.Context} {tool : Context} {call : Call}

/-- The setters for parameters are all there. -/
theorem entry_of_mem_parameterCalls (madeLibrary : Sdk.Made request placed media variant library)
    (madeTool : Made sdkCrate request placed kind media other tool)
    (member : call ∈ tool.parameterCalls) : call.entry ∈ library.memberBindings.map names := by
  obtain ⟨bindings, _, _, _, _, bound, path, query, -⟩ := madeLibrary.lowered
  obtain ⟨others, _, _, _, boundToo, pathToo, queryToo, -⟩ := madeTool.lowered
  -- The names are those of the parameters, so it does not matter in which dialect they are lowered.
  have agree : ∀ location ∈ [OpenApi.Location.path, .query],
      (others.filter (·.location = location)).map names =
        (bindings.filter (·.location = location)).map names := by
    intro location listed
    have everywhere : location ∈ OpenApi.Location.all := by
      cases location <;> decide
    rw [lowerBindings_names listed boundToo, lowerBindings_names everywhere bound]
  unfold Sdk.Context.memberBindings
  rw [List.map_append, List.mem_append, path, query]
  unfold Context.parameterCalls at member
  rw [pathToo, queryToo] at member
  rcases List.mem_append.mp member with inPath | inQuery
  · obtain ⟨binding, held, rfl⟩ := List.mem_map.mp inPath
    have named := List.mem_map_of_mem (f := names) (mem_inPathOrder.mp held)
    rw [agree .path (by decide)] at named
    obtain ⟨own, kept, same⟩ := List.mem_map.mp named
    exact Or.inl (List.mem_map.mpr ⟨own, mem_inPathOrder.mpr kept, same⟩)
  · obtain ⟨binding, held, rfl⟩ := List.mem_map.mp inQuery
    have named := List.mem_map_of_mem (f := names) held
    rw [agree .query (by decide)] at named
    exact Or.inr named

/-- The setter for an argument of the body is there if its property is the first of those with its
name that can be set. -/
theorem entry_mem_members_iff (madeLibrary : Sdk.Made request placed media variant library)
    (madeTool : Made sdkCrate request placed kind media other tool)
    (member : call ∈ tool.bodyCalls) :
    call.entry ∈ library.members ↔ call.entry ∈ library.memberBindings.map names ∨
      (Sdk.settableNames request media variant).find?
        (fun wireName => Naming.fieldName wireName = call.setter) = some call.wireName := by
  obtain ⟨wireName, -, named⟩ := madeTool.entry_of_mem_bodyCalls member
  obtain ⟨setter, same⟩ := Prod.mk.inj named
  rw [named, setter, same, Sdk.Context.members, List.mem_append, madeLibrary.bodyMembers,
    Lowering.mem_fieldNames]
  simp only [List.not_mem_nil, not_false_eq_true, true_and]

/-- If the body is read alike then the setters for its arguments are all there. -/
theorem ReadAlike.entry_mem_members (alike : ReadAlike request variant)
    (chosen : variant ∈ Sdk.variantsOf request placed kind media)
    (same : variant.SameForm other)
    (madeLibrary : Sdk.Made request placed media variant library)
    (madeTool : Made sdkCrate request placed kind media other tool)
    (member : call ∈ tool.calls) : call.entry ∈ library.members := by
  rcases List.mem_append.mp member with bound | inBody
  · exact List.mem_append_left _ (entry_of_mem_parameterCalls madeLibrary madeTool bound)
  · obtain ⟨wireName, listed, named⟩ := madeTool.entry_of_mem_bodyCalls inBody
    obtain ⟨setter, rfl⟩ := Prod.mk.inj named
    have arguments : argumentNames request other = argumentNames request variant := by
      unfold argumentNames
      rw [Variant.payload?_congr same.body same.action]
    refine (entry_mem_members_iff madeLibrary madeTool inBody).mpr (Or.inr ?_)
    rw [alike.settableNames chosen, setter]
    exact find?_fieldName_of_nodup alike.distinct (arguments ▸ listed)

end Bodies

/-- The source of a command has its action. -/
theorem hasLines_action (tool : Context) : HasLines (render tool) (actionLines tool) := by
  unfold render
  refine hasLines_ofLines ?_
  unfold moduleLines
  exact (List.suffix_append _ _).isInfix

/-- Which of the setters that a command calls the request of a module has. -/
structure CallsMembers (request : OperationRequest) (media : RequestMedia) (variant : Variant)
    (library : Sdk.Context) (tool : Context) : Prop where
  called : forEach tool.calls Call.lines <:+: actionLines tool
  action : HasLines (render tool) (actionLines tool)
  declared : ∀ entry ∈ library.members, ∃ visibility type,
    "    " ++ visibility ++ entry.1 ++ ": " ++ type ++ "," ∈ Sdk.requestLines library
  struct : HasLines (Sdk.render library) (Sdk.requestLines library)
  parameters : ∀ call ∈ tool.parameterCalls, call.entry ∈ library.members
  /-- The property of an argument has to be the first of those with its name that can be set. -/
  arguments : ∀ call ∈ tool.bodyCalls,
    call.entry ∈ library.members ↔ call.entry ∈ library.memberBindings.map names ∨
      (Sdk.settableNames request media variant).find?
        (fun wireName => Naming.fieldName wireName = call.setter) = some call.wireName
  all : ReadAlike request variant → ∀ call ∈ tool.calls, call.entry ∈ library.members

/-- The commands of an operation call setters that the modules of the client library have: those for
parameters always, those for the body exactly as far as both read the body alike. -/
theorem commands_call_members {sdkCrate : String} {request : OperationRequest}
    {placed : PlacedOperation} {modules commands : List File}
    (found : request.placed = .ok placed) (plain : request.effectiveKind placed ≠ .find)
    (library : Sdk.generate request = .ok modules)
    (tool : generate sdkCrate request = .ok commands) :
    ∃ media, requestMedia placed request.operation = .ok media ∧
      List.Forall₂ (fun wrapped command => ∃ library tool,
        wrapped = .ofModule library.record (Sdk.render library) ∧
          command = .ofModule tool.record (render tool) ∧
          ∃ variant ∈ Sdk.variantsOf request placed (request.effectiveKind placed) media,
            Sdk.ofVariant request placed (request.effectiveKind placed) media variant =
              .ok library ∧
            CallsMembers request media variant library tool) modules commands := by
  obtain ⟨libraries, gathered, returned⟩ := bind_eq_ok.mp library
  obtain ⟨tools, gatheredToo, returnedToo⟩ := bind_eq_ok.mp tool
  cases returned
  cases returnedToo
  obtain ⟨media, sent, pairs⟩ := contexts_fromOneVariant found plain gathered gatheredToo
  refine ⟨media, sent, ?_⟩
  rw [List.forall₂_map_left_iff, List.forall₂_map_right_iff]
  refine pairs.imp fun library tool pair => ⟨library, tool, rfl, rfl, ?_⟩
  obtain ⟨variant, chosen, other, same, ofLibrary, ofTool⟩ := pair
  have madeLibrary := Sdk.made_of_ofVariant ofLibrary
  have madeTool := made_of_ofVariant ofTool
  exact ⟨variant, chosen, ofLibrary, {
    called := tool.calls_infix
    action := hasLines_action tool
    declared := fun _ => Sdk.declared_of_mem_members
    struct := hasLines_ofLines (Sdk.Context.requestLines_isInfix (Sdk.url_of_ofVariant ofLibrary).2)
    parameters := fun _ member =>
      List.mem_append_left _ (entry_of_mem_parameterCalls madeLibrary madeTool member)
    arguments := fun _ => entry_mem_members_iff madeLibrary madeTool
    all := fun alike _ => alike.entry_mem_members chosen same madeLibrary madeTool }⟩

/-- A tag with a label and an identifier, which perhaps can only be read. -/
def tag (readOnly : Option Bool) : Schema where
  type := some (.single "object")
  properties := [("id", { Schema.ofType "string" with readOnly }), ("label", .ofType "string")]

/-- The operation that makes a tag for a zone. -/
def createTag (readOnly : Option Bool) : OpenApi.Operation where
  id := some "create"
  parameters := [
    { name := "zone_id", location := .path, required := true, schema := some (.ofType "string") },
    { name := "dry-run", location := .query, schema := some (.ofType "boolean") }]
  requestBody := some { content := [(OpenApi.MediaType.json, { schema := some (tag readOnly) })] }
  responses := [("204", { description := some "Made" })]

/-- A request for that operation. -/
def zoneTags (readOnly : Option Bool) : OperationRequest where
  spec := {
    version := "3.1.0"
    paths := [("/v2/zones/\x7bzone_id\x7d/tags",
      PathItem.setOperation {} .post (createTag readOnly))] }
  resource := ⟨"dns", "zone/tags"⟩
  operation := "create"

/-- The operation in its place. -/
def placedTag (readOnly : Option Bool) : PlacedOperation where
  path := "/v2/zones/\x7bzone_id\x7d/tags"
  method := .post
  item := PathItem.setOperation {} .post (createTag readOnly)
  operation := createTag readOnly

theorem placed_zoneTags (readOnly : Option Bool) :
    (zoneTags readOnly).placed = .ok (placedTag readOnly) := rfl

/-- A tag that can be set as a whole is read alike. -/
theorem readAlike_tag {kind : Kind} {variant : Variant}
    (chosen : variant ∈ Sdk.variantsOf (zoneTags none) (placedTag none) kind
      (.json (some (tag none)))) : ReadAlike (zoneTags none) variant := by
  have leaf : leaf (zoneTags none) = (zoneTags none).resource.leaf := by decide +kernel
  have located : Resource.locate (tag none) (zoneTags none).resource.leaf =
      { schema := tag none } := by
    have unwrapped : Resource.wrapper? (tag none) (zoneTags none).resource.leaf = none :=
      Option.isNone_iff_eq_none.mp (by decide +kernel)
    unfold Resource.locate
    rw [unwrapped]
    rfl
  have payload : variant.payload? (zoneTags none).resource.leaf = some (tag none, none) := by
    cases List.mem_singleton.mp chosen
    simp only [Variant.payload?, Option.bind_eq_bind, Option.bind_some, located]
    rfl
  refine ⟨congrArg _ leaf, fun schema key sent parts => ?_, fun schema key whole sent merged => ?_,
    ?_⟩
  · cases payload.symm.trans sent
    exact absurd rfl parts
  · cases payload.symm.trans sent
    cases merged
    decide +kernel
  · unfold argumentNames
    rw [leaf, payload]
    decide +kernel

theorem commands_call_members_tags :
    (zoneTags none).placed = .ok (placedTag none) ∧
      (zoneTags none).effectiveKind (placedTag none) ≠ .find ∧
      ∃ modules commands, Sdk.generate (zoneTags none) = .ok modules ∧
        generate defaultSdkCrate (zoneTags none) = .ok commands ∧
        commands.map File.path = ["dns/v2/zone/tags/create.rs"] ∧
        List.Forall₂ (fun wrapped command => ∃ library tool,
          wrapped = .ofModule library.record (Sdk.render library) ∧
            command = .ofModule tool.record (render tool) ∧
            ∃ variant, ReadAlike (zoneTags none) variant ∧
              CallsMembers (zoneTags none) (.json (some (tag none))) variant library tool)
          modules commands := by
  have plain : (zoneTags none).effectiveKind (placedTag none) ≠ .find := by
    decide +kernel
  have library : (Sdk.generate (zoneTags none)).toOption.isSome = true := by decide +kernel
  have tool : (generate defaultSdkCrate (zoneTags none)).toOption.map (List.map File.path) =
      some ["dns/v2/zone/tags/create.rs"] := by decide +kernel
  obtain ⟨modules, made⟩ := Option.isSome_iff_exists.mp library
  obtain ⟨commands, wrapped, paths⟩ := Option.map_eq_some_iff.mp tool
  have generated := toOption_eq_some.mp made
  have generatedToo := toOption_eq_some.mp wrapped
  obtain ⟨media, sent, pairs⟩ :=
    commands_call_members (placed_zoneTags none) plain generated generatedToo
  refine ⟨placed_zoneTags none, plain, modules, commands, generated, generatedToo, paths, ?_⟩
  cases sent
  refine pairs.imp ?_
  rintro wrapped command ⟨library, tool, whole, wholeToo, variant, chosen, -, calls⟩
  exact ⟨library, tool, whole, wholeToo, variant, readAlike_tag chosen, calls⟩

/-- The setter for a property that can only be read is called but not there. -/
theorem command_calls_absent_setter :
    (zoneTags (some true)).placed = .ok (placedTag (some true)) ∧
      (zoneTags (some true)).effectiveKind (placedTag (some true)) ≠ .find ∧
      ∃ libraries tools, Sdk.contexts (zoneTags (some true)) = .ok libraries ∧
        contexts defaultSdkCrate (zoneTags (some true)) = .ok tools ∧
        ¬ List.Forall₂ (fun library tool => ∀ call ∈ tool.calls, call.entry ∈ library.members)
          libraries tools := by
  have library : (Sdk.contexts (zoneTags (some true))).toOption.map (List.map Sdk.Context.members) =
      some [[("zone_id", "zone_id"), ("dry_run", "dry-run"), ("label", "label")]] := by
    decide +kernel
  have tool : (contexts defaultSdkCrate (zoneTags (some true))).toOption.map
      (List.map fun tool => tool.calls.map Call.entry) =
        some [[("zone_id", "zone_id"), ("dry_run", "dry-run"), ("id", "id"),
          ("label", "label")]] := by
    decide +kernel
  obtain ⟨libraries, made, members⟩ := Option.map_eq_some_iff.mp library
  obtain ⟨tools, madeToo, calls⟩ := Option.map_eq_some_iff.mp tool
  refine ⟨rfl, by decide +kernel, libraries, tools, toOption_eq_some.mp made,
    toOption_eq_some.mp madeToo, fun present => ?_⟩
  have listed : List.Forall₂ (fun members entries => ∀ entry ∈ entries, entry ∈ members)
      (libraries.map Sdk.Context.members) (tools.map fun tool => tool.calls.map Call.entry) := by
    rw [List.forall₂_map_left_iff, List.forall₂_map_right_iff]
    exact present.imp fun _ _ each => List.forall_mem_map.mpr each
  rw [members, calls] at listed
  cases listed with
  | cons each _ => exact absurd (each ("id", "id") (by decide)) (by decide)

end ServiceForge.Cli
