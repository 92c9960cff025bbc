/-
This file proves when the members of a generated request have names of their own. A
request has a member for each parameter of the path and of the query, what its body needs,
and one for its headers. Fields of a body are told apart from each other by marks, and the
member for headers from all others; names clash exactly if two parameters, or a parameter
and a part of the body, are spelled with the same words.
-/

import ServiceForge.Proofs.Sdk.Context
import ServiceForge.Proofs.Sdk.Members
import ServiceForge.Proofs.Sdk.Variant
import ServiceForge.Proofs.Text.Marks

namespace ServiceForge.Sdk

open ServiceForge.Generation
open ServiceForge.Lowering (Binding Field State Types fieldNames isResourceId run_bind_eq_ok)
open ServiceForge.OpenApi (Location Parameter PathItem PlacedOperation Schema)
open ServiceForge.Source
open ServiceForge.Text

/-! ### Declared members -/

/-- A member as the source of a request declares it. -/
structure Member where
  /-- The lines before the declaration, which document the member and say how it is built. -/
  before : List String
  visibility : String := ""
  name : String
  type : String
  after : List String := [""]

namespace Member

/-- The lines of a member. -/
def lines (member : Member) : List String :=
  member.before ++
    ["    " ++ member.visibility ++ member.name ++ ": " ++ member.type ++ ","] ++ member.after

/-- The member for a parameter. -/
def ofBinding (types : Types) (binding : Binding) : Member :=
  { before := documentation "    " binding.description ++ [builderAttribute binding.type]
    name := binding.name
    type := types.render binding.type }

/-- The member for a field of the body. -/
def ofField (types : Types) (field : Field) : Member :=
  { before := documentation "    " field.description ++ [builderAttribute field.type]
    visibility := "pub(crate) "
    name := field.name
    type := types.render field.type }

/-- The members for a body. -/
def ofBody (types : Types) : Body → List Member
  | .empty => []
  | .fields fields => fields.map (ofField types)
  | .value type =>
    [{ before := [builderAttribute type], visibility := "pub(crate) ", name := "body"
       type := types.render type }]
  | .patch =>
    [{ before := ["    /// JSON patch applied to the resource.", "    #[builder(setter(into))]"]
       visibility := "pub(crate) ", name := "patch", type := "Patch" }]
  | .binary =>
    [{ before := ["    /// Raw payload.", "    #[builder(setter(into))]"]
       visibility := "pub(crate) ", name := "body", type := "Vec<u8>" }]

/-- The member for headers. -/
def headers : Member :=
  { before := ["    #[builder(setter(name = \"_headers\"), default, private)]"]
    name := "_headers"
    type := "Option<HeaderMap>"
    after := [] }

/-- The member of a lookup for what is looked up. -/
def ofKey (key : String) : Member :=
  { before := ["    /// Name or id of the resource.", "    #[builder(setter(into), default)]"]
    name := key
    type := "Cow<'a, str>" }

/-- The member of a lookup for another parameter of the path. -/
def ofParent (binding : Binding) : Member :=
  { before := documentation "    " binding.description ++ ["    #[builder(setter(into), default)]"]
    name := binding.name
    type := "Cow<'a, str>" }

theorem lines_ofBinding (types : Types) (binding : Binding) :
    (ofBinding types binding).lines = bindingMember types binding := by
  simp [lines, ofBinding, bindingMember]

theorem lines_ofField (types : Types) (field : Field) :
    (ofField types field).lines = fieldMember types field := by
  simp [lines, ofField, fieldMember]

theorem lines_ofParent (binding : Binding) :
    (ofParent binding).lines = documentation "    " binding.description ++
      ["    #[builder(setter(into), default)]", "    " ++ binding.name ++ ": Cow<'a, str>,", ""] := by
  simp [lines, ofParent, ← String.toList_inj]

theorem lines_ofKey (key : String) :
    (ofKey key).lines = ["    /// Name or id of the resource.",
      "    #[builder(setter(into), default)]", "    " ++ key ++ ": Cow<'a, str>,", ""] := by
  simp [lines, ofKey, ← String.toList_inj]

theorem headersMember_eq : headersMember = headers.lines ++ ["\x7d", ""] := by
  decide

theorem lines_ofBody (types : Types) (body : Body) :
    forEach (ofBody types body) lines = bodyMembers types body := by
  cases body with
  | fields fields =>
    unfold ofBody bodyMembers forEach
    simp only [List.flatMap_map, lines_ofField]
  | _ => simp [forEach, ofBody, bodyMembers, lines]

end Member

namespace Context

/-- The parameters of the path besides what is looked up. -/
def parents (context : Context) (key : String) : List Binding :=
  context.pathBindings.filter fun binding => binding.name ≠ key

/-- The members of a request in the order of their declarations. -/
def declared (context : Context) : List Member :=
  match context.findKey with
  | some key => .ofKey key :: (context.parents key).map .ofParent ++ [.headers]
  | none =>
    context.memberBindings.map (.ofBinding context.types) ++
      Member.ofBody context.types context.body ++ [.headers]

/-- The names of the members of a request. -/
def memberNames (context : Context) : List String := context.declared.map Member.name

/-- The text of the request with its members. -/
def structLines (context : Context) : List String :=
  let borrows := if context.findKey.isSome then "<'a>" else lifetime context.borrows
  ["pub struct Request" ++ borrows ++ " \x7b"] ++ forEach context.declared Member.lines ++ ["\x7d"]

/-- A lookup declares its request with these members and no others. -/
theorem structLines_isInfix_findLines {context : Context} {key : String}
    (looked : context.findKey = some key) : context.structLines <:+: findLines context key := by
  have whole : forEach (.ofKey key :: (context.parents key).map .ofParent ++ [.headers])
      Member.lines =
        (Member.ofKey key).lines ++ forEach (context.parents key) (fun parent =>
          documentation "    " parent.description ++
            ["    #[builder(setter(into), default)]",
              "    " ++ parent.name ++ ": Cow<'a, str>,", ""]) ++ Member.headers.lines := by
    simp [forEach, List.flatMap_map, Member.lines_ofParent]
  have start : "pub struct Request" ++ "<'a>" ++ " \x7b" = "pub struct Request<'a> \x7b" := by
    decide
  unfold structLines declared findLines
  simp only [looked, whole, Option.isSome_some, if_true, start, Member.lines_ofKey,
    Member.headersMember_eq]
  exact ⟨["/// Find a \x60" ++ context.resource ++ "\x60 by name or id.",
    "#[derive(Builder, Debug, Clone)]", "#[builder(setter(strip_option))]"], _, by
    simp only [List.append_assoc, List.cons_append, List.nil_append]
    rfl⟩

/-- Every other module declares its request with these members and no others. -/
theorem structLines_isInfix_requestLines {context : Context} (plain : context.findKey = none) :
    context.structLines <:+: requestLines context := by
  have whole : forEach (context.memberBindings.map (.ofBinding context.types) ++
      Member.ofBody context.types context.body ++ [.headers]) Member.lines =
        forEach context.memberBindings (bindingMember context.types) ++
          bodyMembers context.types context.body ++ Member.headers.lines := by
    rw [← Member.lines_ofBody]
    simp [forEach, List.flatMap_map, Member.lines_ofBinding]
  unfold structLines declared requestLines
  simp only [plain, whole, Option.isSome_none, Bool.false_eq_true, if_false,
    Member.headersMember_eq]
  exact ⟨["/// Request of \x60" ++ context.moduleName ++ "\x60 on \x60" ++ context.resource ++
      "\x60.",
    "#[derive(Builder, Debug, Clone)]", "#[builder(setter(strip_option))]"], _, by
    simp only [List.append_assoc, List.cons_append, List.nil_append]
    rfl⟩

/-- The module of an endpoint that is no lookup has the lines of its request. -/
theorem requestLines_isInfix {context : Context} (plain : context.findKey = none) :
    requestLines context <:+: moduleLines context := by
  unfold moduleLines
  rw [plain]
  exact ⟨headingLines context ++ (forEach context.types.subtypes
    (fun subtype => [""] ++ subtypeLines context.types subtype) ++ [""]), _, by
    simp only [List.append_assoc]
    rfl⟩

/-- The source of a module declares the request with these members and no others. -/
theorem hasLines_struct (context : Context) : HasLines context.file.contents context.structLines := by
  rw [contents_file]
  refine hasLines_ofLines ?_
  cases looked : context.findKey with
  | some key =>
    refine (structLines_isInfix_findLines looked).trans ?_
    unfold moduleLines
    rw [looked]
    exact ((List.suffix_append _ _).trans (List.suffix_append _ _)).isInfix
  | none => exact (structLines_isInfix_requestLines looked).trans (requestLines_isInfix looked)

end Context

/-! ### Names and words -/

/-- The names of the members for a body. -/
def Body.names : Body → List String
  | .empty => []
  | .fields members => members.map Field.name
  | .value _ | .binary => ["body"]
  | .patch => ["patch"]

/-- The words of the names that the members for a body are named after. -/
def Body.words : Body → List (List (List Char))
  | .empty => []
  | .fields members => members.map fun field => spelling field.wireName
  | .value _ | .binary => [spelling "body"]
  | .patch => [spelling "patch"]

theorem names_ofBody (types : Types) (body : Body) :
    (Member.ofBody types body).map Member.name = body.names := by
  cases body with
  | fields fields =>
    unfold Member.ofBody Body.names
    rw [List.map_map]
    rfl
  | _ => rfl

/-- The words that the binding of a parameter is spelled with. -/
def bindingWords (request : OperationRequest) (placed : PlacedOperation) (parameter : Parameter) :
    List (List Char) :=
  spelling (if isResourceId parameter (scope request placed) then "id" else parameter.name)

section Parameters

variable {request : OperationRequest} {placed : PlacedOperation}

theorem bindingName_eq (parameter : Parameter) :
    bindingName request placed parameter = Naming.fieldName
      (if isResourceId parameter (scope request placed) then "id" else parameter.name) := by
  unfold bindingName
  split
  · decide
  · rfl

/-- Two bindings have one name exactly if their parameters are spelled alike. -/
theorem bindingName_eq_iff {first second : Parameter} :
    bindingName request placed first = bindingName request placed second ↔
      bindingWords request placed first = bindingWords request placed second := by
  rw [bindingName_eq, bindingName_eq, Naming.fieldName_eq_iff]
  rfl

/-- Bindings have distinct names exactly if their parameters are spelled differently. -/
theorem nodup_bindingName_iff {parameters : List Parameter} :
    (parameters.map (bindingName request placed)).Nodup ↔
      (parameters.map (bindingWords request placed)).Nodup := by
  unfold List.Nodup
  rw [List.pairwise_map, List.pairwise_map]
  exact List.Pairwise.iff fun _ _ => not_congr bindingName_eq_iff

theorem bindingName_congr {first second : Parameter} (name : first.name = second.name)
    (location : first.location = second.location) :
    bindingName request placed first = bindingName request placed second := by
  unfold bindingName isResourceId
  rw [name, location]

end Parameters

/-! ### Names of bodies -/

section Bodies

variable {body : Body} {wireNames : List String}

/-- A name is that of a field without marks exactly if a property has its words. -/
theorem fieldName_mem_fieldNames {wireName : String} :
    Naming.fieldName wireName ∈ (fieldNames [] wireNames).map Prod.fst ↔
      spelling wireName ∈ wireNames.map spelling := by
  constructor
  · intro held
    obtain ⟨⟨name, other⟩, member, rfl⟩ := List.mem_map.mp held
    have trimmed := Lowering.trimEnd_of_mem_fieldNames member
    rw [trimEnd_of_isUnmarked (Naming.isUnmarked_fieldName wireName)] at trimmed
    have listed := List.mem_map_of_mem (f := Prod.snd) member
    rw [Lowering.fieldNames_wireNames] at listed
    exact List.mem_map.mpr ⟨other, listed, (Naming.fieldName_eq_iff.mp trimmed).symm⟩
  · intro held
    obtain ⟨other, listed, same⟩ := List.mem_map.mp held
    have alike := Naming.fieldName_eq_iff.mpr same
    cases found : wireNames.find? fun some =>
        Naming.fieldName some = Naming.fieldName wireName with
    | none => simpa [alike] using List.find?_eq_none.mp found other listed
    | some first =>
      have named : Naming.fieldName first = Naming.fieldName wireName := by
        simpa using List.find?_some found
      rw [← named] at found ⊢
      exact List.mem_map.mpr ⟨_, Lowering.mem_fieldNames.mpr ⟨nofun, found⟩, rfl⟩

variable (named : body.members = fieldNames [] wireNames)

include named

/-- The fields of a body have the names that their properties give. -/
theorem names_of_members : ∀ fields, body = .fields fields →
    body.names = (fieldNames [] wireNames).map Prod.fst ∧ body.words = wireNames.map spelling := by
  rintro fields rfl
  have names : (Body.fields fields).names = (Body.fields fields).members.map Prod.fst := by
    simp [Body.names, Body.members]
  have words : (Body.fields fields).words =
      ((Body.fields fields).members.map Prod.snd).map spelling := by
    simp [Body.words, Body.members]
  rw [names, words, named, Lowering.fieldNames_wireNames]
  exact ⟨rfl, rfl⟩

/-- The members for a body have distinct names. -/
theorem nodup_names : body.names.Nodup := by
  cases body with
  | fields fields =>
    rw [(names_of_members named fields rfl).1]
    exact Lowering.nodup_fieldNames [] wireNames
  | empty => exact List.nodup_nil
  | _ => exact List.nodup_singleton _

/-- A name is taken by a field of the body exactly if a property is spelled like it. -/
theorem fieldName_mem_names {wireName : String} :
    Naming.fieldName wireName ∈ body.names ↔ spelling wireName ∈ body.words := by
  have single : ∀ name, Naming.fieldName name = name →
      (Naming.fieldName wireName ∈ [name] ↔ spelling wireName ∈ [spelling name]) := by
    intro name plain
    rw [List.mem_singleton, List.mem_singleton, ← Naming.fieldName_eq_iff, plain]
  cases body with
  | fields fields =>
    obtain ⟨names, words⟩ := names_of_members named fields rfl
    rw [names, words]
    exact fieldName_mem_fieldNames
  | empty => exact iff_of_false nofun nofun
  | value type => exact single "body" (by decide)
  | patch => exact single "patch" (by decide)
  | binary => exact single "body" (by decide)

/-- No field of a body has the name of the headers. -/
theorem headers_notMem_names : "_headers" ∉ body.names := by
  cases body with
  | fields fields =>
    rw [(names_of_members named fields rfl).1]
    intro held
    obtain ⟨⟨name, other⟩, member, rfl⟩ := List.mem_map.mp held
    have trimmed := Lowering.trimEnd_of_mem_fieldNames member
    rw [trimEnd_of_isUnmarked (by decide)] at trimmed
    exact Naming.fieldName_ne_headers other trimmed.symm
  | empty => exact nofun
  | value type => exact (by decide : "_headers" ∉ ["body"])
  | _ => decide

end Bodies

/-! ### Members of an operation -/

/-- The parameters of an operation in a location. -/
def located (placed : PlacedOperation) (location : Location) : List Parameter :=
  placed.parameters.filter (·.location = location)

/-- The parameter that a lookup finds the resource by, which ends the path. -/
def keyParameter? (placed : PlacedOperation) : Option Parameter :=
  (located placed .path).find? fun parameter =>
    some parameter.name == Resource.terminalParameter? placed.path

/-- The parameters that the request of an operation has members for, each with one of its own. A
lookup takes nothing from the query, and leaves out what is spelled like its key. -/
def memberParameters (request : OperationRequest) (placed : PlacedOperation) : List Parameter :=
  let path := located placed .path
  if request.effectiveKind placed = .find then
    match keyParameter? placed with
    | some key => key :: path.filter fun parameter =>
        bindingWords request placed parameter ≠ bindingWords request placed key
    | none => path
  else path ++ located placed .query

section Members

variable {request : OperationRequest} {placed : PlacedOperation} {context : Context}

/-- The order of the path does not change which names bindings have. -/
theorem names_inPathOrder_perm (path : String) (bindings : List Binding) :
    ((inPathOrder path bindings).map names).Perm (bindings.map names) :=
  (List.mergeSort_perm bindings _).map names

/-- The bindings of the path are those of its parameters, in some order. -/
theorem names_pathBindings_perm {bindings : List Binding} {state : State}
    (lowered : lowerAllBindings request placed {} = (.ok bindings, state))
    (sorted : context.pathBindings = inPathOrder placed.path (bindings.filter (·.location = .path))) :
    (context.pathBindings.map names).Perm ((located placed .path).map fun parameter =>
      (bindingName request placed parameter, parameter.name)) := by
  have listed : Location.path ∈ OpenApi.Location.all := by decide
  unfold located
  rw [sorted, ← lowerBindings_names listed lowered]
  exact names_inPathOrder_perm _ _

/-- Where all that satisfy a condition give the same, the order does not matter to what the first of
them gives. -/
theorem map_find?_of_perm {α β : Type} {some other : List α} {condition : α → Bool} {give : α → β}
    (same : some.Perm other)
    (unique : ∀ first ∈ other, ∀ second ∈ other, condition first = true →
      condition second = true → give first = give second) :
    (some.find? condition).map give = (other.find? condition).map give := by
  cases first : some.find? condition with
  | none =>
    have absent : other.find? condition = none :=
      List.find?_eq_none.mpr fun item held =>
        List.find?_eq_none.mp first item (same.mem_iff.mpr held)
    rw [absent]
  | some item =>
    have held := same.mem_iff.mp (List.mem_of_find?_eq_some first)
    have holds := List.find?_some first
    cases second : other.find? condition with
    | none => exact absurd holds (List.find?_eq_none.mp second item held)
    | some found =>
      exact congrArg Option.some (unique item held found (List.mem_of_find?_eq_some second) holds
        (List.find?_some second))

/-- A lookup is keyed by the binding of the parameter that ends the path. -/
theorem MadeLookup.findKey_eq {moduleName : String}
    (made : MadeLookup request placed moduleName context) :
    context.findKey = (keyParameter? placed).map (bindingName request placed) := by
  obtain ⟨bindings, state, lowered, sorted⟩ := made.lowered
  let ends := fun entry : String × String => some entry.2 == Resource.terminalParameter? placed.path
  have key : context.findKey = ((context.pathBindings.map names).find? ends).map Prod.fst := by
    rw [made.findKey, List.find?_map, Option.map_map]
    rfl
  have listed : (((located placed .path).map fun parameter =>
      (bindingName request placed parameter, parameter.name)).find? ends).map Prod.fst =
        (keyParameter? placed).map (bindingName request placed) := by
    rw [List.find?_map, Option.map_map]
    rfl
  rw [key, ← listed]
  refine map_find?_of_perm (names_pathBindings_perm lowered sorted) ?_
  intro first firstHeld second secondHeld firstEnds secondEnds
  obtain ⟨parameter, held, rfl⟩ := List.mem_map.mp firstHeld
  obtain ⟨other, otherHeld, rfl⟩ := List.mem_map.mp secondHeld
  refine bindingName_congr ?_ ?_
  · have here : some parameter.name = _ := beq_iff_eq.mp firstEnds
    exact Option.some.inj (here.trans (beq_iff_eq.mp secondEnds).symm)
  · have here : parameter.location = .path := of_decide_eq_true (List.mem_filter.mp held).2
    exact here.trans (of_decide_eq_true (List.mem_filter.mp otherHeld).2 : other.location = _).symm

theorem map_name_of_perm {bindings : List Binding} {parameters : List Parameter}
    (same : (bindings.map names).Perm (parameters.map fun parameter =>
      (bindingName request placed parameter, parameter.name))) :
    (bindings.map Binding.name).Perm (parameters.map (bindingName request placed)) := by
  have projected := same.map Prod.fst
  rwa [List.map_map, List.map_map] at projected

/-- The members of a request are named after its parameters and its body. -/
def MembersNamed (request : OperationRequest) (placed : PlacedOperation) (context : Context) : Prop :=
  context.memberNames.Perm ((memberParameters request placed).map (bindingName request placed) ++
    context.body.names ++ ["_headers"])

theorem MadeLookup.membersNamed {moduleName : String}
    (made : MadeLookup request placed moduleName context)
    (lookup : request.effectiveKind placed = .find) : MembersNamed request placed context := by
  obtain ⟨bindings, state, lowered, sorted⟩ := made.lowered
  have path := map_name_of_perm (names_pathBindings_perm lowered sorted)
  unfold MembersNamed Context.memberNames Context.declared memberParameters
  rw [made.findKey_eq, made.body]
  simp only [lookup, if_true]
  cases keyParameter? placed with
  | none =>
    simp only [Option.map_none, Context.memberBindings, made.queryBindings,
      Member.ofBody, Body.names, List.append_nil, List.map_append, List.map_map]
    exact path.append_right _
  | some key =>
    have others : (((located placed .path).filter fun parameter =>
        bindingWords request placed parameter ≠ bindingWords request placed key).map
          (bindingName request placed)) =
        ((located placed .path).map (bindingName request placed)).filter
          (· ≠ bindingName request placed key) := by
      rw [List.filter_map]
      refine congrArg _ (List.filter_congr fun parameter _ => ?_)
      exact decide_eq_decide.mpr (not_congr bindingName_eq_iff.symm)
    have parents : (context.parents (bindingName request placed key)).map Binding.name =
        (context.pathBindings.map Binding.name).filter (· ≠ bindingName request placed key) := by
      rw [List.filter_map]
      rfl
    simp only [Option.map_some, Body.names, List.append_nil, List.map_append, List.map_cons,
      List.map_map, List.cons_append, others]
    refine .cons _ (List.Perm.append_right _ ?_)
    exact parents ▸ path.filter _

theorem membersNamed_of_ofVariant {kind : Kind} {media : RequestMedia} {variant : Variant}
    (given : ofVariant request placed kind media variant = .ok context)
    (plain : request.effectiveKind placed ≠ .find) : MembersNamed request placed context := by
  obtain ⟨bindings, state, _, _, _, lowered, sorted, query, -⟩ := (made_of_ofVariant given).lowered
  have path := map_name_of_perm (names_pathBindings_perm lowered sorted)
  have listed : Location.query ∈ OpenApi.Location.all := by decide
  have queried : context.queryBindings.map Binding.name =
      (located placed .query).map (bindingName request placed) := by
    have same := congrArg (List.map Prod.fst) (lowerBindings_names listed lowered)
    rw [List.map_map, List.map_map] at same
    rw [query]
    exact same
  unfold MembersNamed Context.memberNames Context.declared memberParameters
  rw [(url_of_ofVariant given).2, if_neg plain]
  simp only [Context.memberBindings, List.map_append, List.map_map, names_ofBody]
  refine List.Perm.append_right _ (List.Perm.append_right _ ?_)
  exact queried ▸ path.append_right _

/-- The members of a request have names of their own exactly if its parameters are spelled
differently from each other and from the parts of the body. -/
theorem MembersNamed.nodup_iff {wireNames : List String}
    (named : MembersNamed request placed context)
    (body : context.body.members = fieldNames [] wireNames) :
    context.memberNames.Nodup ↔
      ((memberParameters request placed).map (bindingWords request placed)).Nodup ∧
        ∀ parameter ∈ memberParameters request placed,
          bindingWords request placed parameter ∉ context.body.words := by
  have apart : ∀ parameter, bindingName request placed parameter ≠ "_headers" := fun parameter => by
    rw [bindingName_eq]
    exact Naming.fieldName_ne_headers _
  have inBody : ∀ parameter, bindingName request placed parameter ∈ context.body.names ↔
      bindingWords request placed parameter ∈ context.body.words := fun parameter => by
    rw [bindingName_eq]
    exact fieldName_mem_names body
  rw [List.Perm.nodup_iff named, List.nodup_append, List.nodup_append,
    nodup_bindingName_iff]
  constructor
  · rintro ⟨⟨parameters, -, disjoint⟩, -⟩
    refine ⟨parameters, fun parameter member held => ?_⟩
    exact disjoint _ (List.mem_map_of_mem member) _ ((inBody parameter).mpr held) rfl
  · rintro ⟨parameters, disjoint⟩
    refine ⟨⟨parameters, nodup_names body, ?_⟩, List.nodup_singleton _, ?_⟩
    · rintro _ member _ held rfl
      obtain ⟨parameter, inside, rfl⟩ := List.mem_map.mp member
      exact disjoint parameter inside ((inBody parameter).mp held)
    · rintro name member _ headers rfl
      rw [List.mem_singleton.mp headers] at member
      rcases List.mem_append.mp member with bound | held
      · obtain ⟨parameter, -, same⟩ := List.mem_map.mp bound
        exact apart parameter same
      · exact headers_notMem_names body held

/-- The members of each generated request have the names of its parameters and properties. -/
theorem membersNamed_of_contexts {given : List Context} (found : request.placed = .ok placed)
    (made : contexts request = .ok given) (member : context ∈ given) :
    MembersNamed request placed context ∧
      ∃ wireNames, context.body.members = fieldNames [] wireNames := by
  rcases contexts_cases found made member with ⟨lookup, gathered⟩ | ⟨plain, _, _, _, variantMade⟩
  · have looked := madeLookup_of_ofFind gathered
    refine ⟨looked.membersNamed lookup, [], ?_⟩
    rw [looked.body]
    rfl
  · exact ⟨membersNamed_of_ofVariant variantMade plain, _,
      (made_of_ofVariant variantMade).bodyMembers⟩

end Members

/-- The source of every module of an operation declares one member for each of its parameters and for each part of
the body, and their names are distinct exactly if no two parameters are spelled with the same words
and none with those of a part of the body. The member for headers is never named like another. -/
theorem member_names_distinct_iff {request : OperationRequest} {files : List File}
    (made : generate request = .ok files) :
    ∃ placed given, request.placed = .ok placed ∧ contexts request = .ok given ∧
      files = given.map Context.file ∧
      ∀ context ∈ given, HasLines context.file.contents context.structLines ∧
        (context.memberNames.Nodup ↔
          ((memberParameters request placed).map (bindingWords request placed)).Nodup ∧
            ∀ parameter ∈ memberParameters request placed,
              bindingWords request placed parameter ∉ context.body.words) := by
  obtain ⟨given, gathered, returned⟩ := bind_eq_ok.mp made
  obtain ⟨placed, found, -⟩ := bind_eq_ok.mp gathered
  cases returned
  refine ⟨placed, given, found, gathered, rfl, fun context member => ⟨context.hasLines_struct, ?_⟩⟩
  obtain ⟨named, wireNames, body⟩ := membersNamed_of_contexts found gathered member
  exact named.nodup_iff body

/-- A parameter of a path. -/
def pathParameter (name : String) : Parameter where
  name
  location := .path
  required := true
  schema := some (.ofType "string")

/-- The operation that replaces a zone with the given properties. -/
def replaceZone (properties : List String) : OpenApi.Operation where
  id := some "replace"
  parameters := [pathParameter "zone_id"]
  requestBody := some { content := [(OpenApi.MediaType.json, { schema := some {
    type := some (.single "object")
    properties := properties.map fun name => (name, .ofType "string") } })] }
  responses := [("204", { description := some "Replaced" })]

/-- A request for that operation. -/
def replacedZone (properties : List String) : OperationRequest where
  spec := {
    version := "3.1.0"
    paths := [("/v2/zones/\x7bzone_id\x7d",
      PathItem.setOperation {} .put (replaceZone properties))] }
  resource := ⟨"dns", "zones"⟩
  operation := "replace"

theorem member_names_distinct_iff_label :
    ∃ files, generate (replacedZone ["label", "zone-id"]) = .ok files ∧
      files.map File.path = ["dns/v2/zones/update.rs"] ∧
      ∃ given, contexts (replacedZone ["label", "zone-id"]) = .ok given ∧
        ∀ context ∈ given, context.memberNames = ["id", "label", "zone_id", "_headers"] ∧
          context.memberNames.Nodup := by
  have generated : (generate (replacedZone ["label", "zone-id"])).toOption.map
      (List.map File.path) = some ["dns/v2/zones/update.rs"] := by decide +kernel
  have members : (contexts (replacedZone ["label", "zone-id"])).toOption.map
      (List.map fun context => (context.memberNames, context.body.words)) =
        some [(["id", "label", "zone_id", "_headers"], ["label", "zone-id"].map spelling)] := by
    decide +kernel
  obtain ⟨files, returned, paths⟩ := Option.map_eq_some_iff.mp generated
  obtain ⟨given, gathered, listed⟩ := Option.map_eq_some_iff.mp members
  obtain ⟨placed, _, found, again, -, each⟩ :=
    member_names_distinct_iff (toOption_eq_some.mp returned)
  cases (toOption_eq_some.mp gathered).symm.trans again
  cases found
  refine ⟨files, toOption_eq_some.mp returned, paths, given, toOption_eq_some.mp gathered, ?_⟩
  intro context member
  have entry := List.mem_map_of_mem
    (f := fun context : Context => (context.memberNames, context.body.words)) member
  rw [listed, List.mem_singleton] at entry
  obtain ⟨names, words⟩ := Prod.mk.inj entry
  refine ⟨names, (each context member).2.mpr ?_⟩
  rw [words]
  decide +kernel

/-- The identifier of a zone in the path and a property for it are named alike. -/
theorem member_names_repeated :
    ((replaceZone ["id", "label"]).parameters.map fun parameter =>
        (parameter.name, parameter.location)).Nodup ∧
      (generate (replacedZone ["id", "label"])).toOption.map (List.map File.path) =
        some ["dns/v2/zones/update.rs"] ∧
      (contexts (replacedZone ["id", "label"])).toOption.map (List.map Context.memberNames) =
        some [["id", "id", "label", "_headers"]] := by
  refine ⟨by decide, by decide +kernel, by decide +kernel⟩

end ServiceForge.Sdk
