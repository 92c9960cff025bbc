/-
This file says where the names in types come from. The lowering of a schema leads to the
schemas inside it, each under a hint of its own, and every name in a type is that of a component
or a candidate after such a hint. So if all schemas that are led to give names of one kind, all
names in the types that are returned or declared are of this kind.
-/

import ServiceForge.Proofs.Lowering.Lowered

namespace ServiceForge.Lowering

open ServiceForge.OpenApi (Parameter Schema)

/-! ### Names in types -/

@[simp] theorem names_optionalIf (condition : Bool) (type : ValueType) :
    (optionalIf condition type).names = type.names := by
  rw [← ValueType.names_withoutOption, withoutOption_optionalIf, ValueType.names_withoutOption]

theorem Inner.names {context : Context} {schema part : Schema} {hint partHint : String}
    {wrap : ValueType → ValueType} {paths : List String}
    (inner : Inner context schema hint part partHint wrap paths) (type : ValueType) :
    (wrap type).names = type.names := by
  cases inner with
  | branch => exact names_optionalIf _ type
  | items => rfl
  | values => rfl

theorem names_separated (parameter : Parameter) (type : ValueType) :
    (separated parameter type).names = type.names := by
  cases type with
  | list item =>
    simp only [separated]
    split <;> rfl
  | _ => rfl

/-- Whether all names in a type are of one kind. -/
def ValueType.Names (isName : String → Prop) (type : ValueType) : Prop :=
  ∀ name ∈ type.names, isName name

section Names

variable {isName : String → Prop} {type other : ValueType}

theorem ValueType.Names.congr (named : type.Names isName) (same : other.names = type.names) :
    other.Names isName :=
  fun name member => named name (same ▸ member)

theorem ValueType.Names.single {name : String} (named : isName name) :
    (ValueType.named name).Names isName :=
  fun _ member => List.mem_singleton.mp member ▸ named

/-- A structure has the names that the types of its fields have. -/
theorem names_memberTypes_structureType {context : Context} {schema : Schema} {name : String}
    {types : List ValueType} {extra : Option ValueType}
    (fields : ∀ type ∈ types, type.Names isName) (further : ∀ type ∈ extra, type.Names isName) :
    ∀ type ∈ (structureType context schema name types extra).memberTypes, type.Names isName := by
  intro type member
  rcases memberTypes_structureType member with ⟨value, held, condition, rfl⟩ | ⟨value, held, rfl⟩
  · exact (fields value held).congr (names_optionalIf condition value)
  · exact (further value held).congr rfl

end Names

/-! ### Names that a claim ends with -/

/-- The name that a claim ends with. -/
def Claim.name : Claim → String
  | .new name => name
  | .existing name => name
  | .forward name => name

/-- Whatever a claim finds, its name is a candidate after the hint. -/
theorem name_claim (state : State) (hint : String) (schema : Schema) :
    ∃ index, (claim state hint schema).name = candidate (Naming.typeName hint) index := by
  obtain ⟨index, -, claimed⟩ := claim_endsAt state hint schema
  refine ⟨index, ?_⟩
  rw [claimed, State.claimAt]
  split
  · rfl
  · split <;> rfl

/-! ### Schemas that a lowering leads to -/

/-- The schemas that the lowering of a schema under a hint leads to, each with the hint under which
it is lowered. -/
inductive Leads (context : Context) (schema : Schema) (hint : String) : Schema → String → Prop
  | component {component : String} {target : Schema} :
      schema.referenceName? = some component → context.spec.schema? component = some target →
        Leads context schema hint target component
  | whole {whole : Schema} :
      mergeAllOf context.spec schema = .ok whole → Leads context schema hint whole hint
  | inner {part : Schema} {partHint : String} {wrap : ValueType → ValueType}
      {paths : List String} :
      Inner context schema hint part partHint wrap paths → Leads context schema hint part partHint
  | property {name : String} {part : Schema} :
      (name, part) ∈ schema.properties → Leads context schema hint part (propertyHint "" name)
  | further {values : Schema} (index : Nat) :
      schema.additional = some (.each values) →
        Leads context schema hint values (candidate (Naming.typeName hint) index)
  | variant {part : Schema} {partHint : String} (index : Nat) :
      (part, partHint) ∈ variantCalls schema (candidate (Naming.typeName hint) index) →
        Leads context schema hint part partHint

/-- Schemas with hints that give names of one kind, whatever their lowering leads to. -/
structure Supplies (context : Context) (given : Schema → String → Prop) (isName : String → Prop) :
    Prop where
  leads : ∀ {schema part : Schema} {hint partHint : String},
    given schema hint → Leads context schema hint part partHint → given part partHint
  forward : ∀ {schema : Schema} {hint component : String},
    given schema hint → schema.referenceName? = some component →
      isName (Naming.typeName component)
  candidate : ∀ {schema : Schema} {hint : String},
    given schema hint → ∀ index, isName (candidate (Naming.typeName hint) index)

/-- A declared type for one of the given schemas in which all names are of one kind. -/
structure Declared.Given (given : Schema → String → Prop) (isName : String → Prop)
    (declared : Declared) : Prop where
  name : isName declared.subtype.name
  origin : ∃ hint, given declared.origin hint
  members : ∀ type ∈ declared.subtype.memberTypes, type.Names isName

/-- Whether every declared type is for one of the given schemas, with names of one kind. -/
def AllGiven (given : Schema → String → Prop) (isName : String → Prop) (state : State) : Prop :=
  ∀ declared ∈ state.declared, declared.Given given isName

section AllGiven

variable {given : Schema → String → Prop} {isName : String → Prop} {state after : State}

theorem AllGiven.congr (all : AllGiven given isName state)
    (declared : after.declared = state.declared) : AllGiven given isName after := by
  unfold AllGiven
  rw [declared]
  exact all

theorem AllGiven.addImports (all : AllGiven given isName state) (paths : List String) :
    AllGiven given isName (state.addImports paths) :=
  all.congr (state.addImports_declared paths)

theorem AllGiven.beginType (all : AllGiven given isName state) (name : String) (schema : Schema) :
    AllGiven given isName (beginType name schema state) :=
  all.congr rfl

theorem AllGiven.endType (all : AllGiven given isName state) :
    AllGiven given isName (endType state) :=
  all.congr rfl

/-- A type may be declared for a given schema if all its names are of the kind. -/
theorem AllGiven.declare {schema : Schema} {hint : String} {subtype : Subtype}
    (all : AllGiven given isName state) (origin : given schema hint) (own : isName subtype.name)
    (members : ∀ type ∈ subtype.memberTypes, type.Names isName) :
    AllGiven given isName (state.declare schema subtype) := by
  intro declared member
  rcases List.mem_append.mp member with before | new
  · exact all declared before
  · rw [List.mem_singleton.mp new]
    exact ⟨own, ⟨hint, origin⟩, members⟩

end AllGiven

/-! ### Every lowering gives such names -/

/-- What is asked of a way to lower the schemas inside a schema. -/
def GivesNames (given : Schema → String → Prop) (isName : String → Prop) (recur : Recur) : Prop :=
  ∀ {schema : Schema} {hint : String} {state after : State}
    {result : Except GenerationError ValueType},
    given schema hint → AllGiven given isName state → recur schema hint state = (result, after) →
      AllGiven given isName after ∧ Returns (ValueType.Names isName) result

section GivesNames

variable {context : Context} {given : Schema → String → Prop} {isName : String → Prop}
  {recur : Recur} {schema : Schema} {hint name : String} {state after : State}

/-- Whatever is claimed for a given schema has a name of the kind. -/
theorem Supplies.claimed {found : Claim} (supplies : Supplies context given isName)
    (isGiven : given schema hint) (claimed : claim state hint schema = found) :
    isName found.name := by
  obtain ⟨index, named⟩ := name_claim state hint schema
  rw [← claimed, named]
  exact supplies.candidate isGiven index

/-- Lowerings of given schemas one after another give names of the kind. -/
theorem GivesNames.calls (names : GivesNames given isName recur) {calls : List (Schema × String)}
    {result : Except GenerationError (List ValueType)}
    (each : ∀ call ∈ calls, given call.1 call.2) (all : AllGiven given isName state)
    (ran : Calls recur calls state result after) :
    AllGiven given isName after ∧
      Returns (fun types => ∀ type ∈ types, type.Names isName) result := by
  induction ran with
  | nil => exact ⟨all, fun type member => by cases member⟩
  | cons first others inductionHypothesis =>
    obtain ⟨own, rest⟩ := List.forall_mem_cons.mp each
    obtain ⟨allMiddle, single⟩ := names own all first
    obtain ⟨allAfter, later⟩ := inductionHypothesis rest allMiddle
    exact ⟨allAfter, List.forall_mem_cons.mpr ⟨single, later⟩⟩
  | here first => exact ⟨(names (each _ List.mem_cons_self) all first).1, trivial⟩
  | later first _ inductionHypothesis =>
    obtain ⟨own, rest⟩ := List.forall_mem_cons.mp each
    exact ⟨(inductionHypothesis rest (names own all first).1).1, trivial⟩

/-- Additional properties give names of the kind. -/
theorem GivesNames.extra (names : GivesNames given isName recur)
    {result : Except GenerationError (Option ValueType)}
    (further : ∀ values, schema.additional = some (.each values) → given values name)
    (all : AllGiven given isName state) (ran : Extra recur schema name state result after) :
    AllGiven given isName after ∧
      Returns (fun extra => ∀ type ∈ extra, type.Names isName) result := by
  cases ran with
  | each isEach inside =>
    obtain ⟨allAfter, single⟩ := names (further _ isEach) all inside
    exact ⟨allAfter, fun type same => Option.some.inj same ▸ single⟩
  | failed isEach inside => exact ⟨(names (further _ isEach) all inside).1, trivial⟩
  | free =>
    refine ⟨all.addImports _, ?_⟩
    rintro type same name member
    cases same
    cases member
  | closed => exact ⟨all, fun type same => by cases same⟩

/-- The lowerings inside an object or a union begin with schemas that are given. -/
theorem Supplies.content (supplies : Supplies context given isName) (isGiven : given schema hint)
    (claimed : claim state hint schema = .new name) :
    (∀ call ∈ propertyCalls "" (settable context schema.properties), given call.1 call.2) ∧
      (∀ values, schema.additional = some (.each values) → given values name) ∧
        ∀ call ∈ variantCalls schema name, given call.1 call.2 := by
  obtain ⟨index, named⟩ := name_claim state hint schema
  rw [claimed, Claim.name] at named
  subst named
  refine ⟨fun call member => ?_, fun values isEach => supplies.leads isGiven (.further index isEach),
    fun call member => supplies.leads isGiven (.variant index member)⟩
  obtain ⟨property, held, rfl⟩ := List.mem_map.mp member
  exact supplies.leads isGiven (.property (List.mem_filter.mp held).1)

/-- A given schema without references and parts gives names of the kind. -/
theorem GivesNames.plain (supplies : Supplies context given isName)
    (names : GivesNames given isName recur) {result : Except GenerationError ValueType}
    (isGiven : given schema hint) (all : AllGiven given isName state)
    (ran : Plain context recur schema hint state result after) :
    AllGiven given isName after ∧ Returns (ValueType.Names isName) result := by
  cases ran with
  | leaf leaf =>
    refine ⟨all.addImports _, fun name member => ?_⟩
    rw [leaf.names] at member
    cases member
  | unknown => exact ⟨all, trivial⟩
  | inner inner inside =>
    obtain ⟨allAfter, single⟩ := names (supplies.leads isGiven (.inner inner)) all inside
    exact ⟨allAfter.addImports _, single.congr (inner.names _)⟩
  | innerFailed inner inside =>
    exact ⟨(names (supplies.leads isGiven (.inner inner)) all inside).1, trivial⟩
  | existing _ claimed => exact ⟨all, .single (supplies.claimed isGiven claimed)⟩
  | forward _ _ claimed =>
    exact ⟨all, (ValueType.Names.single (supplies.claimed isGiven claimed)).congr rfl⟩
  | forwardChoice _ _ claimed => exact ⟨all, .single (supplies.claimed isGiven claimed)⟩
  | choice _ _ claimed =>
    have own : isName _ := supplies.claimed isGiven claimed
    exact ⟨all.declare isGiven own (fun type member => by cases member), .single own⟩
  | «structure» _ _ claimed fields further =>
    have own : isName _ := supplies.claimed isGiven claimed
    obtain ⟨properties, values, -⟩ := supplies.content isGiven claimed
    obtain ⟨allMiddle, inFields⟩ := names.calls properties (all.beginType _ _) fields
    obtain ⟨allLast, inFurther⟩ := names.extra values allMiddle further
    refine ⟨(allLast.endType.addImports _).declare isGiven own ?_, .single own⟩
    exact names_memberTypes_structureType inFields inFurther
  | structureFailed _ _ claimed fields further =>
    obtain ⟨properties, values, -⟩ := supplies.content isGiven claimed
    have allMiddle := (names.calls properties (all.beginType _ _) fields).1
    exact ⟨(names.extra values allMiddle further).1.endType, trivial⟩
  | union _ _ claimed variants =>
    have own : isName _ := supplies.claimed isGiven claimed
    obtain ⟨-, -, calls⟩ := supplies.content isGiven claimed
    obtain ⟨allLast, inVariants⟩ := names.calls calls (all.beginType _ _) variants
    have branches := variants.length.trans (length_variantCalls schema _)
    refine ⟨allLast.endType.declare isGiven own ?_,
      (ValueType.Names.single own).congr (names_optionalIf _ _)⟩
    rw [memberTypes_unionType _ branches]
    exact inVariants
  | unionFailed _ _ claimed variants =>
    obtain ⟨-, -, calls⟩ := supplies.content isGiven claimed
    exact ⟨(names.calls calls (all.beginType _ _) variants).1.endType, trivial⟩

/-- One step gives names of the kind if what it asks for does. -/
theorem GivesNames.step (supplies : Supplies context given isName)
    (names : GivesNames given isName recur) {result : Except GenerationError ValueType}
    (isGiven : given schema hint) (all : AllGiven given isName state)
    (ran : Step context recur schema hint state result after) :
    AllGiven given isName after ∧ Returns (ValueType.Names isName) result := by
  cases ran with
  | forward named =>
    exact ⟨all, (ValueType.Names.single (supplies.forward isGiven named)).congr rfl⟩
  | missing => exact ⟨all, trivial⟩
  | @component component _ _ _ named _ _ found inside =>
    have begun : AllGiven given isName (beginComponent component state) := all.congr rfl
    obtain ⟨allAfter, single⟩ := names (supplies.leads isGiven (.component named found)) begun inside
    exact ⟨allAfter.congr rfl, single⟩
  | foreign => exact ⟨all.addImports _, fun name member => by cases member⟩
  | unmerged => exact ⟨all, trivial⟩
  | merged _ _ merged inside => exact names (supplies.leads isGiven (.whole merged)) all inside
  | plain _ _ inside =>
    obtain ⟨allAfter, single⟩ := names.plain supplies isGiven all inside
    exact ⟨allAfter, single.congr (names_optionalIf _ _)⟩
  | plainFailed _ _ inside => exact ⟨(names.plain supplies isGiven all inside).1, trivial⟩

/-- Lowering given schemas to any depth gives names of the kind. -/
theorem lowerWithin_givesNames (supplies : Supplies context given isName) (limit : Nat) :
    GivesNames given isName (lowerWithin context limit) := by
  refine lowerWithin_induction (P := fun recur => GivesNames given isName recur) ?_ ?_ limit
  · intro schema hint state after result _ all ran
    cases ran
    exact ⟨all, trivial⟩
  · intro limit names schema hint state after result isGiven all ran
    exact names.step supplies isGiven all (lowerStep_step ran)

/-- Lowering given schemas gives names of the kind. -/
theorem lower_givesNames (supplies : Supplies context given isName) :
    GivesNames given isName (lower context) :=
  fun isGiven all ran => lowerWithin_givesNames supplies _ isGiven all ran

end GivesNames

/-! ### Calls -/

/-- Whether the schemas that a call begins with are given, each with its hint. -/
def Call.IsGiven (context : Context) (given : Schema → String → Prop) : Call → Prop
  | single schema hint => given schema hint
  | fields schema owner =>
    ∀ whole, wholeOf context schema = .ok whole →
      ∀ property ∈ whole.properties, given property.2 (propertyHint owner property.1)
  | binding parameter _ => given (parameterSchema parameter) parameter.name

section Calls

variable {context : Context} {given : Schema → String → Prop} {isName : String → Prop}
  {schema : Schema} {state after : State}

/-- The types of fields are named like those of the properties. -/
theorem names_fields {owner : String} {fields : Except GenerationError (List Field)}
    (supplies : Supplies context given isName)
    (isGiven : (Call.fields schema owner).IsGiven context given)
    (all : AllGiven given isName state)
    (ran : lowerFields context schema owner state = (fields, after)) :
    AllGiven given isName after ∧
      Returns (fun fields => ∀ field ∈ fields, field.type.Names isName) fields := by
  rcases lowerFields_calls ran with ⟨_, _, rfl, rfl⟩ | ⟨whole, types, merged, called, rfl⟩
  · exact ⟨all, trivial⟩
  · have each : ∀ call ∈ propertyCalls owner (settable context whole.properties),
        given call.1 call.2 := by
      intro call member
      obtain ⟨property, held, rfl⟩ := List.mem_map.mp member
      exact isGiven whole merged property (List.mem_filter.mp held).1
    obtain ⟨allAfter, named⟩ := GivesNames.calls (lower_givesNames supplies) each all called
    refine ⟨allAfter, ?_⟩
    cases types with
    | error failure => trivial
    | ok types =>
      intro field member
      obtain ⟨value, held, condition, same⟩ := exists_of_mem_fieldsOf (List.mem_map_of_mem member)
      rw [same]
      exact (named value held).congr (names_optionalIf condition value)

theorem names_binding {parameter : Parameter} {scope : Scope}
    {binding : Except GenerationError Binding} (supplies : Supplies context given isName)
    (isGiven : given (parameterSchema parameter) parameter.name) (all : AllGiven given isName state)
    (ran : lowerParameter context parameter scope state = (binding, after)) :
    AllGiven given isName after ∧ Returns (fun binding => binding.type.Names isName) binding := by
  rw [lowerParameter_run] at ran
  rcases inner : lower context (parameterSchema parameter) parameter.name state
    with ⟨failure | type, middle⟩
  · rw [inner] at ran
    cases ran
    exact ⟨(lower_givesNames supplies isGiven all inner).1, trivial⟩
  · rw [inner] at ran
    cases ran
    obtain ⟨allMiddle, named⟩ := lower_givesNames supplies isGiven all inner
    exact ⟨allMiddle.addImports _, ValueType.Names.congr named
      ((names_optionalIf _ _).trans (names_separated parameter type))⟩

/-- A call on given schemas declares types with names of the kind. -/
theorem AllGiven.call (supplies : Supplies context given isName) (all : AllGiven given isName state)
    {call : Call} (isGiven : call.IsGiven context given) :
    AllGiven given isName (call.after context state) := by
  cases call with
  | single schema hint => exact (lower_givesNames supplies isGiven all (Prod.eta _).symm).1
  | fields schema owner => exact (names_fields supplies isGiven all (Prod.eta _).symm).1
  | binding parameter scope => exact (names_binding supplies isGiven all (Prod.eta _).symm).1

end Calls

end ServiceForge.Lowering
