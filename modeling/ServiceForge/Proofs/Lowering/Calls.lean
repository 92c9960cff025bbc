/-
This file says how a list of lowerings runs, one after another until one fails, and
that the properties of an object and the branches of a union are lowered as such a
list: the fields and the variants follow from the types alone.
-/

import ServiceForge.Lowering.Basic

namespace ServiceForge.Lowering

open ServiceForge.OpenApi (Schema)

/-! ### Runs of a computation -/

section Runs

variable {α β : Type} {state after : State}

/-- Whether a result, if there is one, has a property. -/
def Returns (P : α → Prop) : Except GenerationError α → Prop
  | .ok value => P value
  | .error _ => True

@[simp] theorem pure_run (value : α) (state : State) :
    (pure value : Lower α) state = (.ok value, state) := rfl

@[simp] theorem get_run (state : State) : (get : Lower State) state = (.ok state, state) := rfl

@[simp] theorem settle_run (result : Except GenerationError α) (state : State) :
    settle result state = (result, state) := rfl

@[simp] theorem attempt_run (action : Lower α) (state : State) :
    attempt action state = (.ok (action state).1, (action state).2) := rfl

@[simp] theorem within_run (enter leave : State → State) (action : Lower α) (state : State) :
    within enter leave action state =
      ((action (enter state)).1, leave (action (enter state)).2) := rfl

/-- Actions run one after another, up to the first that fails. -/
theorem bind_run (first : Lower α) (next : α → Lower β) (state : State) :
    (first >>= next) state =
      match first state with
      | (.ok value, middle) => next value middle
      | (.error error, middle) => (.error error, middle) := by
  show (ExceptT.bindCont next (first state).1) (first state).2 = _
  rcases first state with ⟨value | error, middle⟩ <;> rfl

theorem bind_run_of_ok {first : Lower α} {next : α → Lower β} {value : α}
    (ran : first state = (.ok value, after)) : (first >>= next) state = next value after := by
  rw [bind_run, ran]

theorem bind_run_of_error {first : Lower α} {next : α → Lower β} {error : GenerationError}
    (ran : first state = (.error error, after)) :
    (first >>= next) state = (.error error, after) := by
  rw [bind_run, ran]

/-- Two actions succeed together exactly if each succeeds where it starts. -/
theorem run_bind_eq_ok {first : Lower α} {next : α → Lower β} {result : β} :
    (first >>= next) state = (.ok result, after) ↔
      ∃ value middle, first state = (.ok value, middle) ∧
        next value middle = (.ok result, after) := by
  constructor
  · intro ran
    rcases begun : first state with ⟨failure | value, middle⟩
    · cases (bind_run_of_error begun).symm.trans ran
    · exact ⟨value, middle, rfl, (bind_run_of_ok begun).symm.trans ran⟩
  · rintro ⟨value, middle, begun, ran⟩
    exact (bind_run_of_ok begun).trans ran

theorem bind_pure_run (action : Lower α) (convert : α → β) (state : State) :
    (action >>= fun value => pure (convert value)) state =
      ((action state).1.map convert, (action state).2) := by
  rw [bind_run]
  rcases action state with ⟨failure | value, after⟩ <;> rfl

end Runs

/-! ### Lowerings one after another -/

/-- Lowerings one after another. A failure ends them and leaves the state as it is then. -/
inductive Calls (recur : Recur) :
    List (Schema × String) → State → Except GenerationError (List ValueType) → State → Prop
  | nil {state : State} : Calls recur [] state (.ok []) state
  | cons {schema : Schema} {hint : String} {rest : List (Schema × String)} {type : ValueType}
      {types : List ValueType} {state middle after : State} :
      recur schema hint state = (.ok type, middle) → Calls recur rest middle (.ok types) after →
        Calls recur ((schema, hint) :: rest) state (.ok (type :: types)) after
  | here {schema : Schema} {hint : String} {rest : List (Schema × String)}
      {error : GenerationError} {state after : State} :
      recur schema hint state = (.error error, after) →
        Calls recur ((schema, hint) :: rest) state (.error error) after
  | later {schema : Schema} {hint : String} {rest : List (Schema × String)} {type : ValueType}
      {error : GenerationError} {state middle after : State} :
      recur schema hint state = (.ok type, middle) → Calls recur rest middle (.error error) after →
        Calls recur ((schema, hint) :: rest) state (.error error) after

/-- Lowerings that all succeed give a type for each schema. -/
theorem Calls.length {recur : Recur} {calls : List (Schema × String)} {state after : State}
    {types : List ValueType} (ran : Calls recur calls state (.ok types) after) :
    types.length = calls.length := by
  induction calls generalizing state types with
  | nil =>
    cases ran
    rfl
  | cons call rest inductionHypothesis =>
    cases ran with
    | cons _ others => exact congrArg (· + 1) (inductionHypothesis others)

/-- The properties that become fields. -/
def settable (context : Context) (properties : List (String × Schema)) : List (String × Schema) :=
  properties.filter fun property =>
    !decide (context.dialect = .sdk ∧ property.2.readOnly = some true)

/-- The lowerings of properties, each with the name that its type is asked for by. -/
def propertyCalls (owner : String) (properties : List (String × Schema)) :
    List (Schema × String) :=
  properties.map fun property => (property.2, propertyHint owner property.1)

/-- The field for a property, after the fields before it. -/
def fieldOf (schema : Schema) (fields : List Field) (property : String × Schema)
    (type : ValueType) : Field where
  name := fresh (fields.map Field.name) "_" (Naming.fieldName property.1)
  wireName := property.1
  type := optionalIf (!schema.isRequired property.1) type
  required := schema.isRequired property.1
  description := property.2.description.or property.2.title

/-- The fields of properties whose types are given, added to those that are there. -/
def fieldsOf (schema : Schema) (fields : List Field) :
    List (String × Schema) → List ValueType → List Field
  | property :: rest, type :: types =>
    fieldsOf schema (fields ++ [fieldOf schema fields property type]) rest types
  | _, _ => fields

/-- The fields of properties have the types that were given for them. -/
theorem fieldsOf_types (schema : Schema) (fields : List Field)
    (properties : List (String × Schema)) (types : List ValueType) :
    (fieldsOf schema fields properties types).map Field.type =
      fields.map Field.type ++
        List.zipWith (fun property type => optionalIf (!schema.isRequired property.1) type)
          properties types := by
  induction properties generalizing fields types with
  | nil => simp [fieldsOf]
  | cons property rest inductionHypothesis =>
    cases types with
    | nil => simp [fieldsOf]
    | cons type types =>
      rw [fieldsOf, inductionHypothesis]
      simp [fieldOf]

/-- A field has the type of its property, perhaps as optional. -/
theorem exists_of_mem_fieldsOf {schema : Schema} {properties : List (String × Schema)}
    {types : List ValueType} {type : ValueType}
    (member : type ∈ (fieldsOf schema [] properties types).map Field.type) :
    ∃ value ∈ types, ∃ condition, type = optionalIf condition value := by
  rw [fieldsOf_types, List.map_nil, List.nil_append, ← List.map_uncurry_zip_eq_zipWith] at member
  obtain ⟨⟨property, value⟩, held, rfl⟩ := List.mem_map.mp member
  exact ⟨value, (List.of_mem_zip held).2, _, rfl⟩

/-- Properties are lowered one after another, and fields made of their types. -/
theorem lowerProperties_calls {context : Context} {recur : Recur} {schema : Schema}
    {owner : String} (properties : List (String × Schema)) {fields : List Field}
    {state after : State} {result : Except GenerationError (List Field)}
    (ran : lowerProperties context recur schema owner fields properties state = (result, after)) :
    ∃ types, Calls recur (propertyCalls owner (settable context properties)) state types after ∧
      result = types.map (fieldsOf schema fields (settable context properties)) := by
  induction properties generalizing fields state with
  | nil =>
    cases ran
    exact ⟨.ok [], .nil, rfl⟩
  | cons property rest inductionHypothesis =>
    obtain ⟨wireName, value⟩ := property
    unfold lowerProperties at ran
    by_cases hidden : context.dialect = .sdk ∧ value.readOnly = some true
    · rw [if_pos hidden] at ran
      have dropped : settable context ((wireName, value) :: rest) = settable context rest :=
        List.filter_cons_of_neg (by simp [hidden])
      rw [dropped]
      exact inductionHypothesis ran
    · rw [if_neg hidden] at ran
      have shown : settable context ((wireName, value) :: rest) =
          (wireName, value) :: settable context rest :=
        List.filter_cons_of_pos (by rw [decide_eq_false hidden]; rfl)
      rw [shown]
      rcases first : recur value (propertyHint owner wireName) state with ⟨failure | type, middle⟩
      · rw [bind_run_of_error first] at ran
        cases ran
        exact ⟨.error failure, .here first, rfl⟩
      · rw [bind_run_of_ok first] at ran
        obtain ⟨types, others, rfl⟩ := inductionHypothesis ran
        cases types with
        | error failure => exact ⟨.error failure, .later first others, rfl⟩
        | ok types => exact ⟨.ok (type :: types), .cons first others, rfl⟩

/-! ### Variants -/

/-- The version of a branch, or its number if it has none. -/
def versionOf (index : Nat) (branch : Schema) : String :=
  (branch.annotation? "min-ver").getD (toString index)

/-- The lowerings of branches by version, each with the name that its type is asked for by. -/
def versionCalls (name : String) (index : Nat) : List Schema → List (Schema × String)
  | [] => []
  | branch :: rest =>
    (branch, name ++ "_" ++ Naming.versionSuffix (versionOf index branch)) ::
      versionCalls name (index + 1) rest

/-- The variants of branches by version whose types are given. -/
def versionsOf (index : Nat) : List Schema → List ValueType → List (String × String × ValueType)
  | branch :: rest, type :: types =>
    ("V" ++ Naming.versionSuffix (versionOf index branch), versionOf index branch, type) ::
      versionsOf (index + 1) rest types
  | _, _ => []

/-- The variants by version have the types that were given for them. -/
theorem versionsOf_types {branches : List Schema} {types : List ValueType} (index : Nat)
    (same : types.length = branches.length) :
    (versionsOf index branches types).map (fun variant => variant.2.2) = types := by
  induction branches generalizing index types with
  | nil =>
    rw [List.length_eq_zero_iff.mp same]
    rfl
  | cons branch rest inductionHypothesis =>
    cases types with
    | nil => cases same
    | cons type types =>
      rw [versionsOf, List.map_cons, inductionHypothesis _ (Nat.succ.inj same)]

theorem versionCalls_schemas (name : String) (index : Nat) (branches : List Schema) :
    (versionCalls name index branches).map Prod.fst = branches := by
  induction branches generalizing index with
  | nil => rfl
  | cons branch rest inductionHypothesis => exact congrArg (branch :: ·) (inductionHypothesis _)

/-- Branches by version are lowered one after another, and variants made of their types. -/
theorem lowerVersioned_calls {recur : Recur} {name : String} (branches : List Schema)
    {index : Nat} {state after : State}
    {result : Except GenerationError (List (String × String × ValueType))}
    (ran : lowerVersioned recur name index branches state = (result, after)) :
    ∃ types, Calls recur (versionCalls name index branches) state types after ∧
      result = types.map (versionsOf index branches) := by
  induction branches generalizing index state after result with
  | nil =>
    cases ran
    exact ⟨.ok [], .nil, rfl⟩
  | cons branch rest inductionHypothesis =>
    unfold lowerVersioned at ran
    rcases first : recur branch (name ++ "_" ++ Naming.versionSuffix (versionOf index branch)) state
      with ⟨failure | type, middle⟩
    · replace ran := (bind_run_of_error first).symm.trans ran
      cases ran
      exact ⟨.error failure, .here first, rfl⟩
    · replace ran := (bind_run_of_ok first).symm.trans ran
      rw [bind_pure_run] at ran
      obtain ⟨rfl, rfl⟩ := Prod.mk.inj ran
      obtain ⟨types, others, same⟩ := inductionHypothesis (Prod.eta _)
      rw [same]
      cases types with
      | error failure => exact ⟨.error failure, .later first others, rfl⟩
      | ok types => exact ⟨.ok (type :: types), .cons first others, rfl⟩

/-- The lowerings of other branches, each with the name that its type is asked for by. -/
def payloadCalls (name : String) (index : Nat) : List Schema → List (Schema × String)
  | [] => []
  | branch :: rest =>
    (branch, branch.title.getD (name ++ "_" ++ toString index)) ::
      payloadCalls name (index + 1) rest

/-- The variant of a branch whose type is given, with a name that is new. -/
def payloadOf (variants : List (String × ValueType)) (type : ValueType) : String × ValueType :=
  (fresh (variants.map Prod.fst) (toString variants.length)
    (payloadName variants.length type.withoutOption), type)

/-- The variants of branches whose types are given, added to those that are there. -/
def payloadsOf (variants : List (String × ValueType)) : List ValueType → List (String × ValueType)
  | [] => variants
  | type :: types => payloadsOf (variants ++ [payloadOf variants type]) types

/-- The other variants have the types that were given for them. -/
theorem payloadsOf_types (variants : List (String × ValueType)) (types : List ValueType) :
    (payloadsOf variants types).map Prod.snd = variants.map Prod.snd ++ types := by
  induction types generalizing variants with
  | nil => simp [payloadsOf]
  | cons type types inductionHypothesis =>
    rw [payloadsOf, inductionHypothesis]
    simp [payloadOf]

theorem payloadCalls_schemas (name : String) (index : Nat) (branches : List Schema) :
    (payloadCalls name index branches).map Prod.fst = branches := by
  induction branches generalizing index with
  | nil => rfl
  | cons branch rest inductionHypothesis => exact congrArg (branch :: ·) (inductionHypothesis _)

/-- Other branches are lowered one after another, and variants made of their types. -/
theorem lowerUntagged_calls {recur : Recur} {name : String} (branches : List Schema)
    {variants : List (String × ValueType)} {state after : State}
    {result : Except GenerationError (List (String × ValueType))}
    (ran : lowerUntagged recur name variants branches state = (result, after)) :
    ∃ types, Calls recur (payloadCalls name variants.length branches) state types after ∧
      result = types.map (payloadsOf variants) := by
  induction branches generalizing variants state with
  | nil =>
    cases ran
    exact ⟨.ok [], .nil, rfl⟩
  | cons branch rest inductionHypothesis =>
    unfold lowerUntagged at ran
    rcases first : recur branch (branch.title.getD (name ++ "_" ++ toString variants.length)) state
      with ⟨failure | type, middle⟩
    · replace ran := (bind_run_of_error first).symm.trans ran
      cases ran
      exact ⟨.error failure, .here first, rfl⟩
    · replace ran := (bind_run_of_ok first).symm.trans ran
      obtain ⟨types, others, rfl⟩ := inductionHypothesis ran
      rw [List.length_append] at others
      cases types with
      | error failure => exact ⟨.error failure, .later first others, rfl⟩
      | ok types => exact ⟨.ok (type :: types), .cons first others, rfl⟩

/-- Whether the branches of a union are told apart by version. -/
def isVersioned (schema : Schema) : Bool :=
  schema.annotation? "discriminator" = some "microversion"

/-- The lowerings of the branches of a union. -/
def variantCalls (schema : Schema) (name : String) : List (Schema × String) :=
  if isVersioned schema then versionCalls name 0 schema.nonNullBranches
  else payloadCalls name 0 schema.nonNullBranches

/-- The variants of the branches of a union whose types are given. -/
def variantsOf (schema : Schema) (types : List ValueType) : Variants :=
  if isVersioned schema then .versioned (versionsOf 0 schema.nonNullBranches types)
  else .untagged (payloadsOf [] types)

/-- A variant has the type of its branch. -/
theorem variantsOf_types {schema : Schema} {types : List ValueType}
    (same : types.length = schema.nonNullBranches.length) :
    (variantsOf schema types).types = types := by
  unfold variantsOf
  split
  · exact versionsOf_types 0 same
  · exact payloadsOf_types [] types

/-- The branches of a union are lowered one after another. -/
theorem variantCalls_schemas (schema : Schema) (name : String) :
    (variantCalls schema name).map Prod.fst = schema.nonNullBranches := by
  unfold variantCalls
  split
  · exact versionCalls_schemas name 0 schema.nonNullBranches
  · exact payloadCalls_schemas name 0 schema.nonNullBranches

theorem length_variantCalls (schema : Schema) (name : String) :
    (variantCalls schema name).length = schema.nonNullBranches.length := by
  rw [← variantCalls_schemas schema name, List.length_map]

/-- The branches of a union are lowered one after another, and variants made of their types. -/
theorem lowerVariants_calls {recur : Recur} {schema : Schema} {name : String} {state after : State}
    {result : Except GenerationError Variants}
    (ran : lowerVariants recur schema name state = (result, after)) :
    ∃ types, Calls recur (variantCalls schema name) state types after ∧
      result = types.map (variantsOf schema) := by
  unfold lowerVariants at ran
  unfold variantCalls variantsOf isVersioned
  by_cases versioned : schema.annotation? "discriminator" = some "microversion"
  · rw [if_pos versioned, bind_pure_run] at ran
    obtain ⟨rfl, rfl⟩ := Prod.mk.inj ran
    obtain ⟨types, called, same⟩ := lowerVersioned_calls _ (Prod.eta _)
    simp only [versioned, decide_true, if_true]
    refine ⟨types, called, ?_⟩
    rw [same]
    cases types <;> rfl
  · rw [if_neg versioned, bind_pure_run] at ran
    obtain ⟨rfl, rfl⟩ := Prod.mk.inj ran
    obtain ⟨types, called, same⟩ := lowerUntagged_calls schema.nonNullBranches
      (Prod.eta (lowerUntagged recur name [] schema.nonNullBranches state))
    simp only [versioned, decide_false]
    refine ⟨types, called, ?_⟩
    rw [same]
    cases types <;> rfl

end ServiceForge.Lowering
