/-
This file says what one step of the lowering can do. The form of a schema decides
which case applies; each case names the lowerings inside it, the state in which each
of them begins and the state that is left. What holds of every lowering is proved
case by case and follows for every depth.
-/

import ServiceForge.Proofs.Lowering.Calls

namespace ServiceForge.Lowering

open ServiceForge.OpenApi (Additional Schema)

/-! ### Imports -/

/-- The paths that are imported if the dialect is one of those given. -/
def importsIn (context : Context) (dialects : List Dialect) (paths : List String) : List String :=
  if dialects.contains context.dialect then paths else []

namespace State

/-- Imports several paths. -/
def addImports (state : State) (paths : List String) : State := paths.foldl addImport state

/-- Declares a type for a schema. -/
def declare (state : State) (schema : Schema) (subtype : Subtype) : State :=
  { state with declared := state.declared ++ [⟨subtype, schema⟩] }

@[simp] theorem addImports_nil (state : State) : state.addImports [] = state := rfl

@[simp] theorem addImports_cons (state : State) (path : String) (paths : List String) :
    state.addImports (path :: paths) = (state.addImport path).addImports paths := rfl

@[simp] theorem addImports_declared (state : State) (paths : List String) :
    (state.addImports paths).declared = state.declared := by
  induction paths generalizing state with
  | nil => rfl
  | cons path rest inductionHypothesis => exact inductionHypothesis (state.addImport path)

@[simp] theorem addImports_inProgress (state : State) (paths : List String) :
    (state.addImports paths).inProgress = state.inProgress := by
  induction paths generalizing state with
  | nil => rfl
  | cons path rest inductionHypothesis => exact inductionHypothesis (state.addImport path)

@[simp] theorem addImports_visiting (state : State) (paths : List String) :
    (state.addImports paths).visiting = state.visiting := by
  induction paths generalizing state with
  | nil => rfl
  | cons path rest inductionHypothesis => exact inductionHypothesis (state.addImport path)

end State

theorem addImport_run (path : String) (state : State) :
    addImport path state = (.ok (), state.addImports [path]) := rfl

theorem freeJson_run (state : State) :
    freeJson state = (.ok .json, state.addImports [Import.json]) := rfl

theorem declare_run (schema : Schema) (subtype : Subtype) (state : State) :
    declare schema subtype state = (.ok (), state.declare schema subtype) := rfl

theorem addImportIn_run (context : Context) (dialects : List Dialect) (path : String)
    (state : State) :
    addImportIn context dialects path state =
      (.ok (), state.addImports (importsIn context dialects [path])) := by
  unfold addImportIn importsIn
  split <;> rfl

/-! ### Forms of schemas -/

/-- What decides how a schema is lowered that is neither a reference nor merged from parts. -/
inductive Form where
  | union
  | textChoice
  | object
  | array
  | text
  | integer
  | number
  | boolean
  | unknown (type : String)
  | free
deriving DecidableEq, Repr

/-- The form of a schema that names a single type. -/
def formOfType : String → Form
  | "string" => .text
  | "integer" => .integer
  | "number" => .number
  | "boolean" => .boolean
  | "array" => .array
  | "object" => .object
  | other => .unknown other

/-- The form of a schema, which decides how it is lowered. -/
def form (schema : Schema) : Form :=
  if !schema.oneOf.isEmpty || !schema.anyOf.isEmpty then .union
  else if isTextChoice schema then .textChoice
  else
    match schema.nonNullTypes with
    | [] =>
      if !schema.properties.isEmpty || schema.additional.isSome then .object
      else if schema.items.isSome then .array
      else .free
    | [type] => formOfType type
    | _ => .free

/-- The lowering of a schema of a form. -/
def lowerForm (context : Context) (recur : Recur) (schema : Schema) (hint : String) :
    Form → Lower ValueType
  | .union => lowerUnion context recur schema hint
  | .textChoice => lowerTextChoice context schema hint
  | .object => lowerObject context recur schema hint
  | .array => lowerArray context recur schema hint
  | .text => lowerText context schema
  | .integer => return if schema.format = some "int64" then .int64 else .int32
  | .number => return if schema.format = some "double" then .float64 else .float32
  | .boolean => return .boolean
  | .unknown type => throw (.unsupportedType type hint)
  | .free => freeJson

/-- A schema is lowered by the form of the type that it names. -/
theorem lowerType_eq (context : Context) (recur : Recur) (type : String) (schema : Schema)
    (hint : String) :
    lowerType context recur type schema hint =
      lowerForm context recur schema hint (formOfType type) := by
  unfold lowerType
  split
  case h_7 =>
    have other : formOfType type = .unknown type := by
      unfold formOfType
      split <;> first | contradiction | rfl
    rw [other]
    rfl
  all_goals rfl

/-- A schema without references and parts is lowered by its form. -/
theorem lowerPlain_eq (context : Context) (recur : Recur) (schema : Schema) (hint : String) :
    lowerPlain context recur schema hint =
      lowerForm context recur schema hint (form schema) := by
  unfold lowerPlain form
  by_cases isUnion : (!schema.oneOf.isEmpty || !schema.anyOf.isEmpty) = true
  · rw [if_pos isUnion, if_pos isUnion]
    rfl
  rw [if_neg isUnion, if_neg isUnion]
  by_cases isChoice : isTextChoice schema = true
  · rw [if_pos isChoice, if_pos isChoice]
    rfl
  rw [if_neg isChoice, if_neg isChoice]
  match schema.nonNullTypes with
  | [] =>
    show (if _ then _ else _) = lowerForm context recur schema hint (if _ then _ else _)
    split
    · rfl
    · split <;> rfl
  | [type] => exact lowerType_eq context recur type schema hint
  | _ :: _ :: _ => rfl


/-! ### Leaves -/

/-- The types of schemas whose lowering looks at no other schema, with the paths they import. -/
inductive Leaf (context : Context) (schema : Schema) : ValueType → List String → Prop
  | free : form schema = .free → Leaf context schema .json [Import.json]
  | dateTime :
      form schema = .text → schema.format = some "date-time" →
        Leaf context schema .dateTime
          (importsIn context [.sdk, .cliRequest] [Import.dateTime, Import.timeZone])
  | text :
      form schema = .text → schema.format ≠ some "date-time" →
        Leaf context schema .text (importsIn context [.sdk] [Import.borrowedText])
  | integer :
      form schema = .integer →
        Leaf context schema (if schema.format = some "int64" then .int64 else .int32) []
  | number :
      form schema = .number →
        Leaf context schema (if schema.format = some "double" then .float64 else .float32) []
  | boolean : form schema = .boolean → Leaf context schema .boolean []
  | choice : form schema = .textChoice → context.dialect ≠ .sdk → Leaf context schema .text []
  | shownArray :
      form schema = .array → context.dialect = .cli → Leaf context schema .json [Import.json]
  | freeItems :
      form schema = .array → context.dialect ≠ .cli → schema.items = none →
        Leaf context schema (.list .json) [Import.json]
  | freeMap :
      form schema = .object → schema.properties = [] →
        (context.dialect = .cli ∨ ∀ values, schema.additional ≠ some (.each values)) →
          Leaf context schema .json [Import.json]
  | freeObject :
      form schema = .object → schema.properties ≠ [] → context.dialect ≠ .sdk →
        Leaf context schema .json [Import.json]
  | emptyUnion :
      form schema = .union → schema.nonNullBranches = [] → Leaf context schema .json [Import.json]
  | freeUnion :
      form schema = .union → 2 ≤ schema.nonNullBranches.length → context.dialect ≠ .sdk →
        Leaf context schema .json [Import.json]

/-- A leaf is a scalar, free JSON or a list of free JSON. -/
theorem Leaf.shape {context : Context} {schema : Schema} {type : ValueType}
    {paths : List String} (leaf : Leaf context schema type paths) :
    type.isScalar = true ∨ type = .json ∨ type = .list .json := by
  cases leaf with
  | integer => exact Or.inl (by split <;> rfl)
  | number => exact Or.inl (by split <;> rfl)
  | dateTime | text | boolean | choice => exact Or.inl rfl
  | freeItems => exact Or.inr (Or.inr rfl)
  | _ => exact Or.inr (Or.inl rfl)

/-! ### Schemas that stand for one schema inside -/

/-- A schema whose lowering is that of one schema inside, up to what the type is wrapped in and
the paths that are imported for it. -/
inductive Inner (context : Context) (schema : Schema) (hint : String) :
    Schema → String → (ValueType → ValueType) → List String → Prop
  | branch {branch : Schema} :
      form schema = .union → schema.nonNullBranches = [branch] →
        Inner context schema hint branch hint (optionalIf schema.hasNullBranch) []
  | items {items : Schema} :
      form schema = .array → context.dialect ≠ .cli → schema.items = some items →
        Inner context schema hint items (Naming.singularize hint) .list []
  | values {values : Schema} :
      form schema = .object → schema.properties = [] → context.dialect ≠ .cli →
        schema.additional = some (.each values) →
          Inner context schema hint values hint .map (importsIn context [.sdk] [Import.map])

/-! ### Declared types -/

/-- A schema that may have a type declared for it. -/
structure Declares (context : Context) (schema : Schema) : Prop where
  dialect : context.dialect = .sdk
  named : form schema = .textChoice ∨ form schema = .object ∧ schema.properties ≠ [] ∨
    form schema = .union ∧ 2 ≤ schema.nonNullBranches.length

/-- The type that is declared for a choice of texts. -/
def choiceType (schema : Schema) (name : String) : Subtype where
  name := name
  description := schema.description
  shape := .enumeration (.texts (textVariants [] (schema.choices.filterMap Json.string?)))

/-- The type that is declared for objects whose properties have the given types. -/
def structureType (context : Context) (schema : Schema) (name : String) (types : List ValueType)
    (extra : Option ValueType) : Subtype where
  name := name
  description := schema.description
  shape := .structure (fieldsOf schema [] (settable context schema.properties) types)
    (extra.map .map)

/-- The type that is declared for a union whose branches have the given types. -/
def unionType (schema : Schema) (name : String) (types : List ValueType) : Subtype where
  name := name
  description := schema.description
  shape := .enumeration (variantsOf schema types)

/-- The types in a structure are those of its fields and of its further values. -/
theorem memberTypes_structureType {context : Context} {schema : Schema} {name : String}
    {types : List ValueType} {extra : Option ValueType} {type : ValueType}
    (member : type ∈ (structureType context schema name types extra).memberTypes) :
    (∃ value ∈ types, ∃ condition, type = optionalIf condition value) ∨
      ∃ value ∈ extra, type = .map value := by
  rcases List.mem_append.mp member with inFields | inFurther
  · exact Or.inl (exists_of_mem_fieldsOf inFields)
  · cases extra with
    | none => cases inFurther
    | some value => exact Or.inr ⟨value, rfl, List.mem_singleton.mp inFurther⟩

/-- The types in a union are those of its branches. -/
theorem memberTypes_unionType {schema : Schema} (name : String) {types : List ValueType}
    (branches : types.length = schema.nonNullBranches.length) :
    (unionType schema name types).memberTypes = types :=
  variantsOf_types branches

/-- The lowering of the further properties of an object. -/
inductive Extra (recur : Recur) (schema : Schema) (name : String) (state : State) :
    Except GenerationError (Option ValueType) → State → Prop
  | each {values : Schema} {type : ValueType} {after : State} :
      schema.additional = some (.each values) → recur values name state = (.ok type, after) →
        Extra recur schema name state (.ok (some type)) after
  | failed {values : Schema} {error : GenerationError} {after : State} :
      schema.additional = some (.each values) → recur values name state = (.error error, after) →
        Extra recur schema name state (.error error) after
  | free :
      schema.additional = some (.allowed true) →
        Extra recur schema name state (.ok (some .json)) (state.addImports [Import.json])
  | closed :
      (schema.additional = none ∨ schema.additional = some (.allowed false)) →
        Extra recur schema name state (.ok none) state

/-- Additional properties are lowered in one of the ways for them. -/
theorem lowerAdditional_extra (recur : Recur) (schema : Schema) (name : String) (state : State) :
    Extra recur schema name state (lowerAdditional recur schema name state).1
      (lowerAdditional recur schema name state).2 := by
  unfold lowerAdditional
  match further : schema.additional with
  | some (.each values) =>
    simp only
    rw [bind_pure_run]
    rcases ran : recur values name state with ⟨failure | type, after⟩
    · exact .failed further ran
    · exact .each further ran
  | some (.allowed true) => exact .free further
  | some (.allowed false) => exact .closed (Or.inr further)
  | none => exact .closed (Or.inl further)

/-! ### Schemas that are neither references nor merged -/

/-- What the lowering of such a schema can do, null aside. -/
inductive Plain (context : Context) (recur : Recur) (schema : Schema) (hint : String)
    (state : State) : Except GenerationError ValueType → State → Prop
  | leaf {type : ValueType} {paths : List String} :
      Leaf context schema type paths →
        Plain context recur schema hint state (.ok type) (state.addImports paths)
  | unknown {name : String} :
      form schema = .unknown name →
        Plain context recur schema hint state (.error (.unsupportedType name hint)) state
  | inner {part : Schema} {partHint : String} {wrap : ValueType → ValueType}
      {paths : List String} {type : ValueType} {after : State} :
      Inner context schema hint part partHint wrap paths →
        recur part partHint state = (.ok type, after) →
          Plain context recur schema hint state (.ok (wrap type)) (after.addImports paths)
  | innerFailed {part : Schema} {partHint : String} {wrap : ValueType → ValueType}
      {paths : List String} {error : GenerationError} {after : State} :
      Inner context schema hint part partHint wrap paths →
        recur part partHint state = (.error error, after) →
          Plain context recur schema hint state (.error error) after
  | existing {name : String} :
      Declares context schema → claim state hint schema = .existing name →
        Plain context recur schema hint state (.ok (.named name)) state
  | forward {name : String} :
      Declares context schema → form schema ≠ .textChoice →
        claim state hint schema = .forward name →
          Plain context recur schema hint state (.ok (.boxed (.named name))) state
  | forwardChoice {name : String} :
      Declares context schema → form schema = .textChoice →
        claim state hint schema = .forward name →
          Plain context recur schema hint state (.ok (.named name)) state
  | choice {name : String} :
      Declares context schema → form schema = .textChoice →
        claim state hint schema = .new name →
          Plain context recur schema hint state (.ok (.named name))
            (state.declare schema (choiceType schema name))
  | structure {name : String} {types : List ValueType} {extra : Option ValueType}
      {middle last : State} :
      Declares context schema → form schema = .object → claim state hint schema = .new name →
        Calls recur (propertyCalls "" (settable context schema.properties))
          (beginType name schema state) (.ok types) middle →
        Extra recur schema name middle (.ok extra) last →
          Plain context recur schema hint state (.ok (.named name))
            (((endType last).addImports (if extra.isSome then [Import.map] else [])).declare schema
              (structureType context schema name types extra))
  | structureFailed {name : String} {types : Except GenerationError (List ValueType)}
      {extra : Except GenerationError (Option ValueType)} {error : GenerationError}
      {middle last : State} :
      Declares context schema → form schema = .object → claim state hint schema = .new name →
        Calls recur (propertyCalls "" (settable context schema.properties))
          (beginType name schema state) types middle →
        Extra recur schema name middle extra last →
        (types = .error error ∨ (∃ fields, types = .ok fields) ∧ extra = .error error) →
          Plain context recur schema hint state (.error error) (endType last)
  | union {name : String} {types : List ValueType} {last : State} :
      Declares context schema → form schema = .union → claim state hint schema = .new name →
        Calls recur (variantCalls schema name) (beginType name schema state) (.ok types) last →
          Plain context recur schema hint state
            (.ok (optionalIf schema.hasNullBranch (.named name)))
            ((endType last).declare schema (unionType schema name types))
  | unionFailed {name : String} {error : GenerationError} {last : State} :
      Declares context schema → form schema = .union → claim state hint schema = .new name →
        Calls recur (variantCalls schema name) (beginType name schema state) (.error error) last →
          Plain context recur schema hint state (.error error) (endType last)

section Plain

variable {context : Context} {recur : Recur} {schema : Schema} {hint : String} {state : State}

/-- Texts with a format are dates with times, others are texts, with the imports of the dialect. -/
theorem lowerText_run (context : Context) (schema : Schema) (state : State) :
    lowerText context schema state =
      if schema.format = some "date-time" then
        (.ok .dateTime, state.addImports
          (importsIn context [.sdk, .cliRequest] [Import.dateTime, Import.timeZone]))
      else (.ok .text, state.addImports (importsIn context [.sdk] [Import.borrowedText])) := by
  unfold lowerText
  split
  · rw [bind_run_of_ok (addImportIn_run _ _ _ _), bind_run_of_ok (addImportIn_run _ _ _ _)]
    unfold importsIn
    split <;> rfl
  · rw [bind_run_of_ok (addImportIn_run _ _ _ _)]
    rfl

theorem lowerText_plain (isText : form schema = .text) :
    Plain context recur schema hint state (lowerText context schema state).1
      (lowerText context schema state).2 := by
  rw [lowerText_run]
  split
  · next dated => exact .leaf (.dateTime isText dated)
  · next plain => exact .leaf (.text isText plain)

theorem lowerArray_plain (isArray : form schema = .array) :
    Plain context recur schema hint state (lowerArray context recur schema hint state).1
      (lowerArray context recur schema hint state).2 := by
  unfold lowerArray
  by_cases shown : context.dialect = .cli
  · rw [if_pos shown]
    exact .leaf (.shownArray isArray shown)
  rw [if_neg shown]
  cases inside : schema.items with
  | none => exact .leaf (.freeItems isArray shown inside)
  | some items =>
    simp only
    rw [bind_pure_run]
    rcases ran : recur items (Naming.singularize hint) state with ⟨failure | type, after⟩
    · exact .innerFailed (.items isArray shown inside) ran
    · exact .inner (.items isArray shown inside) ran

theorem lowerMap_plain (isObject : form schema = .object) (empty : schema.properties = []) :
    Plain context recur schema hint state (lowerMap context recur schema hint state).1
      (lowerMap context recur schema hint state).2 := by
  unfold lowerMap
  match further : schema.additional with
  | none => exact .leaf (.freeMap isObject empty (Or.inr (by simp [further])))
  | some (.allowed flag) => exact .leaf (.freeMap isObject empty (Or.inr (by simp [further])))
  | some (.each values) =>
    by_cases shown : context.dialect = .cli
    · simp only [if_pos shown]
      exact .leaf (.freeMap isObject empty (Or.inl shown))
    · simp only [if_neg shown]
      rcases ran : recur values hint state with ⟨failure | type, after⟩
      · rw [bind_run_of_error ran]
        exact .innerFailed (.values isObject empty shown further) ran
      · rw [bind_run_of_ok ran, bind_run_of_ok (addImportIn_run _ _ _ _)]
        exact .inner (.values isObject empty shown further) ran

theorem lowerTextChoice_plain (isChoice : form schema = .textChoice) :
    Plain context recur schema hint state (lowerTextChoice context schema hint state).1
      (lowerTextChoice context schema hint state).2 := by
  unfold lowerTextChoice
  by_cases sdk : context.dialect = .sdk
  · rw [if_neg (not_not_intro sdk), bind_run_of_ok (get_run state)]
    have declares : Declares context schema := ⟨sdk, Or.inl isChoice⟩
    cases claimed : claim state hint schema with
    | existing name => exact .existing declares claimed
    | forward name => exact .forwardChoice declares isChoice claimed
    | new name => exact .choice declares isChoice claimed
  · rw [if_pos sdk]
    exact .leaf (.choice isChoice sdk)

theorem lowerStructure_plain {name : String} (declares : Declares context schema)
    (isObject : form schema = .object) (whole : schema.allOf.isEmpty = true)
    (claimed : claim state hint schema = .new name) :
    Plain context recur schema hint state (lowerStructure context recur schema name state).1
      (lowerStructure context recur schema name state).2 := by
  have fieldsRan : lowerFieldsWith context recur schema "" =
      lowerProperties context recur schema "" [] schema.properties := by
    unfold lowerFieldsWith
    rw [if_pos whole]
    rfl
  unfold lowerStructure
  rw [fieldsRan]
  rcases fields : lowerProperties context recur schema "" [] schema.properties
    (beginType name schema state) with ⟨result, middle⟩
  obtain ⟨types, called, rfl⟩ := lowerProperties_calls _ fields
  rcases further : lowerAdditional recur schema name middle with ⟨extra, last⟩
  have extraRan := lowerAdditional_extra recur schema name middle
  rw [further] at extraRan
  have both : within (beginType name schema) endType (do
      return (← attempt (lowerProperties context recur schema "" [] schema.properties),
        ← attempt (lowerAdditional recur schema name))) state =
      (.ok (types.map (fieldsOf schema [] (settable context schema.properties)), extra),
        endType last) := by
    rw [within_run, bind_run, attempt_run, fields]
    simp only
    rw [bind_run, attempt_run, further]
    rfl
  rw [bind_run_of_ok both]
  cases types with
  | error failure =>
    exact .structureFailed declares isObject claimed called extraRan (Or.inl rfl)
  | ok types =>
    cases extra with
    | error failure =>
      exact .structureFailed declares isObject claimed called extraRan (Or.inr ⟨⟨_, rfl⟩, rfl⟩)
    | ok extra =>
      have ended := Plain.structure declares isObject claimed called extraRan
      cases extra with
      | none => exact ended
      | some type => exact ended

theorem lowerObject_plain (isObject : form schema = .object)
    (whole : schema.allOf.isEmpty = true) :
    Plain context recur schema hint state (lowerObject context recur schema hint state).1
      (lowerObject context recur schema hint state).2 := by
  unfold lowerObject
  by_cases empty : schema.properties.isEmpty = true
  · rw [if_pos empty]
    exact lowerMap_plain isObject (List.isEmpty_iff.mp empty)
  have filled : schema.properties ≠ [] := fun none => empty (List.isEmpty_iff.mpr none)
  rw [if_neg empty]
  by_cases sdk : context.dialect = .sdk
  · rw [if_neg (not_not_intro sdk), bind_run_of_ok (get_run state)]
    have declares : Declares context schema := ⟨sdk, Or.inr (Or.inl ⟨isObject, filled⟩)⟩
    cases claimed : claim state hint schema with
    | existing name => exact .existing declares claimed
    | forward name => exact .forward declares (by simp [isObject]) claimed
    | new name => exact lowerStructure_plain declares isObject whole claimed
  · rw [if_pos sdk]
    exact .leaf (.freeObject isObject filled sdk)

theorem lowerUnion_plain (isUnion : form schema = .union) :
    Plain context recur schema hint state (lowerUnion context recur schema hint state).1
      (lowerUnion context recur schema hint state).2 := by
  unfold lowerUnion
  match several : schema.nonNullBranches with
  | [] => exact .leaf (.emptyUnion isUnion several)
  | [single] =>
    simp only
    rw [bind_pure_run]
    rcases ran : recur single hint state with ⟨failure | type, after⟩
    · exact .innerFailed (.branch isUnion several) ran
    · exact .inner (.branch isUnion several) ran
  | first :: second :: rest =>
    simp only
    have two : 2 ≤ schema.nonNullBranches.length := by simp [several]
    by_cases sdk : context.dialect = .sdk
    · rw [if_neg (not_not_intro sdk), bind_run_of_ok (get_run state)]
      have declares : Declares context schema := ⟨sdk, Or.inr (Or.inr ⟨isUnion, two⟩)⟩
      cases claimed : claim state hint schema with
      | existing name => exact .existing declares claimed
      | forward name => exact .forward declares (by simp [isUnion]) claimed
      | new name =>
        rcases inside : lowerVariants recur schema name (beginType name schema state)
          with ⟨result, last⟩
        obtain ⟨types, called, rfl⟩ := lowerVariants_calls inside
        have ran : within (beginType name schema) endType (lowerVariants recur schema name) state =
            (types.map (variantsOf schema), endType last) := by
          rw [within_run, inside]
        cases types with
        | error failure =>
          simp only
          rw [bind_run_of_error ran]
          exact .unionFailed declares isUnion claimed called
        | ok types =>
          simp only
          rw [bind_run_of_ok ran]
          exact .union declares isUnion claimed called
    · rw [if_pos sdk]
      exact .leaf (.freeUnion isUnion two sdk)

variable (context recur hint state) in
/-- A schema without references and parts is lowered in one of the ways for it. -/
theorem lowerPlain_plain (whole : schema.allOf.isEmpty = true) :
    Plain context recur schema hint state (lowerPlain context recur schema hint state).1
      (lowerPlain context recur schema hint state).2 := by
  rw [lowerPlain_eq]
  cases known : form schema with
  | union => exact lowerUnion_plain known
  | textChoice => exact lowerTextChoice_plain known
  | object => exact lowerObject_plain known whole
  | array => exact lowerArray_plain known
  | text => exact lowerText_plain known
  | integer => exact .leaf (.integer known)
  | number => exact .leaf (.number known)
  | boolean => exact .leaf (.boolean known)
  | unknown type => exact .unknown known
  | free => exact .leaf (.free known)

end Plain

/-! ### Steps -/

/-- What one step of the lowering can do. -/
inductive Step (context : Context) (recur : Recur) (schema : Schema) (hint : String)
    (state : State) : Except GenerationError ValueType → State → Prop
  | forward {component : String} :
      schema.referenceName? = some component →
        (component ∈ state.visiting ∨ state.isInProgress (Naming.typeName component) = true) →
          Step context recur schema hint state
            (.ok (.boxed (.named (Naming.typeName component)))) state
  | missing {component : String} :
      schema.referenceName? = some component → context.spec.schema? component = none →
        Step context recur schema hint state (.error (.componentNotFound component)) state
  | component {component : String} {target : Schema} {result : Except GenerationError ValueType}
      {after : State} :
      schema.referenceName? = some component → component ∉ state.visiting →
        state.isInProgress (Naming.typeName component) = false →
          context.spec.schema? component = some target →
            recur target component (beginComponent component state) = (result, after) →
              Step context recur schema hint state result (endComponent component after)
  | foreign :
      schema.referenceName? = none → schema.reference.isSome = true →
        Step context recur schema hint state (.ok .json) (state.addImports [Import.json])
  | unmerged {error : GenerationError} :
      schema.reference = none → schema.allOf ≠ [] → mergeAllOf context.spec schema = .error error →
        Step context recur schema hint state (.error error) state
  | merged {whole : Schema} {result : Except GenerationError ValueType} {after : State} :
      schema.reference = none → schema.allOf ≠ [] → mergeAllOf context.spec schema = .ok whole →
        recur whole hint state = (result, after) →
          Step context recur schema hint state result after
  | plain {type : ValueType} {after : State} :
      schema.reference = none → schema.allOf = [] →
        Plain context recur schema hint state (.ok type) after →
          Step context recur schema hint state (.ok (optionalIf schema.isNullable type)) after
  | plainFailed {error : GenerationError} {after : State} :
      schema.reference = none → schema.allOf = [] →
        Plain context recur schema hint state (.error error) after →
          Step context recur schema hint state (.error error) after

section Steps

variable {context : Context} {recur : Recur} {schema : Schema} {hint component : String}
  {state : State}

/-- A component in progress is referred to by its name, in a box. -/
theorem lowerStep_forward (named : schema.referenceName? = some component)
    (begun : component ∈ state.visiting ∨ state.isInProgress (Naming.typeName component) = true) :
    lowerStep context recur schema hint state =
      (.ok (.boxed (.named (Naming.typeName component))), state) := by
  unfold lowerStep
  rw [named]
  unfold lowerComponent
  simp only
  rw [bind_run_of_ok (get_run state), if_pos (by simpa using begun)]
  rfl

/-- A component that the document does not have fails. -/
theorem lowerStep_missing (named : schema.referenceName? = some component)
    (new : component ∉ state.visiting)
    (idle : state.isInProgress (Naming.typeName component) = false)
    (missing : context.spec.schema? component = none) :
    lowerStep context recur schema hint state = (.error (.componentNotFound component), state) := by
  unfold lowerStep
  rw [named]
  unfold lowerComponent
  simp only
  rw [bind_run_of_ok (get_run state), if_neg (by simp [new, idle]), missing]
  rfl

/-- A component that is new is lowered under its own name. -/
theorem lowerStep_component {target : Schema} (named : schema.referenceName? = some component)
    (new : component ∉ state.visiting)
    (idle : state.isInProgress (Naming.typeName component) = false)
    (found : context.spec.schema? component = some target) :
    lowerStep context recur schema hint state =
      ((recur target component (beginComponent component state)).1,
        endComponent component (recur target component (beginComponent component state)).2) := by
  unfold lowerStep
  rw [named]
  unfold lowerComponent
  simp only
  rw [bind_run_of_ok (get_run state), if_neg (by simp [new, idle]), found]
  rfl

/-- A reference to no component gives free JSON. -/
theorem lowerStep_foreign (unnamed : schema.referenceName? = none)
    (foreign : schema.reference.isSome = true) :
    lowerStep context recur schema hint state =
      (.ok .json, state.addImports [Import.json]) := by
  unfold lowerStep
  rw [unnamed]
  simp only
  rw [if_pos foreign, freeJson_run]

/-- A schema with parts is lowered as what they are merged to. -/
theorem lowerStep_merged {whole : Schema} (own : schema.reference = none)
    (several : schema.allOf ≠ [])
    (merged : mergeAllOf context.spec schema = .ok whole) :
    lowerStep context recur schema hint state = recur whole hint state := by
  unfold lowerStep
  rw [Schema.referenceName?, own]
  simp only [Option.bind_none]
  rw [if_neg (by simp), if_pos (by simpa using several), merged]
  exact bind_run_of_ok rfl

/-- A schema whose parts cannot be merged fails. -/
theorem lowerStep_unmerged {error : GenerationError} (own : schema.reference = none)
    (several : schema.allOf ≠ []) (unmerged : mergeAllOf context.spec schema = .error error) :
    lowerStep context recur schema hint state = (.error error, state) := by
  unfold lowerStep
  rw [Schema.referenceName?, own]
  simp only [Option.bind_none]
  rw [if_neg (by simp), if_pos (by simpa using several), unmerged]
  exact bind_run_of_error rfl

/-- Any other schema is lowered by its form, and may be absent if it is nullable. -/
theorem lowerStep_plain (own : schema.reference = none) (single : schema.allOf = []) :
    lowerStep context recur schema hint state =
      ((lowerPlain context recur schema hint state).1.map (optionalIf schema.isNullable),
        (lowerPlain context recur schema hint state).2) := by
  unfold lowerStep
  rw [Schema.referenceName?, own]
  simp only [Option.bind_none]
  rw [if_neg (by simp), if_neg (by simp [single]), bind_pure_run]

/-- Each step is one of the ways to take a step. -/
theorem lowerStep_step {after : State} {result : Except GenerationError ValueType}
    (ran : lowerStep context recur schema hint state = (result, after)) :
    Step context recur schema hint state result after := by
  cases named : schema.referenceName? with
  | some component =>
    by_cases begun : component ∈ state.visiting ∨
        state.isInProgress (Naming.typeName component) = true
    · rw [lowerStep_forward named begun] at ran
      cases ran
      exact .forward named begun
    obtain ⟨new, idle⟩ : component ∉ state.visiting ∧
        state.isInProgress (Naming.typeName component) = false := by simpa using begun
    cases found : context.spec.schema? component with
    | none =>
      rw [lowerStep_missing named new idle found] at ran
      cases ran
      exact .missing named found
    | some target =>
      rw [lowerStep_component named new idle found] at ran
      obtain ⟨rfl, rfl⟩ := Prod.mk.inj ran
      exact .component named new idle found rfl
  | none =>
    by_cases foreign : schema.reference.isSome = true
    · rw [lowerStep_foreign named foreign] at ran
      cases ran
      exact .foreign named foreign
    have own : schema.reference = none := by simpa using foreign
    by_cases single : schema.allOf = []
    · rw [lowerStep_plain own single] at ran
      obtain ⟨rfl, rfl⟩ := Prod.mk.inj ran
      have plain := lowerPlain_plain context recur hint state (List.isEmpty_iff.mpr single)
      rcases inside : lowerPlain context recur schema hint state with ⟨failure | type, after⟩
      · rw [inside] at plain
        exact .plainFailed own single plain
      · rw [inside] at plain
        exact .plain own single plain
    · cases merged : mergeAllOf context.spec schema with
      | error failure =>
        rw [lowerStep_unmerged own single merged] at ran
        cases ran
        exact .unmerged own single merged
      | ok whole =>
        rw [lowerStep_merged own single merged] at ran
        exact .merged own single merged ran

end Steps

/-- What holds of a lowering that gives up at once, and holds of each step if it holds of the
lowerings inside it, holds at every depth. -/
theorem lowerWithin_induction {context : Context} {P : Recur → Prop}
    (endless : P fun _ hint => throw (.endlessSchema hint))
    (step : ∀ limit, P (lowerWithin context limit) →
      P (lowerStep context (lowerWithin context limit))) (limit : Nat) :
    P (lowerWithin context limit) := by
  induction limit with
  | zero => exact endless
  | succ limit inductionHypothesis => exact step limit inductionHypothesis

end ServiceForge.Lowering
