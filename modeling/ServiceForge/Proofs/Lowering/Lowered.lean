/-
This file relates schemas to the types they are lowered to. References, merged parts
and unions of one branch stand for the schema they unwrap to; lists and maps are
related item by item; any other schema has a leaf type or the name of a type that was
declared for an equal schema. Only a forward reference is a name that nothing is known
about. Every lowering that succeeds gives a related type. Every declared type is made for its
schema, with one type for each schema inside: types are declared one after another and none is
changed later, and a lowering that fails leaves those that were declared before.
-/

import ServiceForge.Proofs.Lowering.Reachable

namespace ServiceForge.Lowering

open ServiceForge.OpenApi (Schema Spec)

/-! ### Unwrapping -/

/-- A schema that is neither a reference nor merged from parts. -/
structure Direct (schema : Schema) : Prop where
  reference : schema.reference = none
  allOf : schema.allOf = []

theorem Direct.referenceName? {schema : Schema} (direct : Direct schema) :
    schema.referenceName? = none := by
  unfold Schema.referenceName?
  rw [direct.reference]
  rfl

/-- A schema that stands for another one: its component, its parts in one, or its only branch. -/
inductive Unwraps (spec : Spec) : Schema → Schema → Prop
  | component {schema target : Schema} {component : String} :
      schema.referenceName? = some component → spec.schema? component = some target →
        Unwraps spec schema target
  | whole {schema whole : Schema} :
      schema.reference = none → schema.allOf ≠ [] → mergeAllOf spec schema = .ok whole →
        Unwraps spec schema whole
  | branch {schema branch : Schema} :
      Direct schema → form schema = .union → schema.nonNullBranches = [branch] →
        Unwraps spec schema branch

theorem referenceName?_of_reference {schema : Schema} (own : schema.reference = none) :
    schema.referenceName? = none := by
  unfold Schema.referenceName?
  rw [own]
  rfl

/-- A schema stands for one schema at most. -/
theorem Unwraps.unique {spec : Spec} {schema first second : Schema}
    (left : Unwraps spec schema first) (right : Unwraps spec schema second) : first = second := by
  cases left with
  | component named found =>
    cases right with
    | component sameNamed sameFound =>
      cases named.symm.trans sameNamed
      exact Option.some.inj (found.symm.trans sameFound)
    | whole own => cases named.symm.trans (referenceName?_of_reference own)
    | branch direct => cases named.symm.trans direct.referenceName?
  | whole own parts merged =>
    cases right with
    | component named => cases named.symm.trans (referenceName?_of_reference own)
    | whole _ _ sameMerged => exact Except.ok.inj (merged.symm.trans sameMerged)
    | branch direct => exact absurd direct.allOf parts
  | branch direct _ only =>
    cases right with
    | component named => cases named.symm.trans direct.referenceName?
    | whole _ parts => exact absurd direct.allOf parts
    | branch _ _ sameOnly => exact List.head_eq_of_cons_eq (only.symm.trans sameOnly)

/-- A direct schema stands for another one only as a union of that one branch. -/
theorem Direct.branch_of_unwraps {spec : Spec} {schema inner : Schema} (direct : Direct schema)
    (unwraps : Unwraps spec schema inner) :
    form schema = .union ∧ schema.nonNullBranches = [inner] := by
  cases unwraps with
  | component named => cases named.symm.trans direct.referenceName?
  | whole _ parts => exact absurd direct.allOf parts
  | branch _ isUnion only => exact ⟨isUnion, only⟩

/-- A schema that has a declared type of its own. -/
structure Nominal (context : Context) (schema : Schema) : Prop where
  direct : Direct schema
  declares : Declares context schema

/-- A schema that gets a type of its own stands for no other schema. -/
theorem Nominal.not_unwraps {context : Context} {schema inner : Schema}
    (nominal : Nominal context schema) : ¬ Unwraps context.spec schema inner := by
  intro unwraps
  obtain ⟨isUnion, only⟩ := nominal.direct.branch_of_unwraps unwraps
  rcases nominal.declares.named with choice | ⟨isObject, -⟩ | ⟨-, several⟩
  · cases isUnion.symm.trans choice
  · cases isUnion.symm.trans isObject
  · rw [only] at several
    exact absurd several (by simp)

/-! ### Names in types -/

namespace ValueType

/-- All names in a type, those in boxes included. -/
def names : ValueType → List String
  | list item => item.names
  | commaSeparated item => item.names
  | map value => value.names
  | optional inner => inner.names
  | named name => [name]
  | boxed inner => inner.names
  | _ => []

/-- The name that a type consists of, perhaps in a box. -/
def name? : ValueType → Option String
  | named name => some name
  | boxed inner => inner.name?
  | _ => none

@[simp] theorem names_withoutOption (type : ValueType) : type.withoutOption.names = type.names := by
  cases type <;> rfl

/-- A type with a name has no other name in it. -/
theorem names_of_name? {type : ValueType} {name : String} (named : type.name? = some name) :
    type.names = [name] := by
  induction type with
  | named other => exact congrArg (fun name => [name]) (Option.some.inj named)
  | boxed inner inductionHypothesis => exact inductionHypothesis named
  | _ => cases named

end ValueType

/-! ### Types of schemas -/

/-- The types, options aside, that a schema may be lowered to while the given names are in use. -/
inductive Lowered (context : Context) (entries : List (String × Schema)) :
    Schema → ValueType → Prop
  | forward {schema : Schema} {component : String} :
      schema.referenceName? = some component →
        Lowered context entries schema (.boxed (.named (Naming.typeName component)))
  | unwrapped {schema inner : Schema} {type : ValueType} :
      Unwraps context.spec schema inner → Lowered context entries inner type →
        Lowered context entries schema type
  | foreign {schema : Schema} :
      schema.referenceName? = none → schema.reference.isSome = true →
        Lowered context entries schema .json
  | leaf {schema : Schema} {type : ValueType} {paths : List String} :
      Direct schema → Leaf context schema type paths → Lowered context entries schema type
  | list {schema items : Schema} {item : ValueType} :
      Direct schema → form schema = .array → schema.items = some items →
        Lowered context entries items item.withoutOption →
          Lowered context entries schema (.list item)
  | map {schema values : Schema} {value : ValueType} :
      Direct schema → form schema = .object → schema.additional = some (.each values) →
        Lowered context entries values value.withoutOption →
          Lowered context entries schema (.map value)
  | named {schema origin : Schema} {name : String} {type : ValueType} :
      Nominal context schema → (name, origin) ∈ entries →
        (origin = schema ∨ origin.equal schema = true) → type.name? = some name →
          Lowered context entries schema type

/-- What a schema was lowered to stays so while types are added. -/
theorem Lowered.mono {context : Context} {entries more : List (String × Schema)} {schema : Schema}
    {type : ValueType} (lowered : Lowered context entries schema type) (kept : entries ⊆ more) :
    Lowered context more schema type := by
  induction lowered with
  | forward named => exact .forward named
  | unwrapped unwraps _ inductionHypothesis => exact .unwrapped unwraps inductionHypothesis
  | foreign own foreign => exact .foreign own foreign
  | leaf direct leaf => exact .leaf direct leaf
  | list direct isArray items _ inductionHypothesis =>
    exact .list direct isArray items inductionHypothesis
  | map direct isObject values _ inductionHypothesis =>
    exact .map direct isObject values inductionHypothesis
  | named nominal held same named => exact .named nominal (kept held) same named

/-! ### Declared types and their schemas -/

/-- The further values that a structure has a type for. -/
def Further (schema : Schema) (extra : Option ValueType) : Prop :=
  match schema.additional with
  | some (.each _) => extra.isSome = true
  | some (.allowed true) => extra = some .json
  | _ => extra = none

theorem Extra.further {recur : Recur} {schema : Schema} {name : String} {state after : State}
    {extra : Option ValueType} (ran : Extra recur schema name state (.ok extra) after) :
    Further schema extra := by
  cases ran with
  | each further => simp [Further, further]
  | free further => simp [Further, further]
  | closed further => rcases further with none | closed <;> simp [Further, *]

/-- A type as it is declared for a schema, with one type for each schema inside. -/
inductive Made (context : Context) : Declared → Prop
  | choice {schema : Schema} {name : String} :
      Nominal context schema → form schema = .textChoice →
        Made context ⟨choiceType schema name, schema⟩
  | structure {schema : Schema} {name : String} {types : List ValueType}
      {extra : Option ValueType} :
      Nominal context schema → form schema = .object →
        types.length = (settable context schema.properties).length → Further schema extra →
          Made context ⟨structureType context schema name types extra, schema⟩
  | union {schema : Schema} {name : String} {types : List ValueType} :
      Nominal context schema → form schema = .union →
        types.length = schema.nonNullBranches.length →
          Made context ⟨unionType schema name types, schema⟩

/-- The schemas inside the schema of a declared type, each with the type that stands for it. -/
def Declared.parts (context : Context) (declared : Declared) : List (Schema × ValueType) :=
  match declared.subtype.shape with
  | .structure fields additional =>
    ((settable context declared.origin.properties).map Prod.snd).zip (fields.map Field.type) ++
      match declared.origin.additional, additional with
      | some (.each values), some (.map value) => [(values, value)]
      | _, _ => []
  | .enumeration variants => declared.origin.nonNullBranches.zip variants.types

@[simp] theorem withoutOption_optionalIf (condition : Bool) (type : ValueType) :
    (optionalIf condition type).withoutOption = type.withoutOption := by
  unfold optionalIf
  split
  · cases type <;> rfl
  · rfl

/-- A field has the type of its property, options aside. -/
theorem mem_zip_fields {schema part : Schema} {type : ValueType}
    {properties : List (String × Schema)} {types : List ValueType}
    (member : (part, type) ∈ (properties.map Prod.snd).zip
      ((fieldsOf schema [] properties types).map Field.type)) :
    ∃ value, (part, value) ∈ (properties.map Prod.snd).zip types ∧
      type.withoutOption = value.withoutOption := by
  rw [fieldsOf_types, List.map_nil, List.nil_append] at member
  induction properties generalizing types with
  | nil => cases member
  | cons property rest inductionHypothesis =>
    cases types with
    | nil => cases member
    | cons value types =>
      rcases List.mem_cons.mp member with first | later
      · cases first
        exact ⟨value, List.mem_cons_self, withoutOption_optionalIf _ _⟩
      · obtain ⟨other, held, same⟩ := inductionHypothesis later
        exact ⟨other, List.mem_cons_of_mem _ held, same⟩

/-! ### Every lowering gives a related type -/

/-- Whether all types declared so far are related to the schemas that they were declared for. -/
def Sound (context : Context) (entries : List (String × Schema)) (declared : List Declared) : Prop :=
  ∀ held ∈ declared, Made context held ∧ ∀ part type, (part, type) ∈ held.parts context →
    Lowered context entries part type.withoutOption

theorem Sound.mono {context : Context} {entries more : List (String × Schema)}
    {declared : List Declared} (sound : Sound context entries declared) (kept : entries ⊆ more) :
    Sound context more declared := by
  intro held member
  obtain ⟨made, parts⟩ := sound held member
  exact ⟨made, fun part type inside => (parts part type inside).mono kept⟩

/-- Declared types stay sound when one more is made of types that are. -/
theorem Sound.append {context : Context} {entries : List (String × Schema)}
    {declared : List Declared} {last : Declared} (sound : Sound context entries declared)
    (made : Made context last)
    (parts : ∀ part type, (part, type) ∈ last.parts context →
      Lowered context entries part type.withoutOption) :
    Sound context entries (declared ++ [last]) := by
  intro held member
  rcases List.mem_append.mp member with before | new
  · exact sound held before
  · rw [List.mem_singleton.mp new]
    exact ⟨made, parts⟩

/-- Names keep what they stand for while a state grows. -/
theorem Extends.entries {state after : State} (kept : Extends state after) :
    state.entries ⊆ after.entries := by
  intro entry member
  unfold State.entries
  rw [kept.inProgress]
  rcases List.mem_append.mp member with pending | held
  · exact List.mem_append_left _ pending
  · obtain ⟨declared, inside, rfl⟩ := List.mem_map.mp held
    exact List.mem_append_right _ (List.mem_map.mpr ⟨declared, kept.mem_declared inside, rfl⟩)

@[simp] theorem entries_addImports (state : State) (paths : List String) :
    (state.addImports paths).entries = state.entries := by
  simp [State.entries]

theorem mem_entries_declare (state : State) (schema : Schema) (subtype : Subtype) :
    (subtype.name, schema) ∈ (state.declare schema subtype).entries :=
  List.mem_append_right _ (List.mem_map.mpr
    ⟨⟨subtype, schema⟩, List.mem_append_right _ (List.mem_singleton.mpr rfl), rfl⟩)

/-- Once a type is declared, the names in use are those that were in use inside it. -/
theorem entries_declare {state last : State} {name : String} {schema : Schema} {subtype : Subtype}
    (inside : Extends (beginType name schema state) last) (named : subtype.name = name)
    (paths : List String) :
    last.entries ⊆ (((endType last).addImports paths).declare schema subtype).entries := by
  intro entry member
  simp only [State.entries, inside.inProgress, beginType, List.cons_append, List.mem_cons,
    List.mem_append] at member
  simp only [State.entries, State.declare, State.addImports_inProgress,
    State.addImports_declared, endType, inside.inProgress, beginType, List.tail_cons,
    List.map_append, List.map_cons, List.map_nil, List.mem_append, List.mem_singleton, named]
  tauto

/-- A type is related to its schema once it is declared if it was in progress before. -/
theorem Sound.finish {context : Context} {state last : State} {name : String} {schema : Schema}
    {subtype : Subtype} (inside : Extends (beginType name schema state) last)
    (named : subtype.name = name) (paths : List String)
    (sound : Sound context last.entries last.declared) (made : Made context ⟨subtype, schema⟩)
    (parts : ∀ part type, (part, type) ∈ Declared.parts context ⟨subtype, schema⟩ →
      Lowered context last.entries part type.withoutOption) :
    Sound context (((endType last).addImports paths).declare schema subtype).entries
      (((endType last).addImports paths).declare schema subtype).declared := by
  have kept := entries_declare inside named paths
  have declared : (((endType last).addImports paths).declare schema subtype).declared =
      last.declared ++ [⟨subtype, schema⟩] := by
    simp [State.declare, endType]
  rw [declared]
  exact (sound.mono kept).append made fun part type member => (parts part type member).mono kept

/-- What is asked of a way to lower the schemas inside a schema. -/
def Relates (context : Context) (recur : Recur) : Prop :=
  ∀ {schema : Schema} {hint : String} {state after : State} {type : ValueType},
    Tidy state → Sound context state.entries state.declared →
      recur schema hint state = (.ok type, after) →
        Sound context after.entries after.declared ∧
          Lowered context after.entries schema type.withoutOption

theorem Leaf.withoutOption {context : Context} {schema : Schema} {type : ValueType}
    {paths : List String} (leaf : Leaf context schema type paths) : type.withoutOption = type := by
  rcases leaf.shape with scalar | rfl | rfl
  · cases type <;> first | rfl | cases scalar
  · rfl
  · rfl

theorem Leaf.names {context : Context} {schema : Schema} {type : ValueType}
    {paths : List String} (leaf : Leaf context schema type paths) : type.names = [] := by
  rcases leaf.shape with scalar | rfl | rfl
  · cases type <;> first | rfl | cases scalar
  · rfl
  · rfl

theorem map_propertyCalls (owner : String) (properties : List (String × Schema)) :
    (propertyCalls owner properties).map Prod.fst = properties.map Prod.snd := by
  simp [propertyCalls]

section Relates

variable {context : Context} {recur : Recur} {schema : Schema} {hint name : String}
  {state after : State}

/-- Lowerings one after another relate each schema to its type. -/
theorem Relates.calls (relates : Relates context recur) (disciplined : Disciplined recur)
    {calls : List (Schema × String)} {types : List ValueType} (tidy : Tidy state)
    (sound : Sound context state.entries state.declared)
    (ran : Calls recur calls state (.ok types) after) :
    Sound context after.entries after.declared ∧
      ∀ part type, (part, type) ∈ (calls.map Prod.fst).zip types →
        Lowered context after.entries part type.withoutOption := by
  induction calls generalizing state types with
  | nil =>
    cases ran
    exact ⟨sound, fun part type member => by cases member⟩
  | cons call rest inductionHypothesis =>
    cases ran with
    | cons first others =>
      obtain ⟨soundMiddle, lowered⟩ := relates tidy sound first
      have tidyMiddle := (disciplined tidy first).1
      have kept := (disciplined.calls tidyMiddle others).2
      obtain ⟨soundAfter, later⟩ := inductionHypothesis tidyMiddle soundMiddle others
      refine ⟨soundAfter, fun part type member => ?_⟩
      rcases List.mem_cons.mp member with same | member
      · cases same
        exact lowered.mono kept.entries
      · exact later part type member

theorem Relates.extra (relates : Relates context recur) {extra : Option ValueType}
    (tidy : Tidy state) (sound : Sound context state.entries state.declared)
    (ran : Extra recur schema name state (.ok extra) after) :
    Sound context after.entries after.declared ∧ Further schema extra ∧
      ∀ values value, schema.additional = some (.each values) → extra = some value →
        Lowered context after.entries values value.withoutOption := by
  have isFurther := ran.further
  cases ran with
  | each further inside =>
    obtain ⟨soundAfter, lowered⟩ := relates tidy sound inside
    refine ⟨soundAfter, isFurther, ?_⟩
    rintro values value each same
    cases same
    cases further.symm.trans each
    exact lowered
  | free further =>
    rw [entries_addImports, State.addImports_declared]
    refine ⟨sound, isFurther, ?_⟩
    rintro values value each
    cases further.symm.trans each
  | closed =>
    refine ⟨sound, isFurther, ?_⟩
    rintro values value each same
    cases same

/-- A schema without references and parts is related to its type. -/
theorem Relates.plain (relates : Relates context recur) (disciplined : Disciplined recur)
    {type : ValueType} (tidy : Tidy state) (sound : Sound context state.entries state.declared)
    (direct : Direct schema) (ran : Plain context recur schema hint state (.ok type) after) :
    Sound context after.entries after.declared ∧
      Lowered context after.entries schema type.withoutOption := by
  cases ran with
  | leaf leaf =>
    rw [entries_addImports, State.addImports_declared, leaf.withoutOption]
    exact ⟨sound, .leaf direct leaf⟩
  | inner inner inside =>
    obtain ⟨soundAfter, lowered⟩ := relates tidy sound inside
    rw [entries_addImports, State.addImports_declared]
    refine ⟨soundAfter, ?_⟩
    cases inner with
    | branch isUnion only =>
      rw [withoutOption_optionalIf]
      exact .unwrapped (.branch direct isUnion only) lowered
    | items isArray _ items => exact .list direct isArray items lowered
    | values isObject _ _ values => exact .map direct isObject values lowered
  | existing declares claimed =>
    obtain ⟨declared, member, rfl, same⟩ := claim_existing claimed
    refine ⟨sound, .named ⟨direct, declares⟩ ?_ (Or.inr same) rfl⟩
    exact List.mem_append_right _ (List.mem_map.mpr ⟨declared, member, rfl⟩)
  | forward declares _ claimed =>
    obtain ⟨origin, pending, same⟩ := claim_forward claimed
    exact ⟨sound, .named ⟨direct, declares⟩ (List.mem_append_left _ pending) (Or.inr same) rfl⟩
  | forwardChoice _ choice claimed => exact absurd claimed (tidy.claim_ne_forward choice)
  | choice declares choice =>
    have nominal : Nominal context schema := ⟨direct, declares⟩
    refine ⟨?_, .named nominal (mem_entries_declare _ _ _) (Or.inl rfl) rfl⟩
    refine (sound.mono (Extends.declare _ _ _).entries).append (.choice nominal choice) ?_
    intro part type member
    simp [Declared.parts, choiceType, Variants.types] at member
  | «structure» declares isObject claimed fields further =>
    have nominal : Nominal context schema := ⟨direct, declares⟩
    have tidyBegun := tidy.beginType (claim_new claimed) (Or.inl isObject)
    obtain ⟨tidyMiddle, first⟩ := disciplined.calls tidyBegun fields
    have second := (disciplined.extra tidyMiddle further).2
    obtain ⟨soundMiddle, lowered⟩ := relates.calls disciplined tidyBegun
      (sound.mono (List.subset_cons_self _ _)) fields
    obtain ⟨soundLast, isFurther, loweredFurther⟩ := relates.extra tidyMiddle soundMiddle further
    have length := fields.length.trans (List.length_map _)
    refine ⟨soundLast.finish (first.trans second) rfl _ (.structure nominal isObject length
      isFurther) ?_, .named nominal (mem_entries_declare _ _ _) (Or.inl rfl) rfl⟩
    intro part type member
    rcases List.mem_append.mp member with inFields | inFurther
    · obtain ⟨value, held, same⟩ := mem_zip_fields inFields
      rw [same]
      rw [map_propertyCalls] at lowered
      exact (lowered part value held).mono second.entries
    · split at inFurther
      · next values value each same =>
        cases List.mem_singleton.mp inFurther
        obtain ⟨_, found, isMap⟩ := Option.map_eq_some_iff.mp same
        cases isMap
        exact loweredFurther _ _ each found
      · cases inFurther
  | union declares isUnion claimed variants =>
    have nominal : Nominal context schema := ⟨direct, declares⟩
    have tidyBegun := tidy.beginType (claim_new claimed) (Or.inr isUnion)
    have inside := (disciplined.calls tidyBegun variants).2
    obtain ⟨soundLast, lowered⟩ := relates.calls disciplined tidyBegun
      (sound.mono (List.subset_cons_self _ _)) variants
    have branches := variants.length.trans (length_variantCalls schema _)
    refine ⟨soundLast.finish inside rfl [] (.union nominal isUnion branches) ?_, ?_⟩
    · intro part type member
      have held : (part, type) ∈ schema.nonNullBranches.zip (variantsOf schema _).types := member
      rw [variantsOf_types branches] at held
      rw [variantCalls_schemas] at lowered
      exact lowered part type held
    · rw [withoutOption_optionalIf]
      exact .named nominal (mem_entries_declare _ _ _) (Or.inl rfl) rfl

/-- One step relates a schema to its type if what it asks for is related. -/
theorem Relates.step (relates : Relates context recur) (disciplined : Disciplined recur)
    {type : ValueType} (tidy : Tidy state) (sound : Sound context state.entries state.declared)
    (ran : Step context recur schema hint state (.ok type) after) :
    Sound context after.entries after.declared ∧
      Lowered context after.entries schema type.withoutOption := by
  cases ran with
  | forward named => exact ⟨sound, .forward named⟩
  | component named _ _ found inside =>
    obtain ⟨soundAfter, lowered⟩ := relates (tidy.beginComponent _) sound inside
    exact ⟨soundAfter, .unwrapped (.component named found) lowered⟩
  | foreign none foreign =>
    rw [entries_addImports, State.addImports_declared]
    exact ⟨sound, .foreign none foreign⟩
  | merged own parts merged inside =>
    obtain ⟨soundAfter, lowered⟩ := relates tidy sound inside
    exact ⟨soundAfter, .unwrapped (.whole own parts merged) lowered⟩
  | plain own parts inside =>
    rw [withoutOption_optionalIf]
    exact relates.plain disciplined tidy sound ⟨own, parts⟩ inside

/-- Lowering to any depth relates schemas to their types. -/
theorem lowerWithin_relates (context : Context) (limit : Nat) :
    Relates context (lowerWithin context limit) := by
  refine lowerWithin_induction (P := fun recur => Relates context recur) ?_ ?_ limit
  · intro schema hint state after type tidy sound ran
    cases ran
  · intro limit relates schema hint state after type tidy sound ran
    exact relates.step (lowerWithin_disciplined context limit) tidy sound (lowerStep_step ran)

end Relates

/-! ### Declared types are made for their schemas -/

/-- Whether each declared type is made for its schema. -/
def AllMade (context : Context) (state : State) : Prop :=
  ∀ declared ∈ state.declared, Made context declared

section AllMade

variable {context : Context} {recur : Recur} {schema : Schema} {hint name : String}
  {state after : State}

theorem AllMade.congr (made : AllMade context state) (same : after.declared = state.declared) :
    AllMade context after := by
  unfold AllMade
  rw [same]
  exact made

theorem AllMade.addImports (made : AllMade context state) (paths : List String) :
    AllMade context (state.addImports paths) :=
  made.congr (state.addImports_declared paths)

/-- Declared types stay made when one more is made. -/
theorem AllMade.declare {subtype : Subtype} (made : AllMade context state)
    (own : Made context ⟨subtype, schema⟩) : AllMade context (state.declare schema subtype) := by
  intro declared member
  rcases List.mem_append.mp member with before | new
  · exact made declared before
  · rw [List.mem_singleton.mp new]
    exact own

/-- What is asked of a way to lower the schemas inside a schema. -/
def KeepsMade (context : Context) (recur : Recur) : Prop :=
  ∀ {schema : Schema} {hint : String} {state after : State}
    {result : Except GenerationError ValueType},
    AllMade context state → recur schema hint state = (result, after) → AllMade context after

theorem KeepsMade.extra (keeps : KeepsMade context recur)
    {result : Except GenerationError (Option ValueType)} (made : AllMade context state)
    (ran : Extra recur schema name state result after) : AllMade context after := by
  cases ran with
  | each _ inside => exact keeps made inside
  | failed _ inside => exact keeps made inside
  | free => exact made.addImports _
  | closed => exact made

/-- A schema without references and parts keeps the declared types made. -/
theorem KeepsMade.plain (keeps : KeepsMade context recur) (direct : Direct schema)
    {result : Except GenerationError ValueType} (made : AllMade context state)
    (ran : Plain context recur schema hint state result after) : AllMade context after := by
  have begun (name : String) : AllMade context (beginType name schema state) := made.congr rfl
  cases ran with
  | leaf => exact made.addImports _
  | inner _ inside => exact (keeps made inside).addImports _
  | innerFailed _ inside => exact keeps made inside
  | unknown | existing | forward | forwardChoice => exact made
  | choice declares isChoice => exact made.declare (.choice ⟨direct, declares⟩ isChoice)
  | «structure» declares isObject _ fields further =>
    have inside : AllMade context (endType _) :=
      (keeps.extra (fields.keeps keeps (begun _)) further).congr rfl
    exact (inside.addImports _).declare (.structure ⟨direct, declares⟩ isObject
      (fields.length.trans (List.length_map _)) further.further)
  | structureFailed _ _ _ fields further =>
    exact (keeps.extra (fields.keeps keeps (begun _)) further).congr rfl
  | union declares isUnion _ variants =>
    have inside : AllMade context (endType _) := (variants.keeps keeps (begun _)).congr rfl
    exact inside.declare (.union ⟨direct, declares⟩ isUnion
      (variants.length.trans (length_variantCalls schema _)))
  | unionFailed _ _ _ variants => exact (variants.keeps keeps (begun _)).congr rfl

/-- One step keeps the declared types made if what it asks for does. -/
theorem KeepsMade.step (keeps : KeepsMade context recur)
    {result : Except GenerationError ValueType} (made : AllMade context state)
    (ran : Step context recur schema hint state result after) : AllMade context after := by
  cases ran with
  | forward | missing | unmerged => exact made
  | @component component _ _ _ _ _ _ _ inside =>
    have begun : AllMade context (beginComponent component state) := made.congr rfl
    exact (keeps begun inside).congr rfl
  | foreign => exact made.addImports _
  | merged _ _ _ inside => exact keeps made inside
  | plain own single inside => exact keeps.plain ⟨own, single⟩ made inside
  | plainFailed own single inside => exact keeps.plain ⟨own, single⟩ made inside

/-- Lowering to any depth keeps the declared types made. -/
theorem lowerWithin_keepsMade (context : Context) (limit : Nat) :
    KeepsMade context (lowerWithin context limit) := by
  refine lowerWithin_induction (P := fun recur => KeepsMade context recur) ?_ ?_ limit
  · intro schema hint state after result made ran
    cases ran
    exact made
  · intro limit keeps schema hint state after result made ran
    exact keeps.step made (lowerStep_step ran)

/-- In every state that is reached, each declared type is made for its schema. -/
theorem Reachable.made (reachable : Reachable context state) {declared : Declared}
    (member : declared ∈ state.declared) : Made context declared :=
  reachable.holds (P := AllMade context) (fun _ member => absurd member List.not_mem_nil)
    (fun made ran => lowerWithin_keepsMade context _ made ran)
    (fun _ paths made => made.addImports paths) declared member

end AllMade

end ServiceForge.Lowering
