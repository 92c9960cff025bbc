/-
This file says when the names in generated types denote what they should: every name
is declared, and the name that stands for a reference to a component is that of the
type declared for the schema of the component. Names that come from a declaration or
from a claim always do. A forward reference is written before it is known whether its
component gets a type of that name, so the names are right exactly when each forward
reference is.
-/

import ServiceForge.Proofs.Lowering.Lowered

namespace ServiceForge.Lowering

open ServiceForge.OpenApi (Additional Parameter Schema)

/-! ### Calls that succeed -/

/-- The calls that led to a state all succeeded; each schema that was asked for is listed with the
type that was returned for it. -/
inductive Succeeds (context : Context) : List (Schema × ValueType) → State → Prop
  | initial : Succeeds context [] {}
  | single {roots : List (Schema × ValueType)} {state after : State} {schema : Schema}
      {hint : String} {type : ValueType} :
      Succeeds context roots state → lower context schema hint state = (.ok type, after) →
        Succeeds context (roots ++ [(schema, type)]) after
  | fields {roots : List (Schema × ValueType)} {state after : State} {schema whole : Schema}
      {owner : String} {fields : List Field} :
      Succeeds context roots state →
        lowerFields context schema owner state = (.ok fields, after) →
          wholeOf context schema = .ok whole →
            Succeeds context (roots ++ ((settable context whole.properties).map Prod.snd).zip
              (fields.map Field.type)) after
  | binding {roots : List (Schema × ValueType)} {state after : State} {parameter : Parameter}
      {scope : Scope} {binding : Binding} :
      Succeeds context roots state →
        lowerParameter context parameter scope state = (.ok binding, after) →
          Succeeds context (roots ++ [(parameterSchema parameter, binding.type)]) after

/-! ### What names stand for -/

namespace ValueType

/-- The list that a parameter writes as one text. -/
def asList : ValueType → ValueType
  | commaSeparated item => list item
  | type => type

@[simp] theorem names_asList (type : ValueType) : type.asList.names = type.names := by
  cases type <;> rfl

end ValueType

/-- Which types, options aside, stand for which schemas in what was returned and declared. A type
that stands for a reference stands for the component as well. -/
inductive Stands (context : Context) (roots : List (Schema × ValueType)) (state : State) :
    Schema → ValueType → Prop
  | root {schema : Schema} {type : ValueType} :
      (schema, type) ∈ roots → Stands context roots state schema type.withoutOption.asList
  | part {declared : Declared} {schema : Schema} {type : ValueType} :
      declared ∈ state.declared → (schema, type) ∈ declared.parts context →
        Stands context roots state schema type.withoutOption
  | unwraps {schema inner : Schema} {type : ValueType} :
      Stands context roots state schema type → Unwraps context.spec schema inner →
        Stands context roots state inner type
  | item {schema items : Schema} {item : ValueType} :
      Stands context roots state schema (.list item) → Direct schema → form schema = .array →
        schema.items = some items → Stands context roots state items item.withoutOption
  | value {schema values : Schema} {value : ValueType} :
      Stands context roots state schema (.map value) → Direct schema → form schema = .object →
        schema.additional = some (.each values) →
          Stands context roots state values value.withoutOption

/-- Whether the type declared under a name is the one for the schema that a schema unwraps to. -/
def Means (context : Context) (state : State) (schema : Schema) (name : String) : Prop :=
  ∃ declared core, state.declared.find? (·.subtype.name = name) = some declared ∧
    Made context declared ∧ Relation.ReflTransGen (Unwraps context.spec) schema core ∧
      Nominal context core ∧ (declared.origin = core ∨ declared.origin.equal core = true)

/-- Whether the type declared under a name is the one for the schema of a component. -/
def Denotes (context : Context) (state : State) (component name : String) : Prop :=
  ∃ target, context.spec.schema? component = some target ∧ Means context state target name

/-- Whether every name in a returned or declared type is declared. -/
def Closed (roots : List (Schema × ValueType)) (state : State) : Prop :=
  (∀ root ∈ roots, ∀ name ∈ root.2.names, IsDeclared state name) ∧
    ∀ subtype ∈ state.subtypes, ∀ type ∈ subtype.memberTypes, ∀ name ∈ type.names,
      IsDeclared state name

/-- Whether every name that stands for a reference denotes the component. -/
def ReferencesDenote (context : Context) (roots : List (Schema × ValueType)) (state : State) :
    Prop :=
  ∀ schema type component name, Stands context roots state schema type →
    schema.referenceName? = some component → type.name? = some name →
      Denotes context state component name

/-- Whether every forward reference, the box of the name of its own component, denotes it. -/
def ForwardsDenote (context : Context) (roots : List (Schema × ValueType)) (state : State) : Prop :=
  ∀ schema component,
    Stands context roots state schema (.boxed (.named (Naming.typeName component))) →
      schema.referenceName? = some component →
        Denotes context state component (Naming.typeName component)

/-! ### What is known after calls that succeed -/

theorem Leaf.asList {context : Context} {schema : Schema} {type : ValueType}
    {paths : List String} (leaf : Leaf context schema type paths) : type.asList = type := by
  rcases leaf.shape with scalar | rfl | rfl
  · cases type <;> first | rfl | cases scalar
  · rfl
  · rfl

theorem Lowered.asList {context : Context} {entries : List (String × Schema)} {schema : Schema}
    {type : ValueType} (lowered : Lowered context entries schema type) : type.asList = type := by
  induction lowered with
  | forward => rfl
  | unwrapped _ _ inductionHypothesis => exact inductionHypothesis
  | foreign => rfl
  | leaf _ leaf => exact leaf.asList
  | list => rfl
  | map => rfl
  | @named _ _ _ type _ _ _ named => cases type <;> first | rfl | cases named

/-- What holds of all that was returned and declared. -/
structure Settled (context : Context) (roots : List (Schema × ValueType)) (state : State) :
    Prop where
  tidy : Tidy state
  idle : state.inProgress = []
  sound : Sound context state.entries state.declared
  roots : ∀ schema type, (schema, type) ∈ roots →
    Lowered context state.entries schema type.withoutOption.asList

theorem Settled.extend {context : Context} {roots more : List (Schema × ValueType)}
    {state after : State} (settled : Settled context roots state) (tidy : Tidy after)
    (kept : Extends state after) (sound : Sound context after.entries after.declared)
    (lowered : ∀ schema type, (schema, type) ∈ more →
      Lowered context after.entries schema type.withoutOption.asList) :
    Settled context (roots ++ more) after := by
  refine ⟨tidy, kept.inProgress.trans settled.idle, sound, ?_⟩
  intro schema type member
  rcases List.mem_append.mp member with before | new
  · exact (settled.roots schema type before).mono kept.entries
  · exact lowered schema type new

theorem withoutOption_separated (parameter : Parameter) {type : ValueType}
    (notSeparated : type.withoutOption.asList = type.withoutOption) :
    (separated parameter type).withoutOption.asList = type.withoutOption := by
  cases type with
  | list item =>
    show (if parameter.isCommaSeparated then ValueType.commaSeparated item
      else .list item).withoutOption.asList = .list item
    split <;> rfl
  | _ => exact notSeparated

theorem Succeeds.settled {context : Context} {roots : List (Schema × ValueType)} {state : State}
    (run : Succeeds context roots state) : Settled context roots state := by
  have disciplined : Disciplined (lower context) := lower_disciplined context
  have relates : Relates context (lower context) :=
    fun tidy sound ran => lowerWithin_relates context _ tidy sound ran
  induction run with
  | initial =>
    refine ⟨.initial, rfl, ?_, ?_⟩
    · intro declared member
      cases member
    · intro schema type member
      cases member
  | single _ ran settled =>
    obtain ⟨tidy, kept⟩ := disciplined settled.tidy ran
    obtain ⟨sound, lowered⟩ := relates settled.tidy settled.sound ran
    refine settled.extend tidy kept sound fun schema type member => ?_
    cases List.mem_singleton.mp member
    rw [lowered.asList]
    exact lowered
  | fields _ ran merged settled =>
    rcases lowerFields_calls ran with ⟨_, _, failed, _⟩ | ⟨whole, types, same, called, returned⟩
    · cases failed
    cases types with
    | error failure => cases returned
    | ok types =>
      cases returned
      cases merged.symm.trans same
      obtain ⟨tidy, kept⟩ := disciplined.calls settled.tidy called
      obtain ⟨sound, lowered⟩ :=
        relates.calls disciplined settled.tidy settled.sound called
      refine settled.extend tidy kept sound fun schema type member => ?_
      obtain ⟨value, held, sameType⟩ := mem_zip_fields member
      rw [map_propertyCalls] at lowered
      have related := lowered schema value held
      rw [sameType, related.asList]
      exact related
  | @binding _ _ _ parameter _ _ _ ran settled =>
    rw [lowerParameter_run] at ran
    rcases inside : lower context (parameterSchema parameter) parameter.name _
      with ⟨failure | type, middle⟩
    · rw [inside] at ran
      cases ran
    · rw [inside] at ran
      cases ran
      obtain ⟨tidy, kept⟩ := disciplined settled.tidy inside
      obtain ⟨sound, lowered⟩ := relates settled.tidy settled.sound inside
      refine settled.extend (tidy.addImports _) (kept.trans (.addImports _ _)) ?_ ?_
      · rw [entries_addImports, State.addImports_declared]
        exact sound
      · intro schema type member
        cases List.mem_singleton.mp member
        rw [entries_addImports]
        simp only [bindingOf, withoutOption_optionalIf]
        rw [withoutOption_separated parameter lowered.asList]
        exact lowered

/-! ### Names that are not forward references -/

theorem Direct.not_unwraps {context : Context} {schema inner : Schema} (direct : Direct schema)
    (single : form schema ≠ .union) : ¬ Unwraps context.spec schema inner :=
  fun unwraps => single (direct.branch_of_unwraps unwraps).1

theorem Leaf.length_branches {context : Context} {schema : Schema} {type : ValueType}
    {paths : List String} (leaf : Leaf context schema type paths) (isUnion : form schema = .union) :
    schema.nonNullBranches.length ≠ 1 := by
  cases leaf with
  | emptyUnion _ none => simp [none]
  | freeUnion _ several => omega
  | _ => simp_all

theorem Leaf.not_unwraps {context : Context} {schema inner : Schema} {type : ValueType}
    {paths : List String} (leaf : Leaf context schema type paths) (direct : Direct schema) :
    ¬ Unwraps context.spec schema inner := by
  intro unwraps
  obtain ⟨isUnion, only⟩ := direct.branch_of_unwraps unwraps
  exact leaf.length_branches isUnion (congrArg List.length only)

theorem Leaf.items_of_list {context : Context} {schema : Schema} {item : ValueType}
    {paths : List String} (leaf : Leaf context schema (.list item) paths) :
    schema.items = none := by
  generalize isList : ValueType.list item = type at leaf
  cases leaf with
  | freeItems _ _ none => exact none
  | integer => split at isList <;> cases isList
  | number => split at isList <;> cases isList
  | _ => cases isList

theorem Leaf.ne_map {context : Context} {schema : Schema} {type value : ValueType}
    {paths : List String} (leaf : Leaf context schema type paths) : type ≠ .map value := by
  rintro rfl
  rcases leaf.shape with scalar | isJson | isList
  · cases scalar
  · cases isJson
  · cases isList

/-- What a schema means is what the schema means that it unwraps to. -/
theorem Means.unwrap {context : Context} {state : State} {schema inner : Schema} {name : String}
    (means : Means context state schema name) (unwraps : Unwraps context.spec schema inner) :
    Means context state inner name := by
  obtain ⟨declared, core, found, made, chain, nominal, same⟩ := means
  rcases Relation.ReflTransGen.cases_head chain with rfl | ⟨next, first, rest⟩
  · exact absurd unwraps nominal.not_unwraps
  · rw [first.unique unwraps] at rest
    exact ⟨declared, core, found, made, rest, nominal, same⟩

theorem Means.wrap {context : Context} {state : State} {schema inner : Schema} {name : String}
    (means : Means context state inner name) (unwraps : Unwraps context.spec schema inner) :
    Means context state schema name := by
  obtain ⟨declared, core, found, made, chain, nominal, same⟩ := means
  exact ⟨declared, core, found, made, .head unwraps chain, nominal, same⟩

theorem Means.isDeclared {context : Context} {state : State} {schema : Schema} {name : String}
    (means : Means context state schema name) : IsDeclared state name := by
  obtain ⟨declared, _, found, _⟩ := means
  exact ⟨declared, List.mem_of_find?_eq_some found, by simpa using List.find?_some found⟩

/-- A reference denotes what it means. -/
theorem Means.denotes {context : Context} {state : State} {schema : Schema}
    {component name : String} (means : Means context state schema name)
    (named : schema.referenceName? = some component) : Denotes context state component name := by
  obtain ⟨declared, core, found, made, chain, nominal, same⟩ := means
  rcases Relation.ReflTransGen.cases_head chain with rfl | ⟨next, first, rest⟩
  · cases named.symm.trans nominal.direct.referenceName?
  · have kept : Means context state next name :=
      ⟨declared, core, found, made, rest, nominal, same⟩
    cases first with
    | component sameNamed target =>
      cases named.symm.trans sameNamed
      exact ⟨next, target, kept⟩
    | whole own => cases named.symm.trans (referenceName?_of_reference own)
    | branch direct => cases named.symm.trans direct.referenceName?

/-- A schema whose type needs no declaration means no name. -/
theorem Direct.not_means {context : Context} {state : State} {schema : Schema} {name : String}
    (direct : Direct schema) (noChoice : form schema ≠ .textChoice)
    (noObject : form schema ≠ .object) (noUnion : form schema ≠ .union) :
    ¬ Means context state schema name := by
  rintro ⟨declared, core, -, -, chain, nominal, -⟩
  rcases Relation.ReflTransGen.cases_head chain with rfl | ⟨next, first, -⟩
  · rcases nominal.declares.named with choice | ⟨isObject, -⟩ | ⟨isUnion, -⟩
    · exact noChoice choice
    · exact noObject isObject
    · exact noUnion isUnion
  · exact direct.not_unwraps noUnion first

theorem Denotes.means {context : Context} {state : State} {schema : Schema}
    {component name : String} (denotes : Denotes context state component name)
    (named : schema.referenceName? = some component) : Means context state schema name := by
  obtain ⟨target, found, means⟩ := denotes
  exact means.wrap (.component named found)

section Names

variable {context : Context} {roots : List (Schema × ValueType)} {state : State} {schema : Schema}
  {type : ValueType} {name : String}

/-- A name in use stands for the schema that it was declared for. -/
theorem Settled.means (settled : Settled context roots state) {origin : Schema}
    (nominal : Nominal context schema) (held : (name, origin) ∈ state.entries)
    (same : origin = schema ∨ origin.equal schema = true) : Means context state schema name := by
  unfold State.entries at held
  rw [settled.idle, List.nil_append] at held
  obtain ⟨declared, member, isEntry⟩ := List.mem_map.mp held
  cases isEntry
  exact ⟨declared, schema, settled.tidy.find?_declared member, (settled.sound declared member).1,
    .refl, nominal, same⟩

/-- A name that stands for a schema is the name of its type if forward references are right. -/
theorem Lowered.means (lowered : Lowered context state.entries schema type)
    (settled : Settled context roots state) (forwards : ForwardsDenote context roots state)
    (stands : Stands context roots state schema type) (isName : type.name? = some name) :
    Means context state schema name := by
  induction lowered with
  | forward named =>
    rw [← Option.some.inj isName]
    exact (forwards _ _ stands named).means named
  | unwrapped unwraps _ inductionHypothesis =>
    exact (inductionHypothesis (stands.unwraps unwraps) isName).wrap unwraps
  | foreign => cases isName
  | leaf _ leaf =>
    have names := ValueType.names_of_name? isName
    rw [leaf.names] at names
    cases names
  | list => cases isName
  | map => cases isName
  | named nominal held same sameName =>
    cases isName.symm.trans sameName
    exact settled.means nominal held same

/-- Every name in a type that stands for a schema is declared if forward references are right. -/
theorem Lowered.closed (lowered : Lowered context state.entries schema type)
    (settled : Settled context roots state) (forwards : ForwardsDenote context roots state)
    (stands : Stands context roots state schema type) :
    ∀ name ∈ type.names, IsDeclared state name := by
  induction lowered with
  | forward named =>
    intro name member
    rw [List.mem_singleton.mp member]
    exact ((forwards _ _ stands named).means named).isDeclared
  | unwrapped unwraps _ inductionHypothesis => exact inductionHypothesis (stands.unwraps unwraps)
  | foreign =>
    intro name member
    cases member
  | leaf _ leaf =>
    intro name member
    rw [leaf.names] at member
    cases member
  | list direct isArray items _ inductionHypothesis =>
    have inside := inductionHypothesis (stands.item direct isArray items)
    rw [ValueType.names_withoutOption] at inside
    exact inside
  | map direct isObject values _ inductionHypothesis =>
    have inside := inductionHypothesis (stands.value direct isObject values)
    rw [ValueType.names_withoutOption] at inside
    exact inside
  | named nominal held same sameName =>
    intro name member
    rw [ValueType.names_of_name? sameName, List.mem_singleton] at member
    rw [member]
    exact (settled.means nominal held same).isDeclared

/-- What stands for a schema is a type that the schema may be lowered to, or the name of its
type. -/
theorem Stands.lowered (stands : Stands context roots state schema type)
    (settled : Settled context roots state) (forwards : ForwardsDenote context roots state) :
    Lowered context state.entries schema type ∨
      ∃ name, type.name? = some name ∧ Means context state schema name := by
  induction stands with
  | root member => exact Or.inl (settled.roots _ _ member)
  | part held member => exact Or.inl ((settled.sound _ held).2 _ _ member)
  | unwraps stands unwraps inductionHypothesis =>
    rcases inductionHypothesis with lowered | ⟨name, isName, means⟩
    · cases lowered with
      | forward named =>
        exact Or.inr ⟨_, rfl, ((forwards _ _ stands named).means named).unwrap unwraps⟩
      | unwrapped first lowered =>
        rw [first.unique unwraps] at lowered
        exact Or.inl lowered
      | foreign none foreign =>
        cases unwraps with
        | component named => cases named.symm.trans none
        | whole own => rw [own] at foreign; cases foreign
        | branch direct => rw [direct.reference] at foreign; cases foreign
      | leaf direct leaf => exact absurd unwraps (leaf.not_unwraps direct)
      | list direct isArray => exact absurd unwraps (direct.not_unwraps (by simp [isArray]))
      | map direct isObject => exact absurd unwraps (direct.not_unwraps (by simp [isObject]))
      | named nominal => exact absurd unwraps nominal.not_unwraps
    · exact Or.inr ⟨name, isName, means.unwrap unwraps⟩
  | item stands direct isArray items inductionHypothesis =>
    rcases inductionHypothesis with lowered | ⟨name, isName, _⟩
    · cases lowered with
      | unwrapped unwraps => exact absurd unwraps (direct.not_unwraps (by simp [isArray]))
      | leaf _ leaf => cases leaf.items_of_list.symm.trans items
      | list _ _ sameItems lowered =>
        cases items.symm.trans sameItems
        exact Or.inl lowered
      | named _ _ _ isName => cases isName
    · cases isName
  | value stands direct isObject values inductionHypothesis =>
    rcases inductionHypothesis with lowered | ⟨name, isName, _⟩
    · cases lowered with
      | unwrapped unwraps => exact absurd unwraps (direct.not_unwraps (by simp [isObject]))
      | leaf _ leaf => exact absurd rfl leaf.ne_map
      | map _ _ sameValues lowered =>
        cases values.symm.trans sameValues
        exact Or.inl lowered
      | named _ _ _ isName => cases isName
    · cases isName

end Names

/-! ### Names in declared types -/

/-- In lists of one length every right element has a left one. -/
theorem exists_mem_zip {α β : Type} {lefts : List α} {rights : List β}
    (length : rights.length ≤ lefts.length) {right : β} (member : right ∈ rights) :
    ∃ left, (left, right) ∈ lefts.zip rights := by
  rw [← List.map_snd_zip length] at member
  obtain ⟨⟨left, other⟩, held, rfl⟩ := List.mem_map.mp member
  exact ⟨left, held⟩

/-- Each name in a declared type comes from a schema inside the schema of the type. -/
theorem Made.names {context : Context} {declared : Declared} (made : Made context declared)
    {type : ValueType} (member : type ∈ declared.subtype.memberTypes) {name : String}
    (inside : name ∈ type.names) :
    ∃ part inner, (part, inner) ∈ declared.parts context ∧ name ∈ inner.names := by
  cases made with
  | choice => cases member
  | @«structure» schema _ types extra _ _ length further =>
    rcases List.mem_append.mp member with inFields | inFurther
    · have fields : ((fieldsOf schema [] (settable context schema.properties) types).map
          Field.type).length ≤ ((settable context schema.properties).map Prod.snd).length := by
        rw [fieldsOf_types, List.map_nil, List.nil_append, List.length_zipWith, List.length_map]
        exact Nat.min_le_left _ _
      obtain ⟨part, held⟩ := exists_mem_zip fields inFields
      exact ⟨part, type, List.mem_append_left _ held, inside⟩
    · obtain ⟨value, rfl, rfl⟩ : ∃ value, extra = some value ∧ .map value = type := by
        simpa using inFurther
      unfold Further at further
      match known : schema.additional with
      | some (.each values) =>
        refine ⟨values, value, List.mem_append_right _ ?_, inside⟩
        simp [known]
      | some (.allowed true) =>
        rw [known] at further
        cases further
        cases inside
      | some (.allowed false) =>
        rw [known] at further
        cases further
      | none =>
        rw [known] at further
        cases further
  | @union schema _ types _ _ branches =>
    have held : type ∈ (variantsOf schema types).types := member
    have length : (variantsOf schema types).types.length ≤ schema.nonNullBranches.length := by
      rw [variantsOf_types branches]
      exact Nat.le_of_eq branches
    obtain ⟨part, paired⟩ := exists_mem_zip length held
    exact ⟨part, type, paired, inside⟩

/-! ### Names denote what they should -/

/-- After calls that all succeeded, every name is declared and every name that stands for a
reference to a component is that of the type declared for the schema of the component if and only
if this holds of the forward references: the boxed names that stand for their own component. -/
theorem closed_and_denote_iff {context : Context} {roots : List (Schema × ValueType)}
    {state : State} (run : Succeeds context roots state) :
    Closed roots state ∧ ReferencesDenote context roots state ↔
      ForwardsDenote context roots state := by
  have settled := run.settled
  constructor
  · rintro ⟨-, denote⟩ schema component stands named
    exact denote schema _ component _ stands named rfl
  · intro forwards
    refine ⟨⟨?_, ?_⟩, ?_⟩
    · rintro ⟨schema, type⟩ member name inside
      refine (settled.roots schema type member).closed settled forwards (.root member) name ?_
      simpa using inside
    · rintro subtype member type held name inside
      obtain ⟨declared, memberDeclared, rfl⟩ := List.mem_map.mp member
      obtain ⟨made, parts⟩ := settled.sound declared memberDeclared
      obtain ⟨part, inner, isPart, insideInner⟩ := made.names held inside
      refine (parts part inner isPart).closed settled forwards
        (.part memberDeclared isPart) name ?_
      simpa using insideInner
    · intro schema type component name stands named isName
      have means : Means context state schema name := by
        rcases stands.lowered settled forwards with lowered | ⟨other, isOther, means⟩
        · exact lowered.means settled forwards stands isName
        · cases isName.symm.trans isOther
          exact means
      exact means.denotes named

/-- A component that is an object, asked for by reference. -/
def serverContext : Context where
  dialect := .sdk
  spec := {
    version := "3.1.0"
    components := { schemas := [("Server", { properties := [("id", .ofType "integer")] })] } }

/-- Nothing that stands for a schema there is a box. -/
theorem server_stands {schema : Schema} {type : ValueType}
    (stands : Stands serverContext [(refersTo "Server", .named "Server")]
      (lower serverContext (refersTo "Server") "" {}).2 schema type) :
    type = .named "Server" ∨ type = .int32 := by
  induction stands with
  | root member =>
    cases List.mem_singleton.mp member
    exact Or.inl rfl
  | part held member =>
    have fields : ∀ declared ∈ (lower serverContext (refersTo "Server") "" {}).2.declared,
        ∀ pair ∈ declared.parts serverContext, pair.2.withoutOption = .int32 := by
      decide +kernel
    exact Or.inr (fields _ held _ member)
  | unwraps _ _ inductionHypothesis => exact inductionHypothesis
  | item _ _ _ _ inductionHypothesis =>
    rcases inductionHypothesis with isName | isInteger
    · cases isName
    · cases isInteger
  | value _ _ _ _ inductionHypothesis =>
    rcases inductionHypothesis with isName | isInteger
    · cases isName
    · cases isInteger

theorem closed_and_denote_iff_server :
    ∃ state, Succeeds serverContext [(refersTo "Server", .named "Server")] state ∧
      Closed [(refersTo "Server", .named "Server")] state ∧
        ReferencesDenote serverContext [(refersTo "Server", .named "Server")] state := by
  have run : Succeeds serverContext [(refersTo "Server", .named "Server")]
      (lower serverContext (refersTo "Server") "" {}).2 :=
    .single .initial (run_of_toOption (by decide +kernel))
  refine ⟨_, run, (closed_and_denote_iff run).mpr ?_⟩
  intro schema component stands _
  rcases server_stands stands with isName | isInteger
  · cases isName
  · cases isInteger

/-- An object named like a component that it refers to, which is an integer. -/
def clashSchema : Schema := { properties := [("x", refersTo "B")] }

/-- A document whose component has the name of a type that stands for another schema. -/
def clashContext : Context where
  dialect := .sdk
  spec := { version := "3.1.0", components := { schemas := [("B", .ofType "integer")] } }

/-- The reference is taken for a forward reference to the object around it. -/
theorem clash_not_denote :
    ∃ state, Succeeds clashContext [(clashSchema, .named "B")] state ∧
      ¬ (Closed [(clashSchema, .named "B")] state ∧
        ReferencesDenote clashContext [(clashSchema, .named "B")] state) := by
  refine ⟨(lower clashContext clashSchema "b" {}).2,
    .single .initial (run_of_toOption (by decide +kernel)), ?_⟩
  rintro ⟨-, denote⟩
  obtain ⟨declared, member, pair, part, named, boxed⟩ :
      ∃ declared ∈ (lower clashContext clashSchema "b" {}).2.declared,
        ∃ pair ∈ declared.parts clashContext, pair.1.referenceName? = some "B" ∧
          pair.2.withoutOption = .boxed (.named "B") := by
    decide +kernel
  have stands : Stands clashContext [(clashSchema, .named "B")]
      (lower clashContext clashSchema "b" {}).2 pair.1 pair.2.withoutOption := .part member part
  rw [boxed] at stands
  obtain ⟨target, found, means⟩ := denote _ _ "B" "B" stands named rfl
  have isInteger : Schema.ofType "integer" = target := by
    have component : clashContext.spec.schema? "B" = some (.ofType "integer") := rfl
    exact Option.some.inj (component.symm.trans found)
  subst isInteger
  exact Direct.not_means ⟨rfl, rfl⟩ (by decide +kernel) (by decide +kernel) (by decide +kernel) means

end ServiceForge.Lowering
