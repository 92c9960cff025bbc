/-
This file compares the types that the client library and the commands have for one
schema. Options aside, the argument of a command is the type of the library with each
choice of texts replaced by text and each structure and union by free JSON. The two
lowerings take the same steps up to the first schema that the library declares a type
for; a name is then new or was found, and stands for a type of the kind that the form of
the schema demands. Without references nothing is met inside its own type.
-/

import ServiceForge.Proofs.Lowering.Lowered
import ServiceForge.Proofs.Lowering.SinglePart

namespace ServiceForge.Lowering

open ServiceForge.OpenApi (Schema Spec)

/-! ### Kinds of declared types -/

/-- Whether a declared type is a choice of texts. -/
def Subtype.isTextChoice (subtype : Subtype) : Bool :=
  match subtype.shape with
  | .enumeration (.texts _) => true
  | _ => false

theorem isTextChoice_unionType (schema : Schema) (name : String) (types : List ValueType) :
    (unionType schema name types).isTextChoice = false := by
  unfold unionType variantsOf
  cases isVersioned schema <;> rfl

/-- Whether each declared type is a choice of texts if its schema is one, and only then. -/
def KindsMatch (state : State) : Prop :=
  ∀ declared ∈ state.declared,
    declared.subtype.isTextChoice = true ↔ form declared.origin = .textChoice

/-- A declared type is a choice of texts exactly if it was made for one. -/
theorem Made.isTextChoice_iff {context : Context} {declared : Declared}
    (made : Made context declared) :
    declared.subtype.isTextChoice = true ↔ form declared.origin = .textChoice := by
  cases made with
  | choice _ isChoice => exact iff_of_true rfl isChoice
  | «structure» _ isObject => exact iff_of_false nofun (isObject ▸ nofun)
  | union _ isUnion =>
    refine iff_of_false ?_ (isUnion ▸ nofun)
    rw [isTextChoice_unionType]
    exact nofun

/-- In every reachable state exactly the choices of texts are declared as such. -/
theorem Reachable.kindsMatch {context : Context} {state : State}
    (reachable : Reachable context state) : KindsMatch state :=
  fun _ member => (reachable.made member).isTextChoice_iff

/-! ### Types that mirror each other -/

namespace ValueType

/-- The type without any option in it. -/
def withoutOptions : ValueType → ValueType
  | list item => list item.withoutOptions
  | commaSeparated item => commaSeparated item.withoutOptions
  | map value => map value.withoutOptions
  | optional inner => inner.withoutOptions
  | boxed inner => boxed inner.withoutOptions
  | type => type

/-- Whether there is no box in a type. -/
def isUnboxed : ValueType → Bool
  | list item => item.isUnboxed
  | commaSeparated item => item.isUnboxed
  | map value => value.isUnboxed
  | optional inner => inner.isUnboxed
  | boxed _ => false
  | _ => true

theorem withoutOptions_toOptional (type : ValueType) :
    type.toOptional.withoutOptions = type.withoutOptions := by
  cases type <;> rfl

theorem isUnboxed_withoutOptions (type : ValueType) :
    type.withoutOptions.isUnboxed = type.isUnboxed := by
  induction type with
  | list item inductionHypothesis => exact inductionHypothesis
  | commaSeparated item inductionHypothesis => exact inductionHypothesis
  | map value inductionHypothesis => exact inductionHypothesis
  | optional inner inductionHypothesis => exact inductionHypothesis
  | _ => rfl

end ValueType

@[simp] theorem withoutOptions_optionalIf (condition : Bool) (type : ValueType) :
    (optionalIf condition type).withoutOptions = type.withoutOptions := by
  unfold optionalIf
  split
  · exact type.withoutOptions_toOptional
  · rfl

/-- The type of an argument that stands for a type of the client library: the same scalars, lists
and maps, with text for a declared choice of texts and free JSON for any other declared type. -/
inductive Mirrors (subtypes : List Subtype) : ValueType → ValueType → Prop
  | scalar {type : ValueType} : type.isScalar = true → Mirrors subtypes type type
  | free : Mirrors subtypes .json .json
  | list {item argument : ValueType} :
      Mirrors subtypes item argument → Mirrors subtypes (.list item) (.list argument)
  | map {value argument : ValueType} :
      Mirrors subtypes value argument → Mirrors subtypes (.map value) (.map argument)
  | choice {subtype : Subtype} :
      subtype ∈ subtypes → subtype.isTextChoice = true →
        Mirrors subtypes (.named subtype.name) .text
  | composite {subtype : Subtype} :
      subtype ∈ subtypes → subtype.isTextChoice = false →
        Mirrors subtypes (.named subtype.name) .json

/-- Types that mirror each other are not boxed. -/
theorem Mirrors.isUnboxed {subtypes : List Subtype} {type argument : ValueType}
    (mirrors : Mirrors subtypes type argument) :
    type.isUnboxed = true ∧ argument.isUnboxed = true := by
  induction mirrors with
  | @scalar type scalar =>
    revert scalar
    cases type <;> first | exact fun _ => ⟨rfl, rfl⟩ | exact nofun
  | list _ inductionHypothesis => exact inductionHypothesis
  | map _ inductionHypothesis => exact inductionHypothesis
  | _ => exact ⟨rfl, rfl⟩

/-! ### Schemas that types are declared for -/

section Declares

variable {context : Context} {schema part : Schema} {hint partHint : String} {state after : State}
  {wrap : ValueType → ValueType} {paths : List String} {type : ValueType}

theorem Declares.properties_ne_nil (declares : Declares context schema)
    (isObject : form schema = .object) : schema.properties ≠ [] := by
  rcases declares.named with isChoice | ⟨-, filled⟩ | ⟨isUnion, -⟩
  · cases isObject.symm.trans isChoice
  · exact filled
  · cases isObject.symm.trans isUnion

/-- A union that is declared has two branches at least. -/
theorem Declares.two_le_branches (declares : Declares context schema)
    (isUnion : form schema = .union) : 2 ≤ schema.nonNullBranches.length := by
  rcases declares.named with isChoice | ⟨isObject, -⟩ | ⟨-, several⟩
  · cases isUnion.symm.trans isChoice
  · cases isUnion.symm.trans isObject
  · exact several

/-- A type is declared for three forms only. -/
theorem Declares.form_mem (declares : Declares context schema) :
    form schema ∈ [Form.textChoice, .object, .union] := by
  rcases declares.named with isChoice | ⟨isObject, -⟩ | ⟨isUnion, -⟩
  · simp [isChoice]
  · simp [isObject]
  · simp [isUnion]

/-- A schema that gets a declared type is lowered to no type without parts. -/
theorem Declares.not_leaf (declares : Declares context schema) :
    ¬ Leaf context schema type paths := by
  intro leaf
  have known := declares.form_mem
  cases leaf with
  | choice _ other | freeObject _ _ other | freeUnion _ _ other => exact other declares.dialect
  | freeMap isObject empty => exact declares.properties_ne_nil isObject empty
  | emptyUnion isUnion none =>
    have several := declares.two_le_branches isUnion
    rw [none] at several
    exact absurd several (by decide)
  | free isOther | dateTime isOther | text isOther | integer isOther | number isOther
  | boolean isOther | shownArray isOther | freeItems isOther =>
    rw [isOther] at known
    exact absurd known (by decide)

/-- A schema that gets a declared type is lowered through no other schema. -/
theorem Declares.not_inner (declares : Declares context schema) :
    ¬ Inner context schema hint part partHint wrap paths := by
  intro inner
  cases inner with
  | branch isUnion only =>
    have several := declares.two_le_branches isUnion
    rw [only] at several
    exact absurd several (by simp)
  | items isArray =>
    have known := declares.form_mem
    rw [isArray] at known
    exact absurd known (by decide)
  | values isObject empty => exact declares.properties_ne_nil isObject empty

/-- While nothing is in progress a schema that a type is declared for is given the name of one, of
the kind of its form. -/
theorem Declares.exists_subtype {recur : Recur} (declares : Declares context schema)
    (single : schema.allOf = []) (idle : state.inProgress = []) (kinds : KindsMatch state)
    (ran : lowerPlain context recur schema hint state = (.ok type, after)) :
    ∃ subtype ∈ after.subtypes, type.withoutOptions = .named subtype.name ∧
      (subtype.isTextChoice = true ↔ form schema = .textChoice) := by
  have plain := lowerPlain_plain context recur hint state (List.isEmpty_iff.mpr single)
  rw [ran] at plain
  have pending {name : String} (claimed : claim state hint schema = .forward name) : False := by
    obtain ⟨origin, held, -⟩ := claim_forward claimed
    rw [idle] at held
    cases held
  have new {middle : State} {subtype : Subtype} :
      subtype ∈ (middle.declare schema subtype).subtypes :=
    List.mem_map.mpr ⟨⟨subtype, schema⟩, List.mem_append_right _ (List.mem_singleton.mpr rfl), rfl⟩
  cases plain with
  | leaf leaf => exact absurd leaf declares.not_leaf
  | inner inner => exact absurd inner declares.not_inner
  | existing _ claimed =>
    obtain ⟨declared, member, rfl, same⟩ := claim_existing claimed
    refine ⟨declared.subtype, List.mem_map_of_mem member, rfl, ?_⟩
    rw [kinds declared member, form_of_equal same]
  | forward _ _ claimed => exact (pending claimed).elim
  | forwardChoice _ _ claimed => exact (pending claimed).elim
  | choice _ isChoice => exact ⟨_, new, rfl, iff_of_true rfl isChoice⟩
  | «structure» _ isObject => exact ⟨_, new, rfl, iff_of_false nofun (isObject ▸ nofun)⟩
  | @union name types _ _ isUnion =>
    refine ⟨_, new, withoutOptions_optionalIf _ _, iff_of_false ?_ (isUnion ▸ nofun)⟩
    rw [isTextChoice_unionType]
    exact nofun

end Declares

/-! ### Two lowerings of one schema -/

section Mirroring

variable {spec : Spec} {schema part : Schema} {hint partHint : String}
  {wrap : ValueType → ValueType} {paths : List String} {type : ValueType}

/-- Where an argument has a leaf type the client library has the same one or a declared type. -/
theorem Leaf.ofArgument (leaf : Leaf ⟨spec, .cliRequest⟩ schema type paths) :
    (∃ paths, Leaf ⟨spec, .sdk⟩ schema type paths) ∨
      Declares ⟨spec, .sdk⟩ schema ∧ type = if form schema = .textChoice then .text else .json := by
  cases leaf with
  | free isFree => exact Or.inl ⟨_, .free isFree⟩
  | dateTime isText dated => exact Or.inl ⟨_, .dateTime isText dated⟩
  | text isText dated => exact Or.inl ⟨_, .text isText dated⟩
  | integer isInteger => exact Or.inl ⟨_, .integer isInteger⟩
  | number isNumber => exact Or.inl ⟨_, .number isNumber⟩
  | boolean isBoolean => exact Or.inl ⟨_, .boolean isBoolean⟩
  | choice isChoice => exact Or.inr ⟨⟨rfl, Or.inl isChoice⟩, by rw [if_pos isChoice]⟩
  | shownArray _ shown => cases shown
  | freeItems isArray _ none => exact Or.inl ⟨_, .freeItems isArray nofun none⟩
  | freeMap isObject empty free =>
    exact Or.inl ⟨_, .freeMap isObject empty (Or.inr (free.resolve_left nofun))⟩
  | freeObject isObject filled =>
    exact Or.inr ⟨⟨rfl, Or.inr (Or.inl ⟨isObject, filled⟩)⟩, by rw [isObject]; rfl⟩
  | emptyUnion isUnion none => exact Or.inl ⟨_, .emptyUnion isUnion none⟩
  | freeUnion isUnion several =>
    exact Or.inr ⟨⟨rfl, Or.inr (Or.inr ⟨isUnion, several⟩)⟩, by rw [isUnion]; rfl⟩

/-- Where an argument has the type of a schema inside, so has the client library. -/
theorem Inner.ofArgument (inner : Inner ⟨spec, .cliRequest⟩ schema hint part partHint wrap paths)
    (hintToo : String) :
    ∃ partHint paths, Inner ⟨spec, .sdk⟩ schema hintToo part partHint wrap paths := by
  cases inner with
  | branch isUnion only => exact ⟨_, _, .branch isUnion only⟩
  | items isArray _ isItems => exact ⟨_, _, .items isArray nofun isItems⟩
  | values isObject empty _ isEach => exact ⟨_, _, .values isObject empty nofun isEach⟩

/-- A type without parts mirrors itself. -/
theorem Leaf.mirrors {context : Context} (leaf : Leaf context schema type paths)
    (subtypes : List Subtype) : Mirrors subtypes type.withoutOptions type.withoutOptions := by
  rcases leaf.shape with scalar | rfl | rfl
  · have same : type.withoutOptions = type := by
      revert scalar
      cases type <;> first | exact fun _ => rfl | exact nofun
    rw [same]
    exact .scalar scalar
  · exact .free
  · exact .list .free

/-- Lists and maps of types that mirror each other do so too. -/
theorem Inner.mirrors {context : Context} {argument : ValueType} {subtypes : List Subtype}
    (inner : Inner context schema hint part partHint wrap paths)
    (mirrors : Mirrors subtypes type.withoutOptions argument.withoutOptions) :
    Mirrors subtypes (wrap type).withoutOptions (wrap argument).withoutOptions := by
  cases inner with
  | branch =>
    rw [withoutOptions_optionalIf, withoutOptions_optionalIf]
    exact mirrors
  | items => exact .list mirrors
  | values => exact .map mirrors

/-- Whether the two types of a schema mirror each other, from any states in which nothing is in
progress. -/
def IsMirrored (spec : Spec) (schema : Schema) : Prop :=
  ∀ {hint hintToo : String} {state after stateToo afterToo : State} {type argument : ValueType},
    state.inProgress = [] → KindsMatch state →
      lower ⟨spec, .sdk⟩ schema hint state = (.ok type, after) →
        lower ⟨spec, .cliRequest⟩ schema hintToo stateToo = (.ok argument, afterToo) →
          Mirrors after.subtypes type.withoutOptions argument.withoutOptions

theorem subtypes_addImports (state : State) (paths : List String) :
    (state.addImports paths).subtypes = state.subtypes := by
  rw [State.subtypes, State.subtypes, State.addImports_declared]

/-- A schema without references and parts is mirrored if all its parts are. -/
theorem mirrors_of_plain {hintToo : String} {state after stateToo afterToo : State}
    {argument : ValueType} (parts : ∀ part ∈ schema.parts, IsMirrored spec part)
    (single : schema.allOf = []) (idle : state.inProgress = []) (kinds : KindsMatch state)
    (ran : lowerPlain ⟨spec, .sdk⟩ (lower ⟨spec, .sdk⟩) schema hint state = (.ok type, after))
    (ranToo : lowerPlain ⟨spec, .cliRequest⟩ (lower ⟨spec, .cliRequest⟩) schema hintToo stateToo =
      (.ok argument, afterToo)) :
    Mirrors after.subtypes type.withoutOptions argument.withoutOptions := by
  have plain := lowerPlain_plain ⟨spec, .cliRequest⟩ (lower ⟨spec, .cliRequest⟩) hintToo stateToo
    (List.isEmpty_iff.mpr single)
  rw [ranToo] at plain
  -- A command never has a declared type, so its lowering decides which cases there are.
  cases plain with
  | leaf leaf =>
    rcases leaf.ofArgument with ⟨paths, same⟩ | ⟨declares, given⟩
    · rw [same.run] at ran
      cases ran
      exact leaf.mirrors _
    · obtain ⟨subtype, member, named, kind⟩ := declares.exists_subtype single idle kinds ran
      rw [named, given]
      by_cases isChoice : form schema = .textChoice
      · rw [if_pos isChoice]
        exact .choice member (kind.mpr isChoice)
      · rw [if_neg isChoice]
        exact .composite member (Bool.eq_false_iff.mpr fun choice => isChoice (kind.mp choice))
  | @inner part partHint wrap _ _ _ inner inside =>
    obtain ⟨partHint, paths, same⟩ := inner.ofArgument hint
    rcases first : lower ⟨spec, .sdk⟩ part partHint state with ⟨failure | value, middle⟩
    · cases (same.run_of_error first).symm.trans ran
    · rw [same.run first] at ran
      cases ran
      rw [subtypes_addImports]
      exact inner.mirrors (parts part inner.mem_parts idle kinds first inside)
  | existing declares | forward declares | forwardChoice declares | choice declares
  | «structure» declares | union declares => cases declares.dialect

/-- A schema without references is mirrored. -/
theorem isMirrored (unreferring : Unreferring schema) : IsMirrored spec schema := by
  -- A merged schema does not stand in the schema it is merged from, but it is smaller.
  induction size : schema.size using Nat.strongRecOn generalizing schema with
  | ind size inductionHypothesis =>
    intro hint hintToo state after stateToo afterToo type argument idle kinds ran ranToo
    have own := unreferring schema .refl
    rw [(sealed_unreferring spec).lower_eq unreferring] at ran ranToo
    by_cases single : schema.allOf = []
    · have parts : ∀ part ∈ schema.parts, IsMirrored spec part := fun part isPart =>
        inductionHypothesis part.size (size ▸ Schema.size_lt_of_mem_parts isPart)
          (unreferring.of_mem_parts isPart) rfl
      rw [lowerStep_plain own single] at ran ranToo
      rcases plain : lowerPlain ⟨spec, .sdk⟩ (lower ⟨spec, .sdk⟩) schema hint state
        with ⟨failure | inner, last⟩
      · rw [plain] at ran
        cases ran
      rcases plainToo : lowerPlain ⟨spec, .cliRequest⟩ (lower ⟨spec, .cliRequest⟩) schema hintToo
        stateToo with ⟨failure | innerToo, lastToo⟩
      · rw [plainToo] at ranToo
        cases ranToo
      rw [plain] at ran
      rw [plainToo] at ranToo
      cases ran
      cases ranToo
      rw [withoutOptions_optionalIf, withoutOptions_optionalIf]
      exact mirrors_of_plain parts single idle kinds plain plainToo
    · obtain ⟨whole, merges, merged⟩ := mergeAllOf_of_inline spec unreferring.inline
      have smaller := merges.size
      have several := List.length_pos_iff.mpr single
      rw [lowerStep_merged own single merged] at ran ranToo
      exact inductionHypothesis whole.size (by omega) (unreferring.of_merges merges) rfl idle kinds
        ran ranToo

/-- The client library and a command lower one schema without references, each from a state that
its own calls reach. Options aside, the argument of the command mirrors the type of the library, and
neither type holds a box. -/
theorem lower_mirrors (unreferring : Unreferring schema) {hintToo : String}
    {state after stateToo afterToo : State} {argument : ValueType}
    (reachable : Reachable ⟨spec, .sdk⟩ state)
    (ran : lower ⟨spec, .sdk⟩ schema hint state = (.ok type, after))
    (ranToo : lower ⟨spec, .cliRequest⟩ schema hintToo stateToo = (.ok argument, afterToo)) :
    Mirrors after.subtypes type.withoutOptions argument.withoutOptions ∧
      type.isUnboxed = true ∧ argument.isUnboxed = true := by
  have mirrors := isMirrored unreferring reachable.idle.1 reachable.kindsMatch ran ranToo
  have unboxed := mirrors.isUnboxed
  rw [ValueType.isUnboxed_withoutOptions, ValueType.isUnboxed_withoutOptions] at unboxed
  exact ⟨mirrors, unboxed⟩

end Mirroring

/-- The speeds of a network. -/
def speedSchema : Schema := { choices := [.string "slow", .string "fast"] }

/-- A list of maps of speeds, null allowed; the maps are told in a part. -/
def speedsSchema : Schema where
  type := some (.multiple ["array", "null"])
  items := some {
    allOf := [{ additional := some (.each { anyOf := [speedSchema, .ofType "null"] }) }] }

/-- The state of the client library after its lowering of the speeds. -/
def speedState : State := Call.after emptyContext {} (.single speedSchema "speed")

theorem speedsSchema_unreferring : Unreferring speedsSchema := by
  have null : Unreferring (.ofType "null") := .of_parts rfl nofun
  have choice : Unreferring speedSchema := .of_parts rfl nofun
  refine .of_parts rfl (List.forall_mem_singleton.mpr ?_)
  refine .of_parts rfl (List.forall_mem_singleton.mpr ?_)
  refine .of_parts rfl (List.forall_mem_singleton.mpr ?_)
  exact .of_parts rfl (List.forall_mem_cons.mpr ⟨choice, List.forall_mem_singleton.mpr null⟩)

theorem lower_mirrors_speeds :
    ∃ after afterToo, lower emptyContext speedsSchema "speed" speedState =
        (.ok (.optional (.list (.map (.optional (.named "Speed"))))), after) ∧
      lower ⟨emptyContext.spec, .cliRequest⟩ speedsSchema "speed" {} =
        (.ok (.optional (.list (.map (.optional .text)))), afterToo) ∧
      Mirrors after.subtypes (.list (.map (.named "Speed"))) (.list (.map .text)) := by
  have ran : lower emptyContext speedsSchema "speed" speedState =
      (.ok (.optional (.list (.map (.optional (.named "Speed"))))),
        (lower emptyContext speedsSchema "speed" speedState).2) :=
    run_of_toOption (by decide +kernel)
  have ranToo : lower ⟨emptyContext.spec, .cliRequest⟩ speedsSchema "speed" {} =
      (.ok (.optional (.list (.map (.optional .text)))),
        (lower ⟨emptyContext.spec, .cliRequest⟩ speedsSchema "speed" {}).2) :=
    run_of_toOption (by decide +kernel)
  have reachable : Reachable emptyContext speedState := .call (.single speedSchema "speed") .initial
  exact ⟨_, _, ran, ranToo, (lower_mirrors speedsSchema_unreferring reachable ran ranToo).1⟩

end ServiceForge.Lowering
