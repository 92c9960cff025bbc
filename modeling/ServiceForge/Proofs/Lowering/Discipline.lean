/-
This file proves how a lowering changes the state, whether it succeeds or fails. What
had begun before is begun after it and nothing else is; imports and declared types are
only added, and the names in use stay distinct. Only objects and unions are ever in
progress, so a choice of texts is never met inside its own type. Equal schemas have the
same form, so a schema that finds its name in use is lowered as the schema that holds it.
-/

import ServiceForge.Proofs.Lowering.Names
import ServiceForge.Proofs.Lowering.Step
import ServiceForge.Proofs.Schema.Equality

namespace ServiceForge.Lowering

open ServiceForge.OpenApi (Parameter Schema)

/-! ### Equal schemas -/

/-- Equal choices of texts are told from other schemas alike. -/
theorem isTextChoice_of_equal {left right : Schema} (types : left.type = right.type)
    (choices : Json.equalItems left.choices right.choices = true) :
    isTextChoice left = isTextChoice right := by
  have views := Json.map_of_equalItems (fun choice => (choice.isString, choice.isNull))
    (fun _ _ same => by rw [Json.isString_of_equal same, Json.isNull_of_equal same]) _ _ choices
  have strings : left.choices.any Json.isString = right.choices.any Json.isString := by
    have both := congrArg (fun views => views.any Prod.fst) views
    simpa [List.any_map, Function.comp_def] using both
  have others : left.choices.all (fun choice => choice.isString || choice.isNull) =
      right.choices.all (fun choice => choice.isString || choice.isNull) := by
    have both := congrArg (fun views => views.all fun view => view.1 || view.2) views
    simpa [List.all_map, Function.comp_def] using both
  have nonNull : left.nonNullTypes = right.nonNullTypes := by
    unfold Schema.nonNullTypes Schema.types
    rw [types]
  unfold isTextChoice
  rw [nonNull, strings, others]

/-- Equal schemas have the same form. -/
theorem form_of_equal {left right : Schema} (same : left.equal right = true) :
    form left = form right := by
  simp only [Schema.equal_eq, Schema.equalKeywords, Bool.and_eq_true, beq_iff_eq] at same
  obtain ⟨⟨⟨⟨⟨⟨⟨keywords, items⟩, length⟩, -⟩, additional⟩, oneOf⟩, anyOf⟩, -⟩ := same
  obtain ⟨⟨⟨⟨⟨⟨⟨⟨⟨⟨⟨⟨⟨-, types⟩, -⟩, -⟩, -⟩, -⟩, -⟩, -⟩, choices⟩, -⟩, -⟩, -⟩, -⟩, -⟩ := keywords
  have properties : left.properties.isEmpty = right.properties.isEmpty := by
    cases whole : left.properties <;> cases other : right.properties <;>
      simp [whole, other] at length ⊢
  have nonNull : left.nonNullTypes = right.nonNullTypes := by
    unfold Schema.nonNullTypes Schema.types
    rw [types]
  unfold form
  rw [Schema.isEmpty_of_equalBranches oneOf, Schema.isEmpty_of_equalBranches anyOf,
    isTextChoice_of_equal types choices, nonNull, properties,
    Schema.isSome_of_equalItems items, Schema.isSome_of_equalAdditional additional]

/-! ### Changes of the state -/

/-- What any lowering leaves of the state before it. -/
structure Extends (state after : State) : Prop where
  inProgress : after.inProgress = state.inProgress
  visiting : after.visiting = state.visiting
  imports : state.imports ⊆ after.imports
  declared : state.declared <+: after.declared

namespace Extends

variable {state middle after : State}

theorem refl (state : State) : Extends state state :=
  ⟨rfl, rfl, fun _ member => member, List.prefix_refl _⟩

theorem trans (first : Extends state middle) (second : Extends middle after) :
    Extends state after :=
  ⟨second.inProgress.trans first.inProgress, second.visiting.trans first.visiting,
    fun _ member => second.imports (first.imports member), first.declared.trans second.declared⟩

theorem addImports (state : State) (paths : List String) :
    Extends state (state.addImports paths) := by
  refine ⟨by simp, by simp, ?_, by simp⟩
  induction paths generalizing state with
  | nil => exact fun _ member => member
  | cons path rest inductionHypothesis =>
    intro held member
    exact inductionHypothesis (state.addImport path) (SortedSet.mem_insert.mpr (Or.inr member))

theorem declare (state : State) (schema : Schema) (subtype : Subtype) :
    Extends state (state.declare schema subtype) :=
  ⟨rfl, rfl, fun _ member => member, List.prefix_append _ _⟩

/-- A type that was in progress inside a lowering is not in progress around it. -/
theorem endType {name : String} {schema : Schema}
    (inside : Extends (beginType name schema state) after) : Extends state (endType after) := by
  refine ⟨?_, inside.visiting, inside.imports, inside.declared⟩
  show after.inProgress.tail = state.inProgress
  rw [inside.inProgress]
  rfl

theorem endComponent {component : String}
    (inside : Extends (beginComponent component state) after) :
    Extends state (endComponent component after) := by
  refine ⟨inside.inProgress, ?_, inside.imports, inside.declared⟩
  show after.visiting.erase component = state.visiting
  rw [inside.visiting]
  exact List.erase_cons_head component state.visiting

/-- Declared types stay declared. -/
theorem mem_declared (ran : Extends state after) {declared : Declared}
    (member : declared ∈ state.declared) : declared ∈ after.declared :=
  ran.declared.subset member

end Extends

/-! ### Declared names -/

/-- Whether a type is declared under a name. -/
def IsDeclared (state : State) (name : String) : Prop :=
  ∃ declared ∈ state.declared, declared.subtype.name = name

/-- A declared type stays declared while a state grows. -/
theorem Extends.isDeclared {state after : State} (kept : Extends state after) {name : String}
    (declared : IsDeclared state name) : IsDeclared after name := by
  obtain ⟨held, member, named⟩ := declared
  exact ⟨held, kept.mem_declared member, named⟩

theorem isDeclared_declare (state : State) (schema : Schema) (subtype : Subtype) :
    IsDeclared (state.declare schema subtype) subtype.name :=
  ⟨_, List.mem_append_right _ (List.mem_singleton.mpr rfl), rfl⟩

/-! ### Names and types in progress -/

/-- The names in use are distinct, and what is in progress is an object or a union. -/
structure Tidy (state : State) : Prop where
  distinct : state.names.Nodup
  pending : ∀ entry ∈ state.inProgress, form entry.2 = .object ∨ form entry.2 = .union

/-- Declaring a type adds its name to those in use. -/
theorem names_declare (state : State) (schema : Schema) (subtype : Subtype) :
    (state.declare schema subtype).names = state.names ++ [subtype.name] := by
  simp [State.names_eq, State.declare]

@[simp] theorem names_addImports (state : State) (paths : List String) :
    (state.addImports paths).names = state.names := by
  simp [State.names_eq]

namespace Tidy

variable {state after : State} {name : String} {schema : Schema}

theorem initial : Tidy {} := ⟨List.nodup_nil, fun _ member => absurd member List.not_mem_nil⟩

theorem congr (tidy : Tidy state) (inProgress : after.inProgress = state.inProgress)
    (declared : after.declared = state.declared) : Tidy after := by
  have names : after.names = state.names := by
    rw [State.names_eq, State.names_eq, inProgress, declared]
  refine ⟨names ▸ tidy.distinct, ?_⟩
  rw [inProgress]
  exact tidy.pending

theorem addImports (tidy : Tidy state) (paths : List String) : Tidy (state.addImports paths) :=
  tidy.congr (by simp) (by simp)

theorem beginComponent (tidy : Tidy state) (component : String) :
    Tidy (beginComponent component state) :=
  tidy.congr rfl rfl

theorem endComponent (tidy : Tidy state) (component : String) :
    Tidy (endComponent component state) :=
  tidy.congr rfl rfl

/-- A state stays tidy when the declaration of an object or a union is entered under a new name. -/
theorem beginType (tidy : Tidy state) (new : name ∉ state.names)
    (composite : form schema = .object ∨ form schema = .union) :
    Tidy (beginType name schema state) := by
  refine ⟨List.nodup_cons.mpr ⟨new, tidy.distinct⟩, ?_⟩
  intro entry member
  rcases List.mem_cons.mp member with rfl | member
  · exact composite
  · exact tidy.pending entry member

/-- Once a type is complete its name is free again, whatever was declared meanwhile. -/
theorem endType (tidy : Tidy after) (inside : Extends (Lowering.beginType name schema state) after) :
    Tidy (endType after) ∧ name ∉ (Lowering.endType after).names := by
  have names : after.names = name :: (Lowering.endType after).names := by
    simp [State.names_eq, Lowering.endType, inside.inProgress, Lowering.beginType]
  have distinct := tidy.distinct
  rw [names] at distinct
  obtain ⟨free, distinct⟩ := List.nodup_cons.mp distinct
  exact ⟨⟨distinct, fun entry member => tidy.pending entry (List.mem_of_mem_tail member)⟩, free⟩

/-- A state stays tidy when a type is declared under a new name. -/
theorem declare {subtype : Subtype} (tidy : Tidy state) (new : subtype.name ∉ state.names) :
    Tidy (state.declare schema subtype) := by
  refine ⟨?_, tidy.pending⟩
  rw [names_declare]
  exact List.nodup_append.mpr ⟨tidy.distinct, List.nodup_singleton _,
    fun held member other same => by
      rintro rfl
      exact new (List.mem_singleton.mp same ▸ member)⟩

/-- The position of the only declared type with a name. -/
theorem position_unique (tidy : Tidy state) {first second : Nat}
    {left right : Declared} (foundLeft : state.declared[first]? = some left)
    (foundRight : state.declared[second]? = some right)
    (same : left.subtype.name = right.subtype.name) : first = second := by
  have distinct : (state.declared.map fun declared => declared.subtype.name).Nodup := by
    have all := tidy.distinct
    rw [State.names_eq] at all
    exact (List.nodup_append.mp all).2.1
  have inside : first < (state.declared.map fun declared => declared.subtype.name).length := by
    rw [List.length_map]
    exact (List.getElem?_eq_some_iff.mp foundLeft).1
  refine (List.getElem?_inj inside distinct).mp ?_
  rw [List.getElem?_map, List.getElem?_map, foundLeft, foundRight]
  exact congrArg some same

/-- A name leads to the type that was declared under it. -/
theorem find?_declared (tidy : Tidy state) {declared : Declared}
    (member : declared ∈ state.declared) :
    state.declared.find? (·.subtype.name = declared.subtype.name) = some declared := by
  cases found : state.declared.find? (·.subtype.name = declared.subtype.name) with
  | none =>
    have different := List.find?_eq_none.mp found declared member
    simp at different
  | some other =>
    have same : other.subtype.name = declared.subtype.name := by
      simpa using List.find?_some found
    obtain ⟨first, foundFirst⟩ := List.mem_iff_getElem?.mp member
    obtain ⟨second, foundSecond⟩ := List.mem_iff_getElem?.mp (List.mem_of_find?_eq_some found)
    have position := tidy.position_unique foundSecond foundFirst same
    subst position
    exact foundSecond.symm.trans foundFirst

/-- A choice of texts is complete as soon as it has a name. -/
theorem claim_ne_forward (tidy : Tidy state) {hint : String} (choice : form schema = .textChoice) :
    claim state hint schema ≠ .forward name := by
  intro claimed
  obtain ⟨origin, pending, same⟩ := claim_forward claimed
  have sameForm := (form_of_equal same).trans choice
  rcases tidy.pending _ pending with isObject | isUnion
  · cases isObject.symm.trans sameForm
  · cases isUnion.symm.trans sameForm

end Tidy

/-! ### Every lowering is disciplined -/

/-- What is asked of a way to lower the schemas inside a schema. -/
def Disciplined (recur : Recur) : Prop :=
  ∀ {schema : Schema} {hint : String} {state after : State}
    {result : Except GenerationError ValueType},
    Tidy state → recur schema hint state = (result, after) → Tidy after ∧ Extends state after

section Disciplined

variable {context : Context} {recur : Recur} {schema : Schema} {hint name : String}
  {state after : State}

/-- Lowerings one after another keep the state tidy and only add to it. -/
theorem Disciplined.calls (disciplined : Disciplined recur) {calls : List (Schema × String)}
    {types : Except GenerationError (List ValueType)} (tidy : Tidy state)
    (ran : Calls recur calls state types after) : Tidy after ∧ Extends state after := by
  induction ran with
  | nil => exact ⟨tidy, .refl _⟩
  | cons first _ inductionHypothesis =>
    obtain ⟨tidyMiddle, kept⟩ := disciplined tidy first
    obtain ⟨tidyAfter, others⟩ := inductionHypothesis tidyMiddle
    exact ⟨tidyAfter, kept.trans others⟩
  | here first => exact disciplined tidy first
  | later first _ inductionHypothesis =>
    obtain ⟨tidyMiddle, kept⟩ := disciplined tidy first
    obtain ⟨tidyAfter, others⟩ := inductionHypothesis tidyMiddle
    exact ⟨tidyAfter, kept.trans others⟩

/-- Additional properties keep the state tidy and only add to it. -/
theorem Disciplined.extra (disciplined : Disciplined recur)
    {result : Except GenerationError (Option ValueType)} (tidy : Tidy state)
    (ran : Extra recur schema name state result after) : Tidy after ∧ Extends state after := by
  cases ran with
  | each _ inside => exact disciplined tidy inside
  | failed _ inside => exact disciplined tidy inside
  | free => exact ⟨tidy.addImports _, .addImports _ _⟩
  | closed => exact ⟨tidy, .refl _⟩

/-- A schema without references and parts keeps the state tidy and only adds to it. -/
theorem Disciplined.plain (disciplined : Disciplined recur)
    {result : Except GenerationError ValueType} (tidy : Tidy state)
    (ran : Plain context recur schema hint state result after) :
    Tidy after ∧ Extends state after := by
  cases ran with
  | leaf => exact ⟨tidy.addImports _, .addImports _ _⟩
  | unknown => exact ⟨tidy, .refl _⟩
  | inner _ inside =>
    obtain ⟨tidyAfter, kept⟩ := disciplined tidy inside
    exact ⟨tidyAfter.addImports _, kept.trans (.addImports _ _)⟩
  | innerFailed _ inside => exact disciplined tidy inside
  | existing => exact ⟨tidy, .refl _⟩
  | forward => exact ⟨tidy, .refl _⟩
  | forwardChoice => exact ⟨tidy, .refl _⟩
  | choice _ _ claimed => exact ⟨tidy.declare (claim_new claimed), .declare _ _ _⟩
  | «structure» _ isObject claimed fields further =>
    obtain ⟨tidyMiddle, first⟩ :=
      disciplined.calls (tidy.beginType (claim_new claimed) (Or.inl isObject)) fields
    obtain ⟨tidyLast, second⟩ := disciplined.extra tidyMiddle further
    have inside := first.trans second
    obtain ⟨tidyEnd, free⟩ := tidyLast.endType inside
    rw [← names_addImports] at free
    exact ⟨(tidyEnd.addImports _).declare free,
      (inside.endType.trans (.addImports _ _)).trans (.declare _ _ _)⟩
  | structureFailed _ isObject claimed fields further =>
    obtain ⟨tidyMiddle, first⟩ :=
      disciplined.calls (tidy.beginType (claim_new claimed) (Or.inl isObject)) fields
    obtain ⟨tidyLast, second⟩ := disciplined.extra tidyMiddle further
    have inside := first.trans second
    exact ⟨(tidyLast.endType inside).1, inside.endType⟩
  | union _ isUnion claimed variants =>
    obtain ⟨tidyLast, inside⟩ :=
      disciplined.calls (tidy.beginType (claim_new claimed) (Or.inr isUnion)) variants
    obtain ⟨tidyEnd, free⟩ := tidyLast.endType inside
    exact ⟨tidyEnd.declare free, inside.endType.trans (.declare _ _ _)⟩
  | unionFailed _ isUnion claimed variants =>
    obtain ⟨tidyLast, inside⟩ :=
      disciplined.calls (tidy.beginType (claim_new claimed) (Or.inr isUnion)) variants
    exact ⟨(tidyLast.endType inside).1, inside.endType⟩

/-- One step keeps the state tidy and only adds to it, if what it asks for does. -/
theorem Disciplined.step (disciplined : Disciplined recur)
    {result : Except GenerationError ValueType} (tidy : Tidy state)
    (ran : Step context recur schema hint state result after) :
    Tidy after ∧ Extends state after := by
  cases ran with
  | forward => exact ⟨tidy, .refl _⟩
  | missing => exact ⟨tidy, .refl _⟩
  | component _ _ _ _ inside =>
    obtain ⟨tidyAfter, kept⟩ := disciplined (tidy.beginComponent _) inside
    exact ⟨tidyAfter.endComponent _, kept.endComponent⟩
  | foreign => exact ⟨tidy.addImports _, .addImports _ _⟩
  | unmerged => exact ⟨tidy, .refl _⟩
  | merged _ _ _ inside => exact disciplined tidy inside
  | plain _ _ inside => exact disciplined.plain tidy inside
  | plainFailed _ _ inside => exact disciplined.plain tidy inside

/-- Lowering to any depth keeps the state tidy and only adds to it. -/
theorem lowerWithin_disciplined (context : Context) (limit : Nat) :
    Disciplined (lowerWithin context limit) := by
  refine lowerWithin_induction (P := fun recur => Disciplined recur) ?_ ?_ limit
  · intro schema hint state after result tidy ran
    cases ran
    exact ⟨tidy, .refl _⟩
  · intro limit disciplined schema hint state after result tidy ran
    exact disciplined.step tidy (lowerStep_step ran)

end Disciplined

end ServiceForge.Lowering
