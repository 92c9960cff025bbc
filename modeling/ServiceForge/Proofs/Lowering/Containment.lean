/-
This file proves that declared types contain each other by value in the order of
their declaration. A name outside a box is the name of a type that was declared
before the type that mentions it: it comes from a lowering that ended, or from a
claim that found a complete type. So no type contains itself, and every declared
type has a finite size.
-/

import Mathlib.Logic.Relation
import ServiceForge.Proofs.Lowering.Reachable

namespace ServiceForge.Lowering

open ServiceForge.OpenApi (Schema)

/-! ### Containment -/

namespace ValueType

/-- The names of the types that a type contains by value. -/
def contained : ValueType → List String
  | list item => item.contained
  | commaSeparated item => item.contained
  | map value => value.contained
  | optional inner => inner.contained
  | named name => [name]
  | _ => []

@[simp] theorem contained_toOptional (type : ValueType) :
    type.toOptional.contained = type.contained := by
  cases type <;> rfl

end ValueType

@[simp] theorem contained_optionalIf (condition : Bool) (type : ValueType) :
    (optionalIf condition type).contained = type.contained := by
  unfold optionalIf
  split <;> simp

/-- Whether the declared type with one name contains a type with another by value. -/
def Contains (state : State) (outer inner : String) : Prop :=
  ∃ declared ∈ state.declared, declared.subtype.name = outer ∧
    ∃ type ∈ declared.subtype.memberTypes, inner ∈ type.contained

/-- The names of declared types whose values unfold to finitely many parts. -/
inductive FiniteSize (state : State) : String → Prop
  | unfold {declared : Declared} :
      declared ∈ state.declared →
        (∀ inner, Contains state declared.subtype.name inner → FiniteSize state inner) →
          FiniteSize state declared.subtype.name

/-- Whether a type with the name was declared before the given position. -/
def DeclaredBefore (state : State) (position : Nat) (name : String) : Prop :=
  ∃ earlier < position, ∃ declared, state.declared[earlier]? = some declared ∧
    declared.subtype.name = name

/-- Each declared type contains only types that were declared before it. -/
def Layered (state : State) : Prop :=
  ∀ position declared, state.declared[position]? = some declared →
    ∀ type ∈ declared.subtype.memberTypes, ∀ inner ∈ type.contained,
      DeclaredBefore state position inner

theorem Layered.congr {state after : State} (layered : Layered state)
    (declared : after.declared = state.declared) : Layered after := by
  unfold Layered DeclaredBefore
  rw [declared]
  exact layered

theorem Layered.addImports {state : State} (layered : Layered state) (paths : List String) :
    Layered (state.addImports paths) :=
  layered.congr (state.addImports_declared paths)

theorem Layered.endType {state : State} (layered : Layered state) : Layered (endType state) :=
  layered.congr rfl

/-- A declaration comes after all that is declared. -/
theorem Layered.declare {state : State} (layered : Layered state) (schema : Schema)
    {subtype : Subtype}
    (contained : ∀ type ∈ subtype.memberTypes, ∀ inner ∈ type.contained, IsDeclared state inner) :
    Layered (state.declare schema subtype) := by
  have stays : ∀ {position : Nat} {declared : Declared},
      state.declared[position]? = some declared →
        (state.declare schema subtype).declared[position]? = some declared := by
    intro position declared found
    rw [← found]
    exact List.getElem?_append_left (List.getElem?_eq_some_iff.mp found).1
  intro position declared found type member inner inside
  rcases Nat.lt_or_ge position state.declared.length with old | new
  · have same : state.declared[position]? = some declared := by
      rw [← found]
      exact (List.getElem?_append_left old).symm
    obtain ⟨earlier, before, other, foundOther, named⟩ :=
      layered position declared same type member inner inside
    exact ⟨earlier, before, other, stays foundOther, named⟩
  · have last : [(⟨subtype, schema⟩ : Declared)][position - state.declared.length]? =
        some declared := by
      rw [← found]
      exact (List.getElem?_append_right new).symm
    obtain ⟨isLast, rfl⟩ := List.getElem?_eq_some_iff.mp last
    rw [List.getElem_singleton] at member
    obtain ⟨other, held, named⟩ := contained type member inner inside
    obtain ⟨earlier, before, foundOther⟩ := List.mem_iff_getElem.mp held
    exact ⟨earlier, Nat.lt_of_lt_of_le before new, other,
      stays (List.getElem?_eq_some_iff.mpr ⟨before, foundOther⟩), named⟩

/-! ### What a lowering delivers -/

/-- Whether all that a type contains by value is declared. -/
def Grounded (state : State) (type : ValueType) : Prop :=
  ∀ name ∈ type.contained, IsDeclared state name

/-- What is grounded stays so while a state grows. -/
theorem Grounded.mono {state after : State} {type : ValueType} (grounded : Grounded state type)
    (kept : Extends state after) : Grounded after type :=
  fun name member => kept.isDeclared (grounded name member)

theorem Grounded.congr {state after : State} {type : ValueType} (grounded : Grounded state type)
    (declared : after.declared = state.declared) : Grounded after type := by
  unfold Grounded IsDeclared
  rw [declared]
  exact grounded

theorem Grounded.named {state : State} {name : String} (declared : IsDeclared state name) :
    Grounded state (.named name) :=
  fun _ inside => List.mem_singleton.mp inside ▸ declared

/-- What is asked of a way to lower the schemas inside a schema. -/
def Layers (recur : Recur) : Prop :=
  ∀ {schema : Schema} {hint : String} {state after : State}
    {result : Except GenerationError ValueType},
    Tidy state → Layered state → recur schema hint state = (result, after) →
      Layered after ∧ Returns (Grounded after) result

/-- A type without parts contains none by value. -/
theorem Leaf.contained {context : Context} {schema : Schema} {type : ValueType}
    {paths : List String} (leaf : Leaf context schema type paths) : type.contained = [] := by
  rcases leaf.shape with scalar | rfl | rfl
  · cases type <;> first | rfl | cases scalar
  · rfl
  · rfl

/-- A type that wraps another one contains no more than it. -/
theorem Inner.contained {context : Context} {schema part : Schema} {hint partHint : String}
    {wrap : ValueType → ValueType} {paths : List String}
    (inner : Inner context schema hint part partHint wrap paths) (type : ValueType) :
    (wrap type).contained = type.contained := by
  cases inner with
  | branch => exact contained_optionalIf _ type
  | items => rfl
  | values => rfl

/-- A structure is grounded if the types of its fields are. -/
theorem structureType_grounded {context : Context} {schema : Schema} {name : String}
    {types : List ValueType} {extra : Option ValueType} {state : State}
    (fields : ∀ type ∈ types, Grounded state type)
    (further : ∀ type ∈ extra, Grounded state type) :
    ∀ type ∈ (structureType context schema name types extra).memberTypes, Grounded state type := by
  intro type member
  rcases memberTypes_structureType member with ⟨value, held, condition, rfl⟩ | ⟨value, held, rfl⟩
  · intro inner inside
    rw [contained_optionalIf] at inside
    exact fields value held inner inside
  · exact further value held

section Layers

variable {context : Context} {recur : Recur} {schema : Schema} {hint name : String}
  {state after : State}

/-- Lowerings one after another keep the state layered and give grounded types. -/
theorem Layers.calls (layers : Layers recur) (disciplined : Disciplined recur)
    {calls : List (Schema × String)} {result : Except GenerationError (List ValueType)}
    (tidy : Tidy state) (layered : Layered state) (ran : Calls recur calls state result after) :
    Layered after ∧ Returns (fun types => ∀ type ∈ types, Grounded after type) result := by
  induction ran with
  | nil => exact ⟨layered, fun type member => by cases member⟩
  | cons first others inductionHypothesis =>
    obtain ⟨layeredMiddle, grounded⟩ := layers tidy layered first
    have tidyMiddle := (disciplined tidy first).1
    have kept := (disciplined.calls tidyMiddle others).2
    obtain ⟨layeredAfter, rest⟩ := inductionHypothesis tidyMiddle layeredMiddle
    refine ⟨layeredAfter, fun type member => ?_⟩
    rcases List.mem_cons.mp member with rfl | member
    · exact grounded.mono kept
    · exact rest type member
  | here first => exact ⟨(layers tidy layered first).1, trivial⟩
  | later first _ inductionHypothesis =>
    have layeredMiddle := (layers tidy layered first).1
    exact ⟨(inductionHypothesis (disciplined tidy first).1 layeredMiddle).1, trivial⟩

/-- Additional properties keep the state layered and give a grounded type. -/
theorem Layers.extra (layers : Layers recur)
    {result : Except GenerationError (Option ValueType)} (tidy : Tidy state)
    (layered : Layered state) (ran : Extra recur schema name state result after) :
    Layered after ∧ Returns (fun further => ∀ type ∈ further, Grounded after type) result := by
  cases ran with
  | each _ inside =>
    obtain ⟨layeredAfter, grounded⟩ := layers tidy layered inside
    exact ⟨layeredAfter, fun type same => Option.some.inj same ▸ grounded⟩
  | failed _ inside => exact ⟨(layers tidy layered inside).1, trivial⟩
  | free =>
    refine ⟨layered.addImports _, ?_⟩
    rintro type same inner inside
    cases same
    cases inside
  | closed => exact ⟨layered, fun type same => by cases same⟩

/-- A schema without references and parts keeps the state layered and gives a grounded type. -/
theorem Layers.plain (layers : Layers recur) (disciplined : Disciplined recur)
    {result : Except GenerationError ValueType} (tidy : Tidy state) (layered : Layered state)
    (ran : Plain context recur schema hint state result after) :
    Layered after ∧ Returns (Grounded after) result := by
  cases ran with
  | leaf leaf =>
    refine ⟨layered.addImports _, fun inner inside => ?_⟩
    rw [leaf.contained] at inside
    cases inside
  | unknown => exact ⟨layered, trivial⟩
  | inner inner inside =>
    obtain ⟨layeredAfter, grounded⟩ := layers tidy layered inside
    refine ⟨layeredAfter.addImports _, fun name member => ?_⟩
    rw [inner.contained] at member
    exact (Extends.addImports _ _).isDeclared (grounded name member)
  | innerFailed _ inside => exact ⟨(layers tidy layered inside).1, trivial⟩
  | existing _ claimed =>
    obtain ⟨declared, member, same, -⟩ := claim_existing claimed
    exact ⟨layered, .named ⟨declared, member, same⟩⟩
  | forward => exact ⟨layered, fun inner inside => by cases inside⟩
  | forwardChoice _ choice claimed => exact absurd claimed (tidy.claim_ne_forward choice)
  | choice =>
    exact ⟨layered.declare schema (fun _ member => by cases member),
      .named (isDeclared_declare _ _ _)⟩
  | «structure» _ isObject claimed fields further =>
    have tidyBegun := tidy.beginType (claim_new claimed) (Or.inl isObject)
    have tidyMiddle := (disciplined.calls tidyBegun fields).1
    have kept := (disciplined.extra tidyMiddle further).2
    obtain ⟨layeredMiddle, grounded⟩ :=
      layers.calls disciplined tidyBegun (layered.congr rfl) fields
    obtain ⟨layeredLast, groundedFurther⟩ := layers.extra tidyMiddle layeredMiddle further
    refine ⟨(layeredLast.endType.addImports _).declare schema ?_,
      .named (isDeclared_declare _ _ _)⟩
    intro type member
    have groundedLast := structureType_grounded
      (fun field held => (grounded field held).mono kept) groundedFurther type member
    exact groundedLast.congr (State.addImports_declared _ _)
  | structureFailed _ isObject claimed fields further =>
    have tidyBegun := tidy.beginType (claim_new claimed) (Or.inl isObject)
    have tidyMiddle := (disciplined.calls tidyBegun fields).1
    have layeredMiddle := (layers.calls disciplined tidyBegun (layered.congr rfl) fields).1
    have layeredLast := (layers.extra tidyMiddle layeredMiddle further).1
    exact ⟨layeredLast.endType, trivial⟩
  | union _ isUnion claimed variants =>
    have tidyBegun := tidy.beginType (claim_new claimed) (Or.inr isUnion)
    obtain ⟨layeredLast, grounded⟩ :=
      layers.calls disciplined tidyBegun (layered.congr rfl) variants
    have branches := variants.length.trans (length_variantCalls schema _)
    refine ⟨layeredLast.endType.declare schema ?_, ?_⟩
    · rw [memberTypes_unionType _ branches]
      exact grounded
    · intro inner inside
      rw [contained_optionalIf] at inside
      exact Grounded.named (isDeclared_declare _ _ _) inner inside
  | unionFailed _ isUnion claimed variants =>
    have tidyBegun := tidy.beginType (claim_new claimed) (Or.inr isUnion)
    have layeredLast := (layers.calls disciplined tidyBegun (layered.congr rfl) variants).1
    exact ⟨layeredLast.endType, trivial⟩

/-- One step keeps the state layered and gives a grounded type, if what it asks for does. -/
theorem Layers.step (layers : Layers recur) (disciplined : Disciplined recur)
    {result : Except GenerationError ValueType} (tidy : Tidy state) (layered : Layered state)
    (ran : Step context recur schema hint state result after) :
    Layered after ∧ Returns (Grounded after) result := by
  cases ran with
  | forward => exact ⟨layered, fun inner inside => by cases inside⟩
  | missing => exact ⟨layered, trivial⟩
  | component _ _ _ _ inside =>
    obtain ⟨layeredAfter, grounded⟩ :=
      layers (tidy.beginComponent _) (layered.congr rfl) inside
    exact ⟨layeredAfter.congr rfl, grounded⟩
  | foreign =>
    exact ⟨layered.addImports _, fun inner inside => by cases inside⟩
  | unmerged => exact ⟨layered, trivial⟩
  | merged _ _ _ inside => exact layers tidy layered inside
  | plain _ _ inside =>
    obtain ⟨layeredAfter, grounded⟩ := layers.plain disciplined tidy layered inside
    refine ⟨layeredAfter, fun inner contained => ?_⟩
    rw [contained_optionalIf] at contained
    exact grounded inner contained
  | plainFailed _ _ inside => exact ⟨(layers.plain disciplined tidy layered inside).1, trivial⟩

/-- Lowering to any depth keeps the state layered and gives grounded types. -/
theorem lowerWithin_layers (context : Context) (limit : Nat) :
    Layers (lowerWithin context limit) := by
  refine lowerWithin_induction (P := fun recur => Layers recur) ?_ ?_ limit
  · intro schema hint state after result tidy layered ran
    cases ran
    exact ⟨layered, trivial⟩
  · intro limit layers schema hint state after result tidy layered ran
    exact layers.step (lowerWithin_disciplined context limit) tidy layered (lowerStep_step ran)

end Layers

/-! ### Containment is well founded -/

/-- Callers reach only states whose declared types contain earlier types. -/
theorem Reachable.layered {context : Context} {state : State} (reachable : Reachable context state) :
    Layered state := by
  refine (reachable.holds (P := fun state => Tidy state ∧ Layered state) ?_ ?_ ?_).2
  · exact ⟨.initial, fun _ _ found => by cases found⟩
  · rintro schema hint state after result ⟨tidy, layered⟩ ran
    exact ⟨(lower_disciplined context tidy ran).1,
      (lowerWithin_layers context _ tidy layered ran).1⟩
  · rintro state paths ⟨tidy, layered⟩
    exact ⟨tidy.addImports paths, layered.addImports paths⟩

/-- What a type contains was declared before it, wherever the two were declared. -/
theorem Contains.before {state : State} (tidy : Tidy state) (layered : Layered state)
    {outer inner : String} (contains : Contains state outer inner) {position : Nat}
    {declared : Declared} (found : state.declared[position]? = some declared)
    (named : declared.subtype.name = outer) : DeclaredBefore state position inner := by
  obtain ⟨other, member, sameName, type, held, inside⟩ := contains
  obtain ⟨index, foundOther⟩ := List.mem_iff_getElem?.mp member
  have same := tidy.position_unique foundOther found (sameName.trans named.symm)
  subst same
  exact layered index other foundOther type held inner inside

/-- In a layered state every declared type has a finite size, by its position. -/
theorem finiteSize_of_layered {state : State} (tidy : Tidy state) (layered : Layered state)
    (position : Nat) (declared : Declared) (found : state.declared[position]? = some declared) :
    FiniteSize state declared.subtype.name := by
  induction position using Nat.strongRecOn generalizing declared with
  | _ position inductionHypothesis =>
    refine .unfold (List.mem_of_getElem? found) fun inner contains => ?_
    obtain ⟨earlier, before, other, foundOther, rfl⟩ := contains.before tidy layered found rfl
    exact inductionHypothesis earlier before other foundOther

/-- Containment leads to types that were declared earlier. -/
theorem declaredBefore_of_transGen {state : State} (tidy : Tidy state) (layered : Layered state)
    {outer inner : String} (chain : Relation.TransGen (Contains state) outer inner)
    {position : Nat} {declared : Declared} (found : state.declared[position]? = some declared)
    (named : declared.subtype.name = outer) : DeclaredBefore state position inner := by
  induction chain with
  | single contains => exact contains.before tidy layered found named
  | tail _ contains inductionHypothesis =>
    obtain ⟨middle, before, other, foundOther, same⟩ := inductionHypothesis
    obtain ⟨earlier, beforeOther, last, foundLast, sameLast⟩ :=
      contains.before tidy layered foundOther same
    exact ⟨earlier, Nat.lt_trans beforeOther before, last, foundLast, sameLast⟩

/-- In every state that callers reach, the names of declared types are distinct, a declared type
contains by value only types declared before it, no type contains itself, and every declared type
has a finite size. -/
theorem containment_of_reachable {context : Context} {state : State}
    (reachable : Reachable context state) :
    (state.subtypes.map Subtype.name).Nodup ∧ Layered state ∧
      (∀ name, ¬ Relation.TransGen (Contains state) name name) ∧
        ∀ subtype ∈ state.subtypes, FiniteSize state subtype.name := by
  have tidy := reachable.tidy
  have layered := reachable.layered
  refine ⟨?_, layered, ?_, ?_⟩
  · have distinct := tidy.distinct
    rw [State.names_eq] at distinct
    simpa [State.subtypes, Function.comp_def] using (List.nodup_append.mp distinct).2.1
  · intro name cycle
    obtain ⟨declared, member, named⟩ : IsDeclared state name := by
      obtain ⟨_, ⟨declared, member, named, -⟩, -⟩ := Relation.TransGen.head'_iff.mp cycle
      exact ⟨declared, member, named⟩
    obtain ⟨position, found⟩ := List.mem_iff_getElem?.mp member
    obtain ⟨earlier, before, other, foundOther, same⟩ :=
      declaredBefore_of_transGen tidy layered cycle found named
    have unique := tidy.position_unique foundOther found (same.trans named.symm)
    omega
  · intro subtype member
    obtain ⟨declared, held, rfl⟩ := List.mem_map.mp member
    obtain ⟨position, found⟩ := List.mem_iff_getElem?.mp held
    exact finiteSize_of_layered tidy layered position declared found

/-- Two components that hold each other, each with a map of further values of the other. -/
def mutualContext : Context where
  dialect := .sdk
  spec := {
    version := "3.1.0"
    components := {
      schemas := [
        ("A", { properties := [("b", refersTo "B"), ("c", .ofType "integer")] }),
        ("B", { properties := [("a", refersTo "A")], additional := some (.each (refersTo "A")) })] } }

/-- The state once the first of the two components was lowered. -/
def mutualState : State := Call.after mutualContext {} (.single (refersTo "A") "A")

theorem containment_of_reachable_mutual :
    mutualState.subtypes.map Subtype.name = ["B", "A"] ∧
      ¬ Relation.TransGen (Contains mutualState) "A" "A" :=
  ⟨by decide +kernel,
    (containment_of_reachable (.call (.single (refersTo "A") "A") .initial)).2.2.1 "A"⟩

end ServiceForge.Lowering
