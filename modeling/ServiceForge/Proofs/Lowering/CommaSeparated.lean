/-
This file proves when the values of a query parameter that is sent as one text have the type
of such a list. A parameter can stand for an array in several forms: as the array, through
components, as the only part or as the only branch of a schema. The lowering finds the array
in each of them, but recognizes a list only if nothing on the way allows null, and merging
loses the items of a part.
-/

import Mathlib.Algebra.GroupWithZero.Nat
import Mathlib.Algebra.Order.BigOperators.Group.List
import Mathlib.Algebra.Order.Group.Nat
import ServiceForge.Proofs.Lowering.Active
import ServiceForge.Proofs.Lowering.Evaluation
import ServiceForge.Proofs.Lowering.Lowered
import ServiceForge.Proofs.Lowering.Termination

namespace ServiceForge.Lowering

open ServiceForge.OpenApi (Parameter Schema Spec)

/-! ### Schemas that stand for an array -/

/-- Whether a schema speaks of no other values than arrays. -/
def AdmitsArrays (schema : Schema) : Prop :=
  schema.nonNullTypes = ["array"] ∨
    schema.nonNullTypes = [] ∧ schema.properties = [] ∧ schema.additional = none

/-- A schema that consists of one part and says nothing else of arrays than that they are. -/
structure Wraps (schema part : Schema) : Prop where
  reference : schema.reference = none
  allOf : schema.allOf = [part]
  type : schema.type = none ∨ schema.nonNullTypes = ["array"]
  items : schema.items = none
  properties : schema.properties = []
  additional : schema.additional = none
  oneOf : schema.oneOf = []
  anyOf : schema.anyOf = []
  choices : schema.choices = []

/-- The array that a schema stands for, with the number of steps that lead to it and the components
among them. -/
inductive Presents (spec : Spec) : Schema → Nat → List String → Schema → Prop
  | array {schema : Schema} :
      Direct schema → form schema = .array → Presents spec schema 0 [] schema
  | component {schema target array : Schema} {component : String} {depth : Nat}
      {components : List String} :
      schema.referenceName? = some component → schema.allOf = [] → AdmitsArrays schema →
        spec.schema? component = some target → Presents spec target depth components array →
          Presents spec schema (depth + 1) (component :: components) array
  | part {schema part array : Schema} {depth : Nat} {components : List String} :
      Wraps schema part → Presents spec part depth components array →
        Presents spec schema (depth + 1) components array
  | branch {schema branch array : Schema} {depth : Nat} {components : List String} :
      Direct schema → form schema = .union → schema.nonNullBranches = [branch] →
        AdmitsArrays schema → Presents spec branch depth components array →
          Presents spec schema (depth + 1) components array

section Presents

variable {spec : Spec} {schema part array : Schema} {depth : Nat} {components : List String}

/-- A schema stands for one array, and there is one way to it. -/
theorem Presents.unique (left : Presents spec schema depth components array) {otherDepth : Nat}
    {otherComponents : List String} {other : Schema}
    (right : Presents spec schema otherDepth otherComponents other) :
    depth = otherDepth ∧ components = otherComponents ∧ array = other := by
  induction left generalizing otherDepth otherComponents with
  | array direct isArray =>
    cases right with
    | array => exact ⟨rfl, rfl, rfl⟩
    | component named => cases named.symm.trans direct.referenceName?
    | part wraps => cases wraps.allOf.symm.trans direct.allOf
    | branch _ isUnion => cases isArray.symm.trans isUnion
  | component named _ _ found _ inductionHypothesis =>
    cases right with
    | array direct => cases named.symm.trans direct.referenceName?
    | component namedToo _ _ foundToo inside =>
      cases named.symm.trans namedToo
      cases found.symm.trans foundToo
      obtain ⟨rfl, rfl, rfl⟩ := inductionHypothesis inside
      exact ⟨rfl, rfl, rfl⟩
    | part wraps => cases named.symm.trans (referenceName?_of_reference wraps.reference)
    | branch direct => cases named.symm.trans direct.referenceName?
  | part wraps _ inductionHypothesis =>
    cases right with
    | array direct => cases wraps.allOf.symm.trans direct.allOf
    | component named => cases named.symm.trans (referenceName?_of_reference wraps.reference)
    | part wrapsToo inside =>
      cases wraps.allOf.symm.trans wrapsToo.allOf
      obtain ⟨rfl, rfl, rfl⟩ := inductionHypothesis inside
      exact ⟨rfl, rfl, rfl⟩
    | branch direct => cases wraps.allOf.symm.trans direct.allOf
  | branch direct isUnion only _ _ inductionHypothesis =>
    cases right with
    | array _ isArray => cases isArray.symm.trans isUnion
    | component named => cases named.symm.trans direct.referenceName?
    | part wraps => cases wraps.allOf.symm.trans direct.allOf
    | branch _ _ onlyToo _ inside =>
      cases only.symm.trans onlyToo
      obtain ⟨rfl, rfl, rfl⟩ := inductionHypothesis inside
      exact ⟨rfl, rfl, rfl⟩

/-- From each component on the way fewer components lead to the array. -/
theorem Presents.of_mem (presents : Presents spec schema depth components array)
    {component : String} (member : component ∈ components) :
    ∃ target fewer rest, spec.schema? component = some target ∧
      Presents spec target fewer rest array ∧ rest.length < components.length := by
  induction presents with
  | array => cases member
  | component _ _ _ found inside inductionHypothesis =>
    rcases List.mem_cons.mp member with rfl | later
    · exact ⟨_, _, _, found, inside, Nat.lt_succ_self _⟩
    · obtain ⟨target, fewer, rest, foundToo, onward, shorter⟩ := inductionHypothesis later
      exact ⟨target, fewer, rest, foundToo, onward, Nat.lt_succ_of_lt shorter⟩
  | part _ _ inductionHypothesis => exact inductionHypothesis member
  | branch _ _ _ _ _ inductionHypothesis => exact inductionHypothesis member

/-- No component is passed twice: the way from it would be longer than itself. -/
theorem Presents.nodup (presents : Presents spec schema depth components array) :
    components.Nodup := by
  induction presents with
  | array => exact List.nodup_nil
  | component _ _ _ found inside inductionHypothesis =>
    refine List.nodup_cons.mpr ⟨fun again => ?_, inductionHypothesis⟩
    obtain ⟨target, fewer, rest, foundToo, onward, shorter⟩ := inside.of_mem again
    cases found.symm.trans foundToo
    obtain ⟨-, rfl, -⟩ := inside.unique onward
    exact absurd shorter (Nat.lt_irrefl _)
  | part _ _ inductionHypothesis => exact inductionHypothesis
  | branch _ _ _ _ _ inductionHypothesis => exact inductionHypothesis

/-! ### The length of the way -/

/-- The size of the schema of a component. -/
def componentSize (spec : Spec) (component : String) : Nat :=
  ((spec.schema? component).map Schema.size).getD 0

theorem componentSize_of_found {component : String} {target : Schema}
    (found : spec.schema? component = some target) :
    componentSize spec component = target.size := by
  rw [componentSize, found]
  rfl

theorem branchesSize_eq (branches : List Schema) :
    Schema.branchesSize branches = (branches.map Schema.size).sum := by
  induction branches with
  | nil => rfl
  | cons first rest inductionHypothesis =>
    rw [Schema.branchesSize, inductionHypothesis, List.map_cons, List.sum_cons]

/-- Distinct components are no larger than all together. -/
theorem sum_componentSize_le {components : List String} (distinct : components.Nodup)
    (present : ∀ component ∈ components, ∃ target, spec.schema? component = some target) :
    (components.map (componentSize spec)).sum ≤ spec.schemasSize := by
  choose! target found using present
  let entries := components.map fun component => (component, target component)
  have inside : entries ⊆ spec.components.schemas := by
    intro entry member
    obtain ⟨component, held, rfl⟩ := List.mem_map.mp member
    exact OrderedMap.mem_of_get? (found component held)
  have apart : entries.Nodup := distinct.map fun _ _ same => (Prod.mk.inj same).1
  obtain ⟨chosen, same, part⟩ := List.subperm_of_subset apart inside
  have sizes : components.map (componentSize spec) = entries.map fun entry => entry.2.size := by
    rw [List.map_map]
    exact List.map_congr_left fun component held => componentSize_of_found (found component held)
  calc (components.map (componentSize spec)).sum
      = (chosen.map fun entry => entry.2.size).sum := by
        rw [sizes, (same.map fun entry : String × Schema => entry.2.size).sum_eq]
    _ ≤ (spec.components.schemas.map fun entry => entry.2.size).sum :=
        (part.map fun entry : String × Schema => entry.2.size).sum_le_sum fun _ _ => Nat.zero_le _
    _ = spec.schemasSize := by
        rw [Spec.schemasSize, Schema.propertiesSize_eq, branchesSize_eq, List.map_map]
        rfl

theorem Presents.depth_lt_sum (presents : Presents spec schema depth components array) :
    depth < schema.size + (components.map (componentSize spec)).sum := by
  induction presents with
  | array => exact Nat.lt_add_right _ (Schema.size_pos _)
  | @component schema _ _ component _ _ _ _ _ found _ inductionHypothesis =>
    have positive := schema.size_pos
    rw [List.map_cons, List.sum_cons, componentSize_of_found found]
    omega
  | @part schema part _ _ _ wraps _ inductionHypothesis =>
    have smaller : part.size < schema.size := Schema.size_lt_of_mem_parts
      (mem_parts_of_allOf (wraps.allOf ▸ List.mem_singleton.mpr rfl))
    omega
  | @branch schema branch _ _ _ _ _ only _ _ inductionHypothesis =>
    have smaller : branch.size < schema.size := Schema.size_lt_of_mem_parts
      (mem_parts_of_nonNullBranches (only ▸ List.mem_singleton.mpr rfl))
    omega

theorem Presents.depth_lt (presents : Presents spec schema depth components array) :
    depth < spec.schemasSize + schema.size := by
  have steps := presents.depth_lt_sum
  have bound := sum_componentSize_le presents.nodup fun component member => by
    obtain ⟨target, _, _, found, -⟩ := presents.of_mem member
    exact ⟨target, found⟩
  omega

/-- The way to the array is not too long for the lowering. -/
theorem Presents.depth_lt_depthLimit {context : Context}
    (presents : Presents context.spec schema depth components array) :
    depth < depthLimit context schema := by
  have steps := presents.depth_lt
  have square : context.spec.schemasSize + schema.size + 4 ≤ depthLimit context schema :=
    Nat.le_mul_self _
  omega

end Presents

/-! ### Arrays in parts -/

/-- What merging leaves of an array in a part: a schema that says at most that it is an array. -/
structure Blank (schema : Schema) : Prop where
  direct : Direct schema
  admits : AdmitsArrays schema
  items : schema.items = none
  oneOf : schema.oneOf = []
  anyOf : schema.anyOf = []
  choices : schema.choices = []

section Parts

variable {spec : Spec} {schema part array : Schema} {depth : Nat} {components : List String}

theorem Blank.form_eq (blank : Blank schema) :
    form schema = if schema.nonNullTypes = ["array"] then .array else .free := by
  unfold form isTextChoice
  rw [blank.oneOf, blank.anyOf, blank.choices, blank.items]
  rcases blank.admits with isArray | ⟨untyped, properties, additional⟩
  · rw [isArray]
    rfl
  · rw [untyped, properties, additional]
    rfl

theorem admitsArrays_of_form (isArray : form schema = .array) : AdmitsArrays schema := by
  unfold form at isArray
  split at isArray
  · cases isArray
  split at isArray
  · cases isArray
  match types : schema.nonNullTypes with
  | [] =>
    rw [types] at isArray
    simp only at isArray
    split at isArray
    · cases isArray
    · next closed => exact Or.inr ⟨types, by simpa using closed⟩
  | [type] =>
    rw [types] at isArray
    have same : type = "array" := by
      simp only [formOfType] at isArray
      split at isArray <;> first | rfl | cases isArray
    exact Or.inl (same ▸ types)
  | _ :: _ :: _ =>
    rw [types] at isArray
    cases isArray

theorem Presents.admits (presents : Presents spec schema depth components array)
    (single : schema.allOf = []) : AdmitsArrays schema := by
  cases presents with
  | array _ isArray => exact admitsArrays_of_form isArray
  | component _ _ admits => exact admits
  | part wraps => cases wraps.allOf.symm.trans single
  | branch _ _ _ admits => exact admits

theorem nonNullTypes_congr {left right : Schema} (same : left.type = right.type) :
    left.nonNullTypes = right.nonNullTypes := by
  rw [Schema.nonNullTypes, Schema.nonNullTypes, Schema.types, Schema.types, same]

/-- A wrapper together with what is given for its part. -/
theorem Wraps.blank {given : Schema} (wraps : Wraps schema part) (admits : AdmitsArrays given) :
    Blank (mergeParts schema [given]) := by
  let merged := mergePart { schema with allOf := [] } given
  have properties : merged.properties = mergeProperties [] given.properties :=
    congrArg (mergeProperties · given.properties) wraps.properties
  have additional : merged.additional = given.additional :=
    congrArg (·.or given.additional) wraps.additional
  have types : merged.nonNullTypes = ["array"] ∨
      merged.nonNullTypes = [] ∧ merged.properties = [] ∧ merged.additional = none := by
    rcases wraps.type with untyped | isArray
    · have same : merged.type = given.type := congrArg (·.or given.type) untyped
      rw [nonNullTypes_congr same, properties, additional]
      refine admits.imp_right fun ⟨untypedToo, empty, closed⟩ => ⟨untypedToo, ?_, closed⟩
      rw [empty]
      rfl
    · cases own : schema.type with
      | none => simp [Schema.nonNullTypes, Schema.types, own] at isArray
      | some names =>
        have same : merged.type = schema.type := by
          show schema.type.or given.type = schema.type
          rw [own, Option.some_or]
        exact Or.inl ((nonNullTypes_congr same).trans isArray)
  have complete : completeType merged = merged := by
    refine if_neg fun incomplete => ?_
    obtain ⟨untyped, filled⟩ : merged.type = none ∧ merged.properties ≠ [] := by
      simpa using incomplete
    rcases types with isArray | ⟨-, empty, -⟩
    · simp [Schema.nonNullTypes, Schema.types, untyped] at isArray
    · exact filled empty
  have whole : mergeParts schema [given] = merged := complete
  rw [whole]
  exact ⟨⟨wraps.reference, rfl⟩, types, wraps.items, wraps.oneOf, wraps.anyOf, wraps.choices⟩

/-- The schema that is merged for a part which stands for an array speaks of no other values. -/
theorem Presents.exists_given (presents : Presents spec schema depth components array)
    (limit : Nat) (enough : depth ≤ limit) :
    ∃ given, givePart spec limit schema = .ok given ∧ AdmitsArrays given := by
  induction presents generalizing limit with
  | array direct isArray =>
    rw [givePart_of_inline limit direct.referenceName?, if_pos (List.isEmpty_iff.mpr direct.allOf)]
    exact ⟨_, rfl, admitsArrays_of_form isArray⟩
  | @component schema target _ component _ _ named _ _ found inside inductionHypothesis =>
    have resolved : resolvePart spec schema = .ok target := by
      unfold resolvePart
      rw [named]
      simp only [found]
      rfl
    have gives : givePart spec limit schema =
        if target.allOf.isEmpty then .ok target else mergeWithin spec limit target := by
      rw [givePart, resolved]
      rfl
    rw [gives]
    by_cases single : target.allOf.isEmpty = true
    · rw [if_pos single]
      exact ⟨target, rfl, inside.admits (List.isEmpty_iff.mp single)⟩
    · rw [if_neg single]
      have unnamed : target.referenceName? = none := by
        cases inside with
        | part wraps => exact referenceName?_of_reference wraps.reference
        | array direct => exact direct.referenceName?
        | branch direct => exact direct.referenceName?
        | component _ whole => exact absurd (List.isEmpty_iff.mpr whole) single
      obtain ⟨given, gave, admits⟩ := inductionHypothesis limit (Nat.le_of_succ_le enough)
      rw [givePart_of_inline _ unnamed, if_neg single] at gave
      exact ⟨given, gave, admits⟩
  | @part schema part _ depth _ wraps _ inductionHypothesis =>
    obtain ⟨limit, rfl⟩ : ∃ less, limit = less + 1 := Nat.exists_eq_succ_of_ne_zero (by omega)
    obtain ⟨given, gave, admits⟩ := inductionHypothesis limit (Nat.le_of_succ_le_succ enough)
    have parts : schema.allOf.mapM (givePart spec limit) = .ok [given] := by
      rw [wraps.allOf, List.mapM_cons, gave]
      rfl
    refine ⟨mergeParts schema [given], ?_, (wraps.blank admits).admits⟩
    rw [givePart_of_inline _ (referenceName?_of_reference wraps.reference),
      if_neg (by simp [wraps.allOf]), mergeWithin_succ, parts]
    rfl
  | branch direct _ _ admits =>
    rw [givePart_of_inline limit direct.referenceName?, if_pos (List.isEmpty_iff.mpr direct.allOf)]
    exact ⟨_, rfl, admits⟩

/-- A wrapper of what stands for an array is merged to what says at most that it is an array. -/
theorem Presents.exists_whole (wraps : Wraps schema part)
    (presents : Presents spec part depth components array) :
    ∃ whole, mergeAllOf spec schema = .ok whole ∧ Blank whole := by
  have steps := (Presents.part wraps presents).depth_lt
  obtain ⟨given, gave, admits⟩ :=
    presents.exists_given (spec.schemasSize + schema.size) (by omega)
  have parts : schema.allOf.mapM (givePart spec (spec.schemasSize + schema.size)) =
      .ok [given] := by
    rw [wraps.allOf, List.mapM_cons, gave]
    rfl
  refine ⟨mergeParts schema [given], ?_, wraps.blank admits⟩
  rw [mergeAllOf, mergeWithin_succ, parts]
  rfl

end Parts

/-! ### Lists that are recognized -/

/-- The schemas that are recognized as lists of an item type: null is allowed nowhere on the way to
the array, and an array without items is one of free values. -/
inductive Recognized (spec : Spec) (item : ValueType) : Schema → Prop
  | array {schema : Schema} :
      Direct schema → form schema = .array → schema.isNullable = false →
        (schema.items = none → item = .json) → Recognized spec item schema
  | unwraps {schema inner : Schema} :
      Unwraps spec schema inner →
        (Direct schema → schema.isNullable = false ∧ schema.hasNullBranch = false) →
          Recognized spec item inner → Recognized spec item schema

section Recognized

variable {spec : Spec} {schema inner : Schema} {item : ValueType}

theorem recognized_iff_of_array (direct : Direct schema) (isArray : form schema = .array) :
    Recognized spec item schema ↔
      schema.isNullable = false ∧ (schema.items = none → item = .json) := by
  constructor
  · intro recognized
    cases recognized with
    | array _ _ present free => exact ⟨present, free⟩
    | unwraps unwraps => cases (direct.branch_of_unwraps unwraps).1.symm.trans isArray
  · rintro ⟨present, free⟩
    exact .array direct isArray present free

theorem recognized_iff_of_unwraps (unwraps : Unwraps spec schema inner) :
    Recognized spec item schema ↔
      (Direct schema → schema.isNullable = false ∧ schema.hasNullBranch = false) ∧
        Recognized spec item inner := by
  constructor
  · intro recognized
    cases recognized with
    | array direct isArray => cases (direct.branch_of_unwraps unwraps).1.symm.trans isArray
    | unwraps unwrapsToo present recognized =>
      cases unwraps.unique unwrapsToo
      exact ⟨present, recognized⟩
  · rintro ⟨present, recognized⟩
    exact .unwraps unwraps present recognized

end Recognized

/-! ### The lowering of an array -/

/-- The lowering of the items of an array that is met under a hint. -/
def lowerItems (context : Context) (limit : Nat) (array : Schema) (hint : String) :
    Lower ValueType :=
  match array.items with
  | some items => lowerWithin context limit items (Naming.singularize hint)
  | none => freeJson

/-- The state in which components have begun one after another. -/
def beginComponents (state : State) (components : List String) : State :=
  components.foldl (fun state component => beginComponent component state) state

theorem optionalIf_eq_list_iff {condition : Bool} {type item : ValueType} :
    optionalIf condition type = .list item ↔ condition = false ∧ type = .list item := by
  cases condition with
  | false => simp [optionalIf]
  | true => cases type <;> simp [optionalIf, ValueType.toOptional]

/-- Whether a type is, options aside, a list or free. -/
def IsListOrFree (type : ValueType) : Prop :=
  type.withoutOption = .json ∨ ∃ item, type.withoutOption = .list item

section Lowering

variable {context : Context} {schema array : Schema} {hint : String} {state last : State}
  {depth : Nat} {components : List String} {item : ValueType} {limit : Nat}

theorem item_of_free (free : array.items = none)
    (ran : lowerItems context limit array hint state = (.ok item, last)) : item = .json := by
  rw [lowerItems, free] at ran
  cases ran
  rfl

theorem Direct.run_array (direct : Direct schema) (isArray : form schema = .array)
    (argues : context.dialect ≠ .cli)
    (ran : lowerItems context limit schema hint state = (.ok item, last)) :
    lowerWithin context (limit + 1) schema hint state =
      (.ok (optionalIf schema.isNullable (.list item)), last) := by
  show lowerStep context (lowerWithin context limit) schema hint state = _
  rw [lowerStep_plain direct.reference direct.allOf]
  unfold lowerItems at ran
  cases isItems : schema.items with
  | none =>
    rw [isItems] at ran
    cases ran
    rw [(Leaf.freeItems isArray argues isItems).run]
    rfl
  | some items =>
    rw [isItems] at ran
    rw [(Inner.items isArray argues isItems).run ran]
    rfl

/-- What merging leaves of an array is a list of free values, or free. -/
theorem Blank.run (blank : Blank schema) (argues : context.dialect ≠ .cli) (limit : Nat)
    (hint : String) (state : State) :
    ∃ type after, lowerWithin context (limit + 1) schema hint state = (.ok type, after) ∧
      (type = .list item ↔ Recognized context.spec item schema) ∧ IsListOrFree type := by
  by_cases isArray : form schema = .array
  · have ran : lowerItems context limit schema hint state =
        (.ok .json, state.addImports [Import.json]) := by
      rw [lowerItems, blank.items]
      rfl
    refine ⟨_, _, blank.direct.run_array isArray argues ran, ?_,
      Or.inr ⟨.json, withoutOption_optionalIf _ _⟩⟩
    rw [recognized_iff_of_array blank.direct isArray, optionalIf_eq_list_iff, ValueType.list.injEq]
    exact and_congr_right fun _ => ⟨fun same _ => same.symm, fun free => (free blank.items).symm⟩
  · have free : form schema = .free := by
      have known := blank.form_eq
      split at known
      · exact absurd known isArray
      · exact known
    refine ⟨optionalIf schema.isNullable .json, state.addImports [Import.json], ?_, ?_,
      Or.inl (withoutOption_optionalIf _ _)⟩
    · show lowerStep context (lowerWithin context limit) schema hint state = _
      rw [lowerStep_plain blank.direct.reference blank.direct.allOf, (Leaf.free free).run]
      rfl
    · refine iff_of_false (fun same => ?_) fun recognized => ?_
      · cases (optionalIf_eq_list_iff.mp same).2
      · cases recognized with
        | array _ isArrayToo => exact isArray isArrayToo
        | unwraps unwraps => cases (blank.direct.branch_of_unwraps unwraps).1.symm.trans free

/-- What stands for an array has a type if the items of the array have one: the list of it if the
array is recognized. -/
theorem Presents.run (presents : Presents context.spec schema depth components array)
    (argues : context.dialect ≠ .cli) (idle : state.inProgress = [])
    (apart : ∀ component ∈ components, component ∉ state.visiting)
    (ran : lowerItems context limit array (components.getLastD hint)
      (beginComponents state components) = (.ok item, last)) :
    ∃ type after, lowerWithin context (limit + depth + 1) schema hint state = (.ok type, after) ∧
      (type = .list item ↔ Recognized context.spec item schema) ∧ IsListOrFree type := by
  have distinct := presents.nodup
  induction presents generalizing hint state with
  | @array schema direct isArray =>
    refine ⟨_, _, direct.run_array isArray argues ran, ?_,
      Or.inr ⟨item, withoutOption_optionalIf _ _⟩⟩
    have free : schema.items = none → item = .json := fun none => item_of_free none ran
    rw [recognized_iff_of_array direct isArray, optionalIf_eq_list_iff]
    exact and_congr_right fun _ => iff_of_true rfl free
  | @component schema target array component depth components named _ _ found _ inductionHypothesis =>
    have new : component ∉ state.visiting := apart component List.mem_cons_self
    have pending : state.isInProgress (Naming.typeName component) = false := by
      rw [State.isInProgress, idle]
      rfl
    obtain ⟨notAgain, distinct⟩ := List.nodup_cons.mp distinct
    have apartToo : ∀ other ∈ components, other ∉ (beginComponent component state).visiting := by
      intro other member begun
      rcases List.mem_cons.mp begun with rfl | before
      · exact notAgain member
      · exact apart other (List.mem_cons_of_mem _ member) before
    rw [List.getLastD_cons] at ran
    have idleToo : (beginComponent component state).inProgress = [] := idle
    obtain ⟨type, after, lowered, recognized, shape⟩ :=
      inductionHypothesis idleToo apartToo ran distinct
    refine ⟨type, endComponent component after, ?_, recognized.trans ?_, shape⟩
    · show lowerStep context (lowerWithin context (limit + depth + 1)) schema hint state = _
      rw [lowerStep_component named new pending found, lowered]
    · rw [recognized_iff_of_unwraps (.component named found)]
      refine ⟨fun inside => ⟨fun direct => ?_, inside⟩, And.right⟩
      cases named.symm.trans direct.referenceName?
  | @part schema part array depth components wraps inside =>
    obtain ⟨whole, merged, blank⟩ := inside.exists_whole wraps
    have several : schema.allOf ≠ [] := wraps.allOf ▸ List.cons_ne_nil _ _
    obtain ⟨type, after, lowered, recognized, shape⟩ := blank.run argues (limit + depth) hint state
    refine ⟨type, after, ?_, recognized.trans ?_, shape⟩
    · show lowerStep context (lowerWithin context (limit + depth + 1)) schema hint state = _
      rw [lowerStep_merged wraps.reference several merged, lowered]
    · rw [recognized_iff_of_unwraps (.whole wraps.reference several merged)]
      exact ⟨fun inside => ⟨fun direct => absurd direct.allOf several, inside⟩, And.right⟩
  | @branch schema branch array depth components direct isUnion only _ _ inductionHypothesis =>
    obtain ⟨type, after, lowered, recognized, shape⟩ :=
      inductionHypothesis idle apart ran distinct
    refine ⟨optionalIf schema.isNullable (optionalIf schema.hasNullBranch type), after, ?_, ?_, ?_⟩
    · show lowerStep context (lowerWithin context (limit + depth + 1)) schema hint state = _
      rw [lowerStep_plain direct.reference direct.allOf, (Inner.branch isUnion only).run lowered]
      rfl
    · rw [optionalIf_eq_list_iff, optionalIf_eq_list_iff, recognized,
        recognized_iff_of_unwraps (.branch direct isUnion only), ← and_assoc]
      exact and_congr_left fun _ => ⟨fun present _ => present, fun present => present direct⟩
    · unfold IsListOrFree
      rw [withoutOption_optionalIf, withoutOption_optionalIf]
      exact shape

end Lowering

/-! ### Parameters -/

section Parameters

variable {context : Context} {state : State} {parameter : Parameter}

theorem isCommaSeparated_iff (parameter : Parameter) :
    parameter.isCommaSeparated = true ↔ parameter.location = .query ∧
      (parameter.style = none ∨ parameter.style = some "form") ∧ parameter.explode = some false := by
  unfold Parameter.isCommaSeparated
  cases parameter.style <;> simp [and_assoc]

/-- A parameter sent as one text has the type of such a list only if the type of its schema is a
list, without an option. -/
theorem separated_eq_iff {type item : ValueType} (separates : parameter.isCommaSeparated = true)
    (shape : IsListOrFree type) :
    (separated parameter type).withoutOption = .commaSeparated item ↔ type = .list item := by
  by_cases isList : ∃ inner, type = .list inner
  · obtain ⟨inner, rfl⟩ := isList
    simp [separated, separates, ValueType.withoutOption]
  · have kept : separated parameter type = type := by
      cases type with
      | list inner => exact absurd ⟨inner, rfl⟩ isList
      | _ => rfl
    rw [kept]
    refine iff_of_false (fun same => ?_) fun whole => isList ⟨item, whole⟩
    rcases shape with isFree | ⟨inner, isItems⟩
    · cases isFree.symm.trans same
    · cases isItems.symm.trans same

/-- A query parameter that is sent as one text, and whose schema stands for an array, is bound when
the items of the array have a type. Options aside, the type of the binding is a list in one text of
that type exactly if the schema is recognized as a list of it. The items are lowered under the
parameter's or the last component's name, while the components on the way are in progress, as deep
as the way to them allows. -/
theorem comma_separated_iff (argues : context.dialect ≠ .cli) (reachable : Reachable context state)
    (location : parameter.location = .query)
    (style : parameter.style = none ∨ parameter.style = some "form")
    (explode : parameter.explode = some false) {schema array : Schema}
    (given : parameter.schema = some schema) {depth : Nat} {components : List String}
    (presents : Presents context.spec schema depth components array) :
    depth < depthLimit context schema ∧
      ∀ item last, lowerItems context (depthLimit context schema - (depth + 1)) array
          (components.getLastD parameter.name) (beginComponents state components) =
            (.ok item, last) →
        ∀ scope, ∃ binding after, lowerParameter context parameter scope state =
            (.ok binding, after) ∧
          (binding.type.withoutOption = .commaSeparated item ↔
            Recognized context.spec item schema) := by
  have deep := presents.depth_lt_depthLimit
  refine ⟨deep, fun item last ran scope => ?_⟩
  obtain ⟨idle, unvisited⟩ := reachable.idle
  obtain ⟨type, after, lowered, recognized, shape⟩ := presents.run argues idle
    (fun component _ => unvisited ▸ List.not_mem_nil) ran
  have limit : depthLimit context schema - (depth + 1) + depth + 1 = depthLimit context schema := by
    omega
  rw [limit] at lowered
  have whole : lower context (parameterSchema parameter) parameter.name state =
      (.ok type, after) := by
    rw [parameterSchema, given]
    exact lowered
  have separates := (isCommaSeparated_iff parameter).mpr ⟨location, style, explode⟩
  refine ⟨_, _, by rw [lowerParameter_run, whole], ?_⟩
  rw [bindingOf, withoutOption_optionalIf, separated_eq_iff separates shape]
  exact recognized

end Parameters

/-- Texts with commas between them. -/
def tagsSchema : Schema where
  type := some (.single "array")
  items := some (.ofType "string")

/-- A parameter for tags in one text, with a schema. -/
def tagsParameter (schema : Schema) : Parameter where
  name := "tags"
  location := .query
  explode := some false
  schema := some schema

/-- A document with a component for tags. -/
def tagsContext : Context where
  dialect := .sdk
  spec := { version := "3.1.0", components := { schemas := [("Tags", tagsSchema)] } }

/-- The only branch refers to the array. -/
def tagsUnion : Schema := { oneOf := [refersTo "Tags"] }

theorem comma_separated_iff_tags :
    ∃ binding after, lowerParameter tagsContext (tagsParameter tagsUnion) {} {} =
      (.ok binding, after) ∧ binding.type.withoutOption = .commaSeparated .text := by
  have direct : Direct tagsSchema := ⟨rfl, rfl⟩
  have target : tagsContext.spec.schema? "Tags" = some tagsSchema := rfl
  have presents : Presents tagsContext.spec tagsUnion 2 ["Tags"] tagsSchema :=
    .branch ⟨rfl, rfl⟩ rfl rfl (Or.inr ⟨rfl, rfl, rfl⟩)
      (.component rfl rfl (Or.inr ⟨rfl, rfl, rfl⟩) target (.array direct rfl))
  have location : (tagsParameter tagsUnion).location = .query := rfl
  obtain ⟨-, bound⟩ :=
    comma_separated_iff (by decide) .initial location (Or.inl rfl) rfl rfl presents
  obtain ⟨binding, after, ran, exact⟩ := bound .text _ rfl {}
  refine ⟨binding, after, ran, exact.mpr ?_⟩
  refine .unwraps (.branch ⟨rfl, rfl⟩ rfl rfl) (fun _ => ⟨rfl, rfl⟩) ?_
  refine .unwraps (.component rfl target) (fun direct => ?_) (.array direct rfl rfl nofun)
  cases direct.reference

/-- Lists of texts that allow null: by the flag, by the types and by a branch. -/
def nullableTags : List Schema := [
  { tagsSchema with nullable := some true },
  { tagsSchema with type := some (.multiple ["array", "null"]) },
  { oneOf := [tagsSchema, .ofType "null"] }]

/-- A list of texts as the only part. -/
def tagsPart : Schema := { allOf := [tagsSchema] }

/-- Lists of texts that allow null are not given as one text, and the items in a part are lost. -/
theorem comma_separated_missed :
    (∀ schema ∈ tagsPart :: nullableTags, ∃ depth array,
      Presents emptyContext.spec schema depth [] array ∧ array.items = some (.ofType "string")) ∧
      ∀ dialect ∈ [Dialect.sdk, .cliRequest],
        (lowerParameter ⟨emptyContext.spec, dialect⟩ (tagsParameter tagsPart) {} {}).1.toOption.map
          Binding.type = some (.optional (.commaSeparated .json)) ∧
        ∀ schema ∈ nullableTags,
          (lowerParameter ⟨emptyContext.spec, dialect⟩ (tagsParameter schema) {} {}).1.toOption.map
            Binding.type = some (.optional (.list .text)) := by
  have direct : Presents emptyContext.spec tagsSchema 0 [] tagsSchema := .array ⟨rfl, rfl⟩ rfl
  refine ⟨fun schema member => ?_, by decide +kernel⟩
  simp only [nullableTags, List.mem_cons, List.not_mem_nil, or_false] at member
  rcases member with rfl | rfl | rfl | rfl
  · exact ⟨1, _, .part ⟨rfl, rfl, Or.inl rfl, rfl, rfl, rfl, rfl, rfl, rfl⟩ direct, rfl⟩
  · exact ⟨0, _, .array ⟨rfl, rfl⟩ rfl, rfl⟩
  · exact ⟨0, _, .array ⟨rfl, rfl⟩ rfl, rfl⟩
  · exact ⟨1, _, .branch ⟨rfl, rfl⟩ rfl rfl (Or.inr ⟨rfl, rfl, rfl⟩) direct, rfl⟩

end ServiceForge.Lowering
