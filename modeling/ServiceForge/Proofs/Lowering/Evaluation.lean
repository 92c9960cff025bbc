/-
This file evaluates the lowering where a case of it is known to apply: what is given for
a schema whose lowering looks at no other one, how the type of a schema follows from that
of the one schema that it stands for, and what a schema is given whose name is found.
-/

import ServiceForge.Proofs.Lowering.Step

namespace ServiceForge.Lowering

open ServiceForge.OpenApi (Schema)

section Plain

variable {context : Context} {recur : Recur} {schema : Schema} {hint : String} {state : State}

theorem lowerUnion_of_several (several : 2 ≤ schema.nonNullBranches.length) :
    lowerUnion context recur schema hint =
      if context.dialect ≠ .sdk then freeJson
      else do
        match claim (← get) hint schema with
        | .existing name => return .named name
        | .forward name => return .boxed (.named name)
        | .new name =>
          let variants ← within (beginType name schema) endType (lowerVariants recur schema name)
          declare schema { name, description := schema.description, shape := .enumeration variants }
          return optionalIf schema.hasNullBranch (.named name) := by
  unfold lowerUnion
  match schema.nonNullBranches, several with
  | _ :: _ :: _, _ => rfl

/-- A leaf is given its type from every state. -/
theorem Leaf.run {type : ValueType} {paths : List String} (leaf : Leaf context schema type paths)
    (recur : Recur) (hint : String) (state : State) :
    lowerPlain context recur schema hint state = (.ok type, state.addImports paths) := by
  rw [lowerPlain_eq]
  cases leaf with
  | free isFree => rw [isFree, lowerForm, freeJson_run]
  | dateTime isText dated => rw [isText, lowerForm, lowerText_run, if_pos dated]
  | text isText dated => rw [isText, lowerForm, lowerText_run, if_neg dated]
  | integer isInteger =>
    rw [isInteger]
    rfl
  | number isNumber =>
    rw [isNumber]
    rfl
  | boolean isBoolean =>
    rw [isBoolean]
    rfl
  | choice isChoice sdk =>
    rw [isChoice, lowerForm, lowerTextChoice, if_pos sdk]
    rfl
  | shownArray isArray shown =>
    rw [isArray, lowerForm, lowerArray, if_pos shown, freeJson_run]
  | freeItems isArray shown none =>
    rw [isArray, lowerForm, lowerArray, if_neg shown, none]
    exact bind_run_of_ok (freeJson_run state)
  | freeMap isObject empty free =>
    rw [isObject, lowerForm, lowerObject, if_pos (List.isEmpty_iff.mpr empty), lowerMap]
    match further : schema.additional with
    | none => exact freeJson_run state
    | some (.allowed flag) => exact freeJson_run state
    | some (.each values) =>
      have shown : context.dialect = .cli := free.resolve_right fun other => other values further
      simp only [if_pos shown]
      exact freeJson_run state
  | freeObject isObject filled sdk =>
    rw [isObject, lowerForm, lowerObject, if_neg (by simpa using filled), if_pos sdk, freeJson_run]
  | emptyUnion isUnion none =>
    rw [isUnion, lowerForm, lowerUnion, none]
    exact freeJson_run state
  | freeUnion isUnion several sdk =>
    rw [isUnion, lowerForm, lowerUnion_of_several several, if_pos sdk, freeJson_run]

/-- A schema that stands for one schema inside is given its type, wrapped. -/
theorem Inner.run {part : Schema} {partHint : String} {wrap : ValueType → ValueType}
    {paths : List String} {type : ValueType} {after : State}
    (inner : Inner context schema hint part partHint wrap paths)
    (ran : recur part partHint state = (.ok type, after)) :
    lowerPlain context recur schema hint state = (.ok (wrap type), after.addImports paths) := by
  rw [lowerPlain_eq]
  cases inner with
  | branch isUnion only =>
    rw [isUnion, lowerForm, lowerUnion, only]
    exact bind_run_of_ok ran
  | items isArray shown isItems =>
    rw [isArray, lowerForm, lowerArray, if_neg shown, isItems]
    exact bind_run_of_ok ran
  | values isObject empty shown isEach =>
    rw [isObject, lowerForm, lowerObject, if_pos (List.isEmpty_iff.mpr empty), lowerMap, isEach]
    simp only [if_neg shown]
    rw [bind_run_of_ok ran, bind_run_of_ok (addImportIn_run _ _ _ _)]
    rfl

/-- If the schema inside has no type, there is none for the schema. -/
theorem Inner.run_of_error {part : Schema} {partHint : String} {wrap : ValueType → ValueType}
    {paths : List String} {error : GenerationError} {after : State}
    (inner : Inner context schema hint part partHint wrap paths)
    (ran : recur part partHint state = (.error error, after)) :
    lowerPlain context recur schema hint state = (.error error, after) := by
  rw [lowerPlain_eq]
  cases inner with
  | branch isUnion only =>
    rw [isUnion, lowerForm, lowerUnion, only]
    exact bind_run_of_error ran
  | items isArray shown isItems =>
    rw [isArray, lowerForm, lowerArray, if_neg shown, isItems]
    exact bind_run_of_error ran
  | values isObject empty shown isEach =>
    rw [isObject, lowerForm, lowerObject, if_pos (List.isEmpty_iff.mpr empty), lowerMap, isEach]
    simp only [if_neg shown]
    exact bind_run_of_error ran

/-! ### Names that are found -/

/-- The type of a schema whose name is found. -/
def Claim.type? (schema : Schema) : Claim → Option ValueType
  | .new _ => none
  | .existing name => some (.named name)
  | .forward name => some (if form schema = .textChoice then .named name else .boxed (.named name))

/-- A schema that finds a name is given a type by that name and nothing else happens. -/
theorem Declares.run {type : ValueType} (declares : Declares context schema)
    (found : (claim state hint schema).type? schema = some type) :
    lowerPlain context recur schema hint state = (.ok type, state) := by
  have sdk := not_not_intro declares.dialect
  rw [lowerPlain_eq]
  rcases declares.named with isChoice | ⟨isObject, filled⟩ | ⟨isUnion, several⟩
  · rw [isChoice, lowerForm, lowerTextChoice, if_neg sdk, bind_run_of_ok (get_run state)]
    cases claimed : claim state hint schema <;> rw [claimed] at found <;>
      simp_all [Claim.type?]
  · rw [isObject, lowerForm, lowerObject, if_neg (by simpa using filled), if_neg sdk,
      bind_run_of_ok (get_run state)]
    cases claimed : claim state hint schema <;> rw [claimed] at found <;>
      simp_all [Claim.type?]
  · rw [isUnion, lowerForm, lowerUnion_of_several several, if_neg sdk,
      bind_run_of_ok (get_run state)]
    cases claimed : claim state hint schema <;> rw [claimed] at found <;>
      simp_all [Claim.type?]

end Plain

end ServiceForge.Lowering
