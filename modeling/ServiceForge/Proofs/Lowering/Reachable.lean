/-
This file says which states the callers of the lowering can reach: any number of
schemas, lists of fields and parameters may be lowered one after another, and a
failure does not end the use of the state. A property of states holds of all of them
once every lowering of a schema keeps it and imports do not matter to it.
-/

import ServiceForge.Proofs.Lowering.Discipline

namespace ServiceForge.Lowering

open ServiceForge.OpenApi (Parameter Schema)

/-! ### Fields and parameters -/

/-- The schema whose properties become fields: the schema itself, or its parts in one. -/
def wholeOf (context : Context) (schema : Schema) : Except GenerationError Schema :=
  if schema.allOf.isEmpty then .ok schema else mergeAllOf context.spec schema

/-- Fields are lowered property by property once the parts of the schema are merged. -/
theorem lowerFieldsWith_calls {context : Context} {recur : Recur} {schema : Schema}
    {owner : String} {state after : State} {result : Except GenerationError (List Field)}
    (ran : lowerFieldsWith context recur schema owner state = (result, after)) :
    (∃ error, wholeOf context schema = .error error ∧ result = .error error ∧ after = state) ∨
      ∃ whole types, wholeOf context schema = .ok whole ∧
        Calls recur (propertyCalls owner (settable context whole.properties)) state types after ∧
        result = types.map (fieldsOf whole [] (settable context whole.properties)) := by
  unfold lowerFieldsWith at ran
  unfold wholeOf
  by_cases single : schema.allOf.isEmpty = true
  · rw [if_pos single] at ran
    obtain ⟨types, called, same⟩ := lowerProperties_calls schema.properties ran
    exact Or.inr ⟨schema, types, if_pos single, called, same⟩
  rw [if_neg single] at ran
  cases merged : mergeAllOf context.spec schema with
  | error failure =>
    replace ran := (bind_run_of_error ((settle_run _ state).trans (by rw [merged]))).symm.trans ran
    cases ran
    exact Or.inl ⟨failure, if_neg single, rfl, rfl⟩
  | ok whole =>
    replace ran := (bind_run_of_ok ((settle_run _ state).trans (by rw [merged]))).symm.trans ran
    obtain ⟨types, called, same⟩ := lowerProperties_calls whole.properties ran
    exact Or.inr ⟨whole, types, if_neg single, called, same⟩

theorem lowerFields_calls {context : Context} {schema : Schema} {owner : String}
    {state after : State} {result : Except GenerationError (List Field)}
    (ran : lowerFields context schema owner state = (result, after)) :
    (∃ error, wholeOf context schema = .error error ∧ result = .error error ∧ after = state) ∨
      ∃ whole types, wholeOf context schema = .ok whole ∧
        Calls (lower context) (propertyCalls owner (settable context whole.properties)) state
          types after ∧
        result = types.map (fieldsOf whole [] (settable context whole.properties)) :=
  lowerFieldsWith_calls ran

/-- The schema that stands for the values of a parameter. -/
def parameterSchema (parameter : Parameter) : Schema :=
  parameter.schema.getD (.ofType "string")

/-- The type of a parameter whose schema has the given type: a list in one text keeps its item. -/
def separated (parameter : Parameter) : ValueType → ValueType
  | .list item => if parameter.isCommaSeparated then .commaSeparated item else .list item
  | type => type

/-- The binding of a parameter whose schema has the given type. -/
def bindingOf (parameter : Parameter) (scope : Scope) (type : ValueType) : Binding where
  name := if isResourceId parameter scope then "id" else Naming.fieldName parameter.name
  wireName := parameter.name
  location := parameter.location
  type := optionalIf (!(parameter.required || decide (parameter.location = .path)))
    (separated parameter type)
  required := parameter.required || decide (parameter.location = .path)
  description := parameter.description

/-- The paths imported for a parameter whose schema has the given type. -/
def bindingImports (context : Context) (parameter : Parameter) : ValueType → List String
  | .list _ =>
    if parameter.isCommaSeparated then importsIn context [.sdk] [Import.commaSeparatedList] else []
  | _ => []

/-- A parameter is bound to the type of its schema. -/
theorem lowerParameter_run (context : Context) (parameter : Parameter) (scope : Scope)
    (state : State) :
    lowerParameter context parameter scope state =
      match lower context (parameterSchema parameter) parameter.name state with
      | (.error error, middle) => (.error error, middle)
      | (.ok type, middle) => (.ok (bindingOf parameter scope type),
          middle.addImports (bindingImports context parameter type)) := by
  unfold lowerParameter
  rcases ran : lower context (parameterSchema parameter) parameter.name state
    with ⟨failure | type, middle⟩
  · exact bind_run_of_error ran
  · refine (bind_run_of_ok ran).trans ?_
    cases separate : parameter.isCommaSeparated with
    | false => cases type <;> simp [bindingOf, bindingImports, separated, separate, bind_run]
    | true =>
      cases type <;>
        simp [bindingOf, bindingImports, separated, separate, bind_run, addImportIn_run]

/-! ### Calls -/

/-- What a caller can ask for. -/
inductive Call where
  | single (schema : Schema) (hint : String)
  | fields (schema : Schema) (owner : String)
  | binding (parameter : Parameter) (scope : Scope)

/-- The state after a call, whether it succeeded or failed. -/
def Call.after (context : Context) (state : State) : Call → State
  | .single schema hint => (lower context schema hint state).2
  | .fields schema owner => (lowerFields context schema owner state).2
  | .binding parameter scope => (lowerParameter context parameter scope state).2

/-- The states that any sequence of calls reaches. -/
inductive Reachable (context : Context) : State → Prop
  | initial : Reachable context {}
  | call {state : State} (call : Call) :
      Reachable context state → Reachable context (call.after context state)

/-- A property of states that every lowering of a schema keeps. -/
def Kept (context : Context) (P : State → Prop) : Prop :=
  ∀ {schema : Schema} {hint : String} {state after : State}
    {result : Except GenerationError ValueType},
    P state → lower context schema hint state = (result, after) → P after

section Kept

variable {context : Context} {P : State → Prop} {state after : State}

/-- What single lowerings keep, lowerings one after another keep. -/
theorem Calls.keeps {recur : Recur} {calls : List (Schema × String)}
    {types : Except GenerationError (List ValueType)}
    (kept : ∀ {schema : Schema} {hint : String} {state after : State}
      {result : Except GenerationError ValueType},
      P state → recur schema hint state = (result, after) → P after)
    (holds : P state) (ran : Calls recur calls state types after) : P after := by
  induction ran with
  | nil => exact holds
  | cons first _ inductionHypothesis => exact inductionHypothesis (kept holds first)
  | here first => exact kept holds first
  | later first _ inductionHypothesis => exact inductionHypothesis (kept holds first)

theorem Kept.calls (kept : Kept context P) {calls : List (Schema × String)}
    {types : Except GenerationError (List ValueType)} (holds : P state)
    (ran : Calls (lower context) calls state types after) : P after :=
  ran.keeps kept holds

theorem Kept.call (kept : Kept context P)
    (imported : ∀ state paths, P state → P (state.addImports paths)) (holds : P state)
    (call : Call) : P (call.after context state) := by
  cases call with
  | single schema hint => exact kept holds (Prod.eta (lower context schema hint state)).symm
  | fields schema owner =>
    show P (lowerFields context schema owner state).2
    rcases ran : lowerFields context schema owner state with ⟨result, last⟩
    rcases lowerFields_calls ran with ⟨_, _, _, rfl⟩ | ⟨_, _, _, called, _⟩
    · exact holds
    · exact kept.calls holds called
  | binding parameter scope =>
    show P (lowerParameter context parameter scope state).2
    rw [lowerParameter_run]
    rcases ran : lower context (parameterSchema parameter) parameter.name state
      with ⟨failure | type, last⟩
    · exact kept holds ran
    · exact imported _ _ (kept holds ran)

/-- A property that holds at first, that lowerings of schemas keep and that imports do not
change holds of all reachable states. -/
theorem Reachable.holds (reachable : Reachable context state) (initial : P {})
    (kept : Kept context P) (imported : ∀ state paths, P state → P (state.addImports paths)) :
    P state := by
  induction reachable with
  | initial => exact initial
  | call call _ inductionHypothesis => exact kept.call imported inductionHypothesis call

end Kept

/-! ### Reachable states are tidy -/

theorem lower_disciplined (context : Context) : Disciplined (lower context) :=
  fun tidy ran => lowerWithin_disciplined context _ tidy ran

theorem Reachable.tidy {context : Context} {state : State} (reachable : Reachable context state) :
    Tidy state := by
  refine reachable.holds .initial ?_ fun _ paths tidy => tidy.addImports paths
  intro schema hint state after result tidy ran
  exact (lower_disciplined context tidy ran).1

/-! ### Runs on given schemas -/

/-- A reference to a component schema. -/
def refersTo (component : String) : Schema :=
  { reference := some (Schema.componentStart ++ component) }

theorem run_of_toOption {context : Context} {schema : Schema} {hint : String} {state : State}
    {type : ValueType} (returned : (lower context schema hint state).1.toOption = some type) :
    lower context schema hint state = (.ok type, (lower context schema hint state).2) := by
  revert returned
  rcases lower context schema hint state with ⟨failure | other, after⟩
  · intro returned
    cases returned
  · intro returned
    cases returned
    rfl

end ServiceForge.Lowering
