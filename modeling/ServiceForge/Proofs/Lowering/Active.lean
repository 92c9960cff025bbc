/-
This file proves the discipline of the state: a call leaves what had begun as it was,
only adds imports and declared types, and keeps the names in use apart, whether it
succeeds or fails. It holds of the calls from outside and of the calls inside others,
which begin while types and components are in progress.
-/

import ServiceForge.Proofs.Lowering.Reachable

namespace ServiceForge.Lowering

open ServiceForge.OpenApi (Parameter Schema)

/-! ### Calls at any depth -/

/-- The ways to lower a schema: from outside, or inside another lowering to some depth. -/
inductive Lowers (context : Context) : Recur → Prop
  | outer : Lowers context (lower context)
  | inner (limit : Nat) : Lowers context (lowerWithin context limit)

/-- The calls at any depth, each with the state before it and the state that it leaves when it
succeeds or fails. -/
inductive Runs (context : Context) : State → State → Prop
  | single {recur : Recur} (schema : Schema) (hint : String) (state : State) :
      Lowers context recur → Runs context state (recur schema hint state).2
  | fields {recur : Recur} (schema : Schema) (owner : String) (state : State) :
      Lowers context recur →
        Runs context state (lowerFieldsWith context recur schema owner state).2
  | binding (parameter : Parameter) (scope : Scope) (state : State) :
      Runs context state (lowerParameter context parameter scope state).2

/-- The states in which calls begin at any depth: those that callers reach, those in which a type
or a component has begun, and those left by the calls made since then. -/
inductive Active (context : Context) : State → Prop
  | reachable {state : State} : Reachable context state → Active context state
  | type {state : State} {schema : Schema} {hint name : String} :
      Active context state → Declares context schema → form schema ≠ .textChoice →
        claim state hint schema = .new name → Active context (beginType name schema state)
  | component {state : State} {component : String} {target : Schema} :
      Active context state → component ∉ state.visiting →
        state.isInProgress (Naming.typeName component) = false →
          context.spec.schema? component = some target →
            Active context (beginComponent component state)
  | run {state after : State} :
      Active context state → Runs context state after → Active context after

theorem Declares.composite {context : Context} {schema : Schema}
    (declares : Declares context schema) (several : form schema ≠ .textChoice) :
    form schema = .object ∨ form schema = .union := by
  rcases declares.named with choice | ⟨isObject, -⟩ | ⟨isUnion, -⟩
  · exact absurd choice several
  · exact Or.inl isObject
  · exact Or.inr isUnion

theorem Lowers.disciplined {context : Context} {recur : Recur} (lowers : Lowers context recur) :
    Disciplined recur := by
  cases lowers with
  | outer => exact lower_disciplined context
  | inner limit => exact lowerWithin_disciplined context limit

/-- A call is as disciplined as the lowerings of schemas that it makes. -/
theorem Runs.disciplined {context : Context} {state after : State} (ran : Runs context state after)
    (tidy : Tidy state) : Tidy after ∧ Extends state after := by
  cases ran with
  | single schema hint _ lowers => exact lowers.disciplined tidy (Prod.eta _).symm
  | @fields recur schema owner _ lowers =>
    rcases fields : lowerFieldsWith context recur schema owner state with ⟨result, last⟩
    rcases lowerFieldsWith_calls fields with ⟨_, _, _, rfl⟩ | ⟨_, _, _, called, _⟩
    · exact ⟨tidy, .refl _⟩
    · exact Disciplined.calls lowers.disciplined tidy called
  | binding parameter scope =>
    rw [lowerParameter_run]
    rcases single : lower context (parameterSchema parameter) parameter.name state
      with ⟨failure | type, last⟩
    · exact lower_disciplined context tidy single
    · obtain ⟨tidyLast, kept⟩ := lower_disciplined context tidy single
      exact ⟨tidyLast.addImports _, kept.trans (.addImports _ _)⟩

/-! ### Active states -/

/-- Callers reach only states in which nothing is in progress. -/
theorem Reachable.idle {context : Context} {state : State} (reachable : Reachable context state) :
    state.inProgress = [] ∧ state.visiting = [] := by
  refine (reachable.holds (P := fun state =>
    Tidy state ∧ state.inProgress = [] ∧ state.visiting = []) ⟨.initial, rfl, rfl⟩ ?_ ?_).2
  · rintro schema hint state after result ⟨tidy, types, components⟩ ran
    obtain ⟨tidyAfter, kept⟩ := lower_disciplined context tidy ran
    exact ⟨tidyAfter, kept.inProgress.trans types, kept.visiting.trans components⟩
  · rintro state paths ⟨tidy, types, components⟩
    exact ⟨tidy.addImports paths, by simpa using types, by simpa using components⟩

theorem Active.tidy {context : Context} {state : State} (active : Active context state) :
    Tidy state ∧ state.visiting.Nodup := by
  induction active with
  | reachable reachable =>
    refine ⟨reachable.tidy, ?_⟩
    rw [reachable.idle.2]
    exact List.nodup_nil
  | type _ declares several claimed inductionHypothesis =>
    obtain ⟨tidy, components⟩ := inductionHypothesis
    exact ⟨tidy.beginType (claim_new claimed) (declares.composite several), components⟩
  | component _ new _ _ inductionHypothesis =>
    obtain ⟨tidy, components⟩ := inductionHypothesis
    exact ⟨tidy.beginComponent _, List.nodup_cons.mpr ⟨new, components⟩⟩
  | run _ ran inductionHypothesis =>
    obtain ⟨tidy, components⟩ := inductionHypothesis
    obtain ⟨tidyAfter, kept⟩ := ran.disciplined tidy
    exact ⟨tidyAfter, kept.visiting ▸ components⟩

/-- The recorded schema of a name is that of the only type with the name. -/
theorem Tidy.origin?_eq_some {state : State} (tidy : Tidy state) {name : String}
    {origin : Schema} :
    state.origin? name = some origin ↔
      (name, origin) ∈ state.inProgress ∨
        ∃ declared ∈ state.declared, declared.subtype.name = name ∧ declared.origin = origin := by
  have entry : (name, origin) ∈ state.entries ↔ (name, origin) ∈ state.inProgress ∨
      ∃ declared ∈ state.declared, declared.subtype.name = name ∧ declared.origin = origin := by
    simp [State.entries]
  rw [← entry, state.origin?_eq]
  have distinct : (state.entries.map Prod.fst).Nodup := tidy.distinct
  constructor
  · intro found
    obtain ⟨before, after, whole, -⟩ := List.lookup_eq_some_iff.mp found
    rw [whole]
    exact List.mem_append_right _ List.mem_cons_self
  · intro member
    obtain ⟨before, after, whole⟩ := List.append_of_mem member
    refine List.lookup_eq_some_iff.mpr ⟨before, after, whole, fun other held => ?_⟩
    rw [whole, List.map_append] at distinct
    have apart := (List.nodup_append.mp distinct).2.2 other.1 (List.mem_map.mpr ⟨other, held, rfl⟩)
      name List.mem_cons_self
    simpa using Ne.symm apart

/-- A call at any depth, whether it succeeds or fails, ends with the same types and components in
progress as it began with, and with all imports and all declared types in their places. The names
in progress and of declared types are distinct, and each declared type is found under its name
together with the schema that it was declared for. -/
theorem discipline_of_active {context : Context} {state after : State}
    (active : Active context state) (ran : Runs context state after) :
    after.inProgress = state.inProgress ∧ after.visiting = state.visiting ∧
      state.imports ⊆ after.imports ∧ state.declared <+: after.declared ∧
      after.visiting.Nodup ∧
      (after.inProgress.map Prod.fst ++ after.subtypes.map Subtype.name).Nodup ∧
      (∀ declared ∈ after.declared,
        after.declared.find? (·.subtype.name = declared.subtype.name) = some declared) ∧
      ∀ name origin, after.origin? name = some origin ↔
        (name, origin) ∈ after.inProgress ∨
          ∃ declared ∈ after.declared, declared.subtype.name = name ∧ declared.origin = origin := by
  have kept := (ran.disciplined active.tidy.1).2
  obtain ⟨tidyAfter, components⟩ := (active.run ran).tidy
  refine ⟨kept.inProgress, kept.visiting, kept.imports, kept.declared, components, ?_,
    fun declared member => tidyAfter.find?_declared member, fun _ _ => tidyAfter.origin?_eq_some⟩
  have distinct := tidyAfter.distinct
  rw [State.names_eq] at distinct
  simpa [State.subtypes, Function.comp_def] using distinct

/-- An object whose second property has a type that no schema has. -/
def brokenSchema : Schema :=
  { properties := [("c", .ofType "string"), ("d", .ofType "tuple")] }

/-- An object whose only property is broken. -/
def outerSchema : Schema := { properties := [("b", brokenSchema)] }

/-- A document without components, lowered for the library. -/
def emptyContext : Context := { dialect := .sdk, spec := { version := "3.1.0" } }

/-- The state in which the property of the object is lowered. -/
def pendingState : State := beginType "A" outerSchema {}

theorem discipline_of_active_broken :
    (lowerWithin emptyContext 2 brokenSchema "b" pendingState).1.toOption = none ∧
      (lowerWithin emptyContext 2 brokenSchema "b" pendingState).2.imports =
        [Import.borrowedText] ∧
      (lowerWithin emptyContext 2 brokenSchema "b" pendingState).2.inProgress =
        [("A", outerSchema)] := by
  have claimed : claim {} "A" outerSchema = .new "A" := rfl
  have active : Active emptyContext pendingState :=
    .type (.reachable .initial) ⟨rfl, Or.inr (Or.inl ⟨rfl, List.cons_ne_nil _ _⟩)⟩
      (by decide) claimed
  refine ⟨by decide +kernel, by decide +kernel, ?_⟩
  exact (discipline_of_active active (.single brokenSchema "b" pendingState (.inner 2))).1

end ServiceForge.Lowering
