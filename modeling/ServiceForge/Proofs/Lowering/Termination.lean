/-
This file proves that lowering ends if no part of an `allOf` is a reference. A reference
restarts the lowering on another schema, but adds its component to those in progress;
between two references the schemas grow smaller, merged ones too. So the depth is
bounded by the number of components that are not in progress, each counted with the size
of all components, and by the size of the schema. Any larger bound gives the same
outcome, so the lowering obeys its own rules without one.
-/

import ServiceForge.Proofs.Lowering.Agreement
import ServiceForge.Proofs.Lowering.Names

namespace ServiceForge.Lowering

open ServiceForge.OpenApi (Parameter Schema Spec)

/-! ### The rank of a schema -/

/-- The number of components that are not in progress. -/
def unvisited (spec : Spec) (visiting : List String) : Nat :=
  ((OrderedMap.keys spec.components.schemas).filter fun name => !visiting.contains name).length

theorem unvisited_le (spec : Spec) (visiting : List String) :
    unvisited spec visiting ≤ spec.schemasSize := by
  rw [Spec.schemasSize, Schema.propertiesSize_eq]
  refine Nat.le_trans (List.length_filter_le _ _) ?_
  rw [OrderedMap.keys, List.length_map, ← List.length_map Prod.snd]
  exact Schema.length_le_branchesSize _

theorem unvisited_cons_lt {spec : Spec} {visiting : List String} {component : String}
    {target : Schema} (found : spec.schema? component = some target)
    (new : component ∉ visiting) :
    unvisited spec (component :: visiting) < unvisited spec visiting := by
  have present : component ∈ OrderedMap.keys spec.components.schemas :=
    OrderedMap.mem_keys_of_get? found
  have fewer : ((OrderedMap.keys spec.components.schemas).filter
      fun name => !(component :: visiting).contains name) =
      ((OrderedMap.keys spec.components.schemas).filter
        fun name => !visiting.contains name).filter fun name => name ≠ component := by
    rw [List.filter_filter]
    exact List.filter_congr fun name _ => by simp
  unfold unvisited
  rw [fewer, List.length_filter_lt_length_iff_exists]
  exact ⟨component, List.mem_filter.mpr ⟨present, by simpa using new⟩, by simp⟩

/-- How deep the lowering of a schema can go while the given components are in progress. -/
def rank (spec : Spec) (visiting : List String) (schema : Schema) : Nat :=
  unvisited spec visiting * (spec.schemasSize + 1) + schema.size

theorem rank_lt_of_size_lt {spec : Spec} {visiting : List String} {schema inner : Schema}
    (smaller : inner.size < schema.size) :
    rank spec visiting inner < rank spec visiting schema :=
  Nat.add_lt_add_left smaller _

/-- A component may be larger than the schema that refers to it, but it is one less to come. -/
theorem rank_component_lt {spec : Spec} {visiting : List String} {component : String}
    {schema target : Schema} (found : spec.schema? component = some target)
    (new : component ∉ visiting) :
    rank spec (component :: visiting) target < rank spec visiting schema := by
  have fewer := Nat.mul_le_mul_right (spec.schemasSize + 1) (unvisited_cons_lt found new)
  have size := Spec.size_le_schemasSize found
  rw [Nat.succ_mul] at fewer
  unfold rank
  omega

theorem rank_lt_depthLimit (context : Context) (visiting : List String) (schema : Schema) :
    rank context.spec visiting schema < depthLimit context schema := by
  have components := Nat.mul_le_mul_right (context.spec.schemasSize + 1)
    (unvisited_le context.spec visiting)
  have wider : context.spec.schemasSize * (context.spec.schemasSize + 1) ≤
      context.spec.schemasSize * (context.spec.schemasSize + schema.size + 4) :=
    Nat.mul_le_mul_left _ (by omega)
  have remaining : schema.size + 4 ≤
      (schema.size + 4) * (context.spec.schemasSize + schema.size + 4) :=
    Nat.le_mul_of_pos_right _ (by omega)
  have square : depthLimit context schema =
      context.spec.schemasSize * (context.spec.schemasSize + schema.size + 4) +
        (schema.size + 4) * (context.spec.schemasSize + schema.size + 4) := by
    rw [← Nat.add_mul, ← Nat.add_assoc]
    rfl
  unfold rank
  omega

/-! ### Depths agree -/

/-- A class of schemas that holds whatever the lowering of one of them meets, and in which no
reference is merged. -/
structure Sealed (spec : Spec) (P : Schema → Prop) : Prop where
  inline : ∀ {schema}, P schema → Inline schema
  part : ∀ {schema part}, P schema → part ∈ schema.parts → P part
  whole : ∀ {schema whole}, P schema → Merges schema whole → P whole
  component : ∀ {schema name target}, P schema → schema.referenceName? = some name →
    spec.schema? name = some target → P target

section Depths

variable {context : Context} {P : Schema → Prop} {restatement : Restatement}
  {first second : Recur} {visiting : List String} {schema : Schema}

/-- A step asks only for the lowering of schemas of lower rank. -/
theorem Sealed.asks (sealed : Sealed context.spec P) (held : P schema)
    (alike : ∀ inner others, P inner →
      rank context.spec others inner < rank context.spec visiting schema →
        Alike restatement first second others inner) :
    Asks context restatement first second visiting schema where
  parts _ part isPart := alike part visiting (sealed.part held isPart)
    (rank_lt_of_size_lt (Schema.size_lt_of_mem_parts isPart))
  component component target named new found := alike target _ (sealed.component held named found)
    (rank_component_lt found new)
  whole several := by
    obtain ⟨whole, merges, merged⟩ := mergeAllOf_of_inline context.spec (sealed.inline held)
    rw [merged]
    have size := merges.size
    have positive := List.length_pos_iff.mpr several
    exact alike whole visiting (sealed.whole held merges) (rank_lt_of_size_lt (by omega))

/-- Two depths above the rank of a schema agree on it, whatever the types in progress stand for if
no schema of the class tells. -/
theorem Sealed.lowerWithin_alike (sealed : Sealed context.spec P)
    (overlooks : ∀ inner, P inner → restatement.Overlooks inner) {left right : Nat}
    (held : P schema) (deepLeft : rank context.spec visiting schema < left)
    (deepRight : rank context.spec visiting schema < right) :
    Alike restatement (lowerWithin context left) (lowerWithin context right) visiting schema := by
  induction left generalizing right visiting schema with
  | zero => exact absurd deepLeft (Nat.not_lt_zero _)
  | succ left inductionHypothesis =>
    cases right with
    | zero => exact absurd deepRight (Nat.not_lt_zero _)
    | succ right =>
      refine lowerStep_agrees (overlooks schema held)
        (sealed.asks held fun inner others heldInner lower => ?_)
      exact inductionHypothesis heldInner (by omega) (by omega)

/-- A depth above the rank of a schema is as good as the depth that is used. -/
theorem Sealed.lower_alike (sealed : Sealed context.spec P) {limit : Nat} (held : P schema)
    (deep : rank context.spec visiting schema < limit) :
    Alike .same (lower context) (lowerWithin context limit) visiting schema :=
  fun hint => sealed.lowerWithin_alike (fun inner _ => Restatement.overlooks_same inner) held
    (rank_lt_depthLimit context visiting schema) deep hint

/-- The lowering obeys its rules as if there was no bound on the depth. -/
theorem Sealed.lower_eq (sealed : Sealed context.spec P) (held : P schema) (hint : String)
    (state : State) :
    lower context schema hint state = lowerStep context (lower context) schema hint state := by
  have step : Alike .same (lowerStep context (lower context))
      (lowerWithin context (rank context.spec state.visiting schema + 1)) state.visiting schema :=
    lowerStep_agrees (Restatement.overlooks_same schema)
      (sealed.asks held fun inner others heldInner lower => sealed.lower_alike heldInner lower)
  have whole : Alike .same (lower context)
      (lowerWithin context (rank context.spec state.visiting schema + 1)) state.visiting schema :=
    sealed.lower_alike held (Nat.lt_succ_self _)
  exact (whole hint state ⟨trivial, rfl⟩).eq.symm.trans (step hint state ⟨trivial, rfl⟩).eq

end Depths

/-! ### Lowering ends -/

/-- The outcome of a computation with a bound on the depth is the same from some bound on, and is
no failure for lack of depth. -/
structure Terminates {α : Type} (bounded : Nat → Lower α) (action : Lower α) (state : State) :
    Prop where
  ends : Concludes (fun _ => True) (action state).1
  settled : ∃ bound, ∀ limit, bound ≤ limit → bounded limit state = action state

theorem sealed_inline {spec : Spec}
    (components : ∀ name target, spec.schema? name = some target → Inline target) :
    Sealed spec Inline where
  inline inline := inline
  part inline isPart := inline.of_mem_parts isPart
  whole inline merges := merges.inline inline
  component _ _ found := components _ _ found

section Terminates

variable {context : Context} {P : Schema → Prop} {schema : Schema}

theorem Sealed.lower_terminates (sealed : Sealed context.spec P) (held : P schema) (hint : String)
    (state : State) :
    Terminates (fun limit => lowerWithin context limit schema hint) (lower context schema hint)
      state := by
  have deep := rank_lt_depthLimit context state.visiting schema
  refine ⟨(sealed.lower_alike held deep hint state ⟨trivial, rfl⟩).ends,
    rank context.spec state.visiting schema + 1, fun limit enough => ?_⟩
  exact (sealed.lower_alike held enough hint state ⟨trivial, rfl⟩).eq

theorem Sealed.lowerFields_terminates (sealed : Sealed context.spec P) (held : P schema)
    (owner : String) (state : State) :
    Terminates (fun limit => lowerFieldsWith context (lowerWithin context limit) schema owner)
      (lowerFields context schema owner) state := by
  have whole : Concludes (fun whole => P whole ∧ whole.size ≤ schema.size)
      (wholeOf context schema) := by
    unfold wholeOf
    split
    · exact ⟨held, Nat.le_refl _⟩
    · obtain ⟨whole, merges, merged⟩ := mergeAllOf_of_inline context.spec (sealed.inline held)
      have size := merges.size
      rw [merged]
      exact ⟨sealed.whole held merges, by omega⟩
  have settled (limit : Nat) (enough : rank context.spec state.visiting schema ≤ limit) :
      Agrees .same (fun _ => True) (lowerFields context schema owner)
        (lowerFieldsWith context (lowerWithin context limit) schema owner) state := by
    refine lowerFieldsWith_agrees ?_ owner ⟨trivial, rfl⟩
    revert whole
    cases wholeOf context schema with
    | error error => exact fun ends => ends
    | ok whole =>
      rintro ⟨heldWhole, size⟩ part isPart
      have smaller := Schema.size_lt_of_mem_parts isPart
      have lower : rank context.spec state.visiting part <
          rank context.spec state.visiting schema := rank_lt_of_size_lt (by omega)
      exact sealed.lower_alike (sealed.part heldWhole isPart) (by omega)
  exact ⟨(settled _ (Nat.le_refl _)).ends, _, fun limit enough => (settled limit enough).eq⟩

theorem lowerParameter_ends {parameter : Parameter} {scope : Scope} {state : State}
    (ends : Concludes (fun _ => True)
      (lower context (parameterSchema parameter) parameter.name state).1) :
    Concludes (fun _ => True) (lowerParameter context parameter scope state).1 := by
  rw [lowerParameter_run]
  revert ends
  rcases lower context (parameterSchema parameter) parameter.name state with ⟨error | type, after⟩
  · exact fun ends => ends
  · exact fun _ => trivial

end Terminates

/-- If no part of an `allOf` is a reference, neither in the components nor in what is lowered, then
parts are merged to one schema, and from every state the lowering of a schema, of its fields and of
a parameter comes to an outcome; none of this depends on the depth, and the lowering obeys its
rules without any bound. In every state the search for the name of a type ends at the first
candidate that is free or stands for an equal schema, and a name that is taken is extended up to
the first one that is not. -/
theorem lowering_terminates {context : Context}
    (components : ∀ name target, context.spec.schema? name = some target → Inline target)
    (state : State) :
    (∀ schema, Inline schema →
      (∃ whole, mergeAllOf context.spec schema = .ok whole ∧
        ∀ limit, schema.size ≤ limit → mergeWithin context.spec limit schema = .ok whole) ∧
      ∀ hint,
        Terminates (fun limit => lowerWithin context limit schema hint) (lower context schema hint)
          state ∧
        lower context schema hint state = lowerStep context (lower context) schema hint state ∧
        Terminates (fun limit => lowerFieldsWith context (lowerWithin context limit) schema hint)
          (lowerFields context schema hint) state) ∧
      (∀ parameter scope, Inline (parameterSchema parameter) →
        Concludes (fun _ => True) (lowerParameter context parameter scope state).1) ∧
      (∀ hint schema, ∃ index, EndsAt state (Naming.typeName hint) schema index ∧
        claim state hint schema = state.claimAt (candidate (Naming.typeName hint) index)) ∧
      ∀ taken suffix name, (suffix = "_" ∨ ∃ index : Nat, suffix = toString index) →
        ∃ count, fresh taken suffix name = (· ++ suffix)^[count] name ∧
          (· ++ suffix)^[count] name ∉ taken ∧
            ∀ earlier < count, (· ++ suffix)^[earlier] name ∈ taken := by
  have sealed := sealed_inline components
  refine ⟨fun schema inline => ⟨?_, fun hint => ⟨sealed.lower_terminates inline hint state,
      sealed.lower_eq inline hint state, sealed.lowerFields_terminates inline hint state⟩⟩,
    fun parameter scope inline =>
      lowerParameter_ends (sealed.lower_terminates inline parameter.name state).ends,
    fun hint schema => claim_endsAt state hint schema, fun taken suffix name isSuffix => ?_⟩
  · obtain ⟨whole, merges, ends⟩ := exists_merges context.spec schema inline
    exact ⟨whole, ends _ (by omega), ends⟩
  · refine fresh_endsAt taken ?_ name
    rcases isSuffix with rfl | ⟨index, rfl⟩
    · decide
    · exact Nat.repr_ne_empty

/-- Components that lead to each other through lists, maps, unions and merged properties. -/
def forestContext : Context where
  dialect := .sdk
  spec := {
    version := "3.1.0"
    components := {
      schemas := [
        ("Tree", {
          allOf := [
            { properties := [("forest", refersTo "Forest")] },
            { properties := [("trees", { type := some (.single "array"),
                                         items := some (refersTo "Tree") })] }] }),
        ("Forest", {
          oneOf := [refersTo "Tree", { additional := some (.each (refersTo "Forest")) }] })] } }

theorem inline_refersTo (component : String) : Inline (refersTo component) :=
  .of_parts (fun part isPart => by cases isPart) (fun part isPart => by cases isPart)

theorem forest_inline {name : String} {target : Schema}
    (found : forestContext.spec.schema? name = some target) : Inline target := by
  have single {schema inner : Schema} (own : schema.allOf = []) (only : schema.parts = [inner])
      (inline : Inline inner) : Inline schema :=
    .of_parts (by simp [own]) (by simpa [only] using inline)
  have member := OrderedMap.mem_of_get? found
  simp only [forestContext, List.mem_cons, Prod.mk.injEq, List.not_mem_nil, or_false] at member
  rcases member with ⟨-, rfl⟩ | ⟨-, rfl⟩
  · refine .of_parts (by decide) fun part isPart => ?_
    rcases List.mem_pair.mp isPart with rfl | rfl
    · exact single rfl rfl (inline_refersTo "Forest")
    · exact single rfl rfl (single rfl rfl (inline_refersTo "Tree"))
  · refine .of_parts (fun part isPart => by cases isPart) fun part isPart => ?_
    rcases List.mem_pair.mp isPart with rfl | rfl
    · exact inline_refersTo "Tree"
    · exact single rfl rfl (inline_refersTo "Forest")

theorem lowering_terminates_forest :
    Concludes (fun _ => True) (lower forestContext (refersTo "Forest") "" {}).1 ∧
      (lower forestContext (refersTo "Forest") "" {}).1.toOption = some (.named "Forest") := by
  have components : ∀ name target, forestContext.spec.schema? name = some target → Inline target :=
    fun _ _ found => forest_inline found
  have terminates := (lowering_terminates components {}).1 (refersTo "Forest")
    (inline_refersTo "Forest")
  exact ⟨(terminates.2 "").1.ends, by decide +kernel⟩

end ServiceForge.Lowering
