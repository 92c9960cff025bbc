/-
This file proves what a call does that is made twice. Its names are found the second
time, its imports are there and nothing is declared again, so the state does not change.
The type is the same up to one option: a union that was declared by the first call is
optional if null is among its branches, but its name alone is found by the second one.
-/

import Mathlib.Data.String.Basic
import ServiceForge.Proofs.Lowering.Components
import ServiceForge.Proofs.Lowering.Evaluation
import ServiceForge.Proofs.Lowering.Imports
import ServiceForge.Proofs.Lowering.Names
import ServiceForge.Proofs.Repetitions

namespace ServiceForge.Lowering

open ServiceForge.OpenApi (Schema)

/-! ### Later states -/

/-- A state after another one in which the same types and components are in progress. -/
structure Later (state later : State) : Prop where
  kept : Extends state later
  tidy : Tidy later
  ascending : later.imports.Pairwise (· < ·)

section Later

variable {state middle later : State} {schema : Schema} {hint name : String}

theorem Later.after (isLater : Later middle later) (kept : Extends state middle) :
    Later state later :=
  ⟨kept.trans isLater.kept, isLater.tidy, isLater.ascending⟩

/-- Paths that are imported already change nothing. -/
theorem Later.addImports_eq {paths : List String}
    (isLater : Later (state.addImports paths) later) : later.addImports paths = later := by
  have present : paths ⊆ later.imports := fun path member =>
    isLater.kept.imports (mem_addImports.mpr (Or.inl member))
  rw [Lowering.addImports_eq, SortedSet.insertAll_of_subset isLater.ascending present]

theorem Later.isInProgress (isLater : Later state later) (name : String) :
    later.isInProgress name = state.isInProgress name := by
  unfold State.isInProgress
  rw [isLater.kept.inProgress]

/-- Names stand for the same schemas later. -/
theorem Later.origin? (isLater : Later state later) (tidy : Tidy state) {origin : Schema}
    (found : state.origin? name = some origin) : later.origin? name = some origin := by
  refine isLater.tidy.origin?_eq_some.mpr ((tidy.origin?_eq_some.mp found).imp ?_ ?_)
  · intro pending
    rw [isLater.kept.inProgress]
    exact pending
  · rintro ⟨declared, member, named⟩
    exact ⟨declared, isLater.kept.mem_declared member, named⟩

/-- The candidates that a schema has passed over are passed over later. -/
theorem Later.endsAt (isLater : Later state later) (tidy : Tidy state) {base : String}
    {index : Nat} (ends : EndsAt state base schema index)
    (last : ∀ origin, later.origin? (candidate base index) = some origin →
      origin.equal schema = true) : EndsAt later base schema index where
  before earlier less := by
    obtain ⟨origin, found, different⟩ := ends.before earlier less
    exact ⟨origin, isLater.origin? tidy found, different⟩
  last := last

/-- A schema that has found its name finds it later. -/
theorem Later.claim_eq (isLater : Later state later) (tidy : Tidy state) {type : ValueType}
    (found : (claim state hint schema).type? schema = some type) :
    claim later hint schema = claim state hint schema := by
  obtain ⟨index, ends, claimed⟩ := claim_endsAt state hint schema
  rw [claimed] at found ⊢
  cases inUse : state.origin? (candidate (Naming.typeName hint) index) with
  | none =>
    rw [State.claimAt, inUse] at found
    cases found
  | some origin =>
    have inUseLater := isLater.origin? tidy inUse
    have endsLater : EndsAt later (Naming.typeName hint) schema index := by
      refine isLater.endsAt tidy ends fun other isOther => ?_
      cases inUseLater.symm.trans isOther
      exact ends.last origin inUse
    rw [endsLater.claim_eq, State.claimAt, State.claimAt, inUse, inUseLater]
    simp only [isLater.isInProgress]

/-- A declared name is not in progress. -/
theorem Tidy.isInProgress_declared (tidy : Tidy state) {declared : Declared}
    (member : declared ∈ state.declared) :
    state.isInProgress declared.subtype.name = false := by
  rw [← Bool.not_eq_true]
  intro pending
  have distinct := tidy.distinct
  rw [State.names_eq] at distinct
  exact (List.nodup_append.mp distinct).2.2 _ ((OrderedMap.isSome_get? _ _).mp pending) _
    (List.mem_map_of_mem member) rfl

/-- A schema that a type was declared for finds the name of the type later. -/
theorem Later.claim_declared (isLater : Later state later) (tidy : Tidy state)
    (claimed : claim state hint schema = .new name) {declared : Declared}
    (member : declared ∈ later.declared) (named : declared.subtype.name = name)
    (same : declared.origin.equal schema = true) :
    claim later hint schema = .existing name := by
  obtain ⟨index, ends, endsAt⟩ := claim_endsAt state hint schema
  rw [claimed] at endsAt
  have isName : candidate (Naming.typeName hint) index = name := by
    unfold State.claimAt at endsAt
    split at endsAt
    · exact (Claim.new.inj endsAt).symm
    · split at endsAt <;> cases endsAt
  have inUse : later.origin? name = some declared.origin :=
    isLater.tidy.origin?_eq_some.mpr (Or.inr ⟨declared, member, named, rfl⟩)
  have endsLater : EndsAt later (Naming.typeName hint) schema index := by
    refine isLater.endsAt tidy ends fun other isOther => ?_
    rw [isName, inUse] at isOther
    cases isOther
    exact same
  have complete := isLater.tidy.isInProgress_declared member
  rw [named] at complete
  rw [endsLater.claim_eq, isName, State.claimAt, inUse]
  simp [complete]

end Later

/-! ### Forgotten options -/

/-- The lowering of a schema comes down to that of another one, whose type it wraps. -/
inductive Through (context : Context) (schema : Schema) (hint : String) (state : State) :
    Schema → String → State → (ValueType → ValueType) → Prop
  | component {component : String} {target : Schema} :
      schema.referenceName? = some component → component ∉ state.visiting →
        state.isInProgress (Naming.typeName component) = false →
          context.spec.schema? component = some target →
            Through context schema hint state target component (beginComponent component state) id
  | merged {whole : Schema} :
      schema.reference = none → schema.allOf ≠ [] → mergeAllOf context.spec schema = .ok whole →
        Through context schema hint state whole hint state id
  | inner {part : Schema} {partHint : String} {wrap : ValueType → ValueType}
      {paths : List String} :
      schema.reference = none → schema.allOf = [] →
        Inner context schema hint part partHint wrap paths →
          Through context schema hint state part partHint state
            fun type => optionalIf schema.isNullable (wrap type)

/-- The lowering of a schema declares a union that is optional because of a null among its branches,
and nothing around the union makes up for that when its name is found. -/
inductive ForgetsNull (context : Context) :
    Schema → String → State → ValueType → ValueType → Prop
  | union {schema : Schema} {hint name : String} {state : State} :
      schema.reference = none → schema.allOf = [] → Declares context schema →
        form schema = .union → claim state hint schema = .new name →
          schema.hasNullBranch = true → schema.isNullable = false →
            ForgetsNull context schema hint state (.optional (.named name)) (.named name)
  | through {schema inner : Schema} {hint innerHint : String} {state innerState : State}
      {wrap : ValueType → ValueType} {type again : ValueType} :
      Through context schema hint state inner innerHint innerState wrap →
        ForgetsNull context inner innerHint innerState type again → wrap type ≠ wrap again →
          ForgetsNull context schema hint state (wrap type) (wrap again)

/-- What a call gives when it is made again: the same type, or one without an option. -/
def GivesAgain (context : Context) (schema : Schema) (hint : String) (state : State)
    (type again : ValueType) : Prop :=
  again = type ∨ ForgetsNull context schema hint state type again

section Again

variable {context : Context} {schema inner : Schema} {hint innerHint : String}
  {state innerState : State} {wrap : ValueType → ValueType} {type again : ValueType}

theorem ForgetsNull.ne (forgets : ForgetsNull context schema hint state type again) :
    again ≠ type := by
  cases forgets with
  | union => exact nofun
  | through _ _ different => exact Ne.symm different

theorem GivesAgain.through (gives : GivesAgain context inner innerHint innerState type again)
    (through : Through context schema hint state inner innerHint innerState wrap) :
    GivesAgain context schema hint state (wrap type) (wrap again) := by
  rcases gives with rfl | forgets
  · exact Or.inl rfl
  · by_cases same : wrap again = wrap type
    · exact Or.inl same
    · exact Or.inr (.through through forgets (Ne.symm same))

end Again

/-! ### Every call can be repeated -/

/-- What is asked of a way to lower the schemas inside a schema. -/
def Repeats (context : Context) (recur : Recur) : Prop :=
  ∀ {schema : Schema} {hint : String} {state after later : State} {type : ValueType},
    schema.Keyed → Tidy state → recur schema hint state = (.ok type, after) → Later after later →
      ∃ again, recur schema hint later = (.ok again, later) ∧
        GivesAgain context schema hint state type again

section Repeats

variable {context : Context} {recur : Recur} {schema : Schema} {hint : String}
  {state after later : State} {type : ValueType}

theorem Later.beginComponent {component : String} {inside : State}
    (kept : Extends (beginComponent component state) inside)
    (isLater : Later (endComponent component inside) later) :
    Later inside (beginComponent component later) := by
  have visiting : (endComponent component inside).visiting = inside.visiting.erase component := rfl
  refine ⟨⟨isLater.kept.inProgress, ?_, isLater.kept.imports, isLater.kept.declared⟩,
    isLater.tidy.beginComponent component, isLater.ascending⟩
  show component :: later.visiting = inside.visiting
  rw [isLater.kept.visiting, visiting, kept.visiting]
  exact congrArg (component :: ·) (List.erase_cons_head component state.visiting)

theorem endComponent_beginComponent (component : String) (state : State) :
    endComponent component (beginComponent component state) = state := by
  unfold endComponent beginComponent
  rw [List.erase_cons_head]

theorem Repeats.plain (repeats : Repeats context recur) (disciplined : Disciplined recur)
    (keyed : schema.Keyed) (tidy : Tidy state) (own : schema.reference = none)
    (single : schema.allOf = []) (ran : Plain context recur schema hint state (.ok type) after)
    (isLater : Later after later) :
    ∃ again, lowerPlain context recur schema hint later = (.ok again, later) ∧
      GivesAgain context schema hint state (optionalIf schema.isNullable type)
        (optionalIf schema.isNullable again) := by
  have kept := (disciplined.plain tidy ran).2
  have isLaterToo := isLater.after kept
  have declared {name : String} {subtype : Subtype} {before : State}
      (declares : Declares context schema) (claimed : claim state hint schema = .new name)
      (named : subtype.name = name) (isAfter : after = before.declare schema subtype) :
      lowerPlain context recur schema hint later = (.ok (.named name), later) := by
    have member : ⟨subtype, schema⟩ ∈ later.declared := by
      refine isLater.kept.mem_declared ?_
      rw [isAfter]
      exact List.mem_append_right _ (List.mem_singleton.mpr rfl)
    refine declares.run ?_
    rw [isLaterToo.claim_declared tidy claimed member named (schema.equal_self keyed)]
    rfl
  have found (declares : Declares context schema)
      (claimed : (claim state hint schema).type? schema = some type) :
      lowerPlain context recur schema hint later = (.ok type, later) := by
    refine declares.run ?_
    rw [isLaterToo.claim_eq tidy claimed]
    exact claimed
  cases ran with
  | leaf leaf =>
    refine ⟨type, ?_, Or.inl rfl⟩
    rw [leaf.run, isLater.addImports_eq]
  | inner inner inside =>
    obtain ⟨again, ran, gives⟩ := repeats (keyed.of_mem_parts inner.mem_parts) tidy inside
      (isLater.after (.addImports _ _))
    refine ⟨_, ?_, gives.through (.inner own single inner)⟩
    rw [inner.run ran, isLater.addImports_eq]
  | existing declares claimed =>
    exact ⟨_, found declares (by rw [claimed]; rfl), Or.inl rfl⟩
  | forward declares notChoice claimed =>
    exact ⟨_, found declares (by rw [claimed, Claim.type?, if_neg notChoice]), Or.inl rfl⟩
  | forwardChoice declares isChoice claimed =>
    exact ⟨_, found declares (by rw [claimed, Claim.type?, if_pos isChoice]), Or.inl rfl⟩
  | choice declares _ claimed => exact ⟨_, declared declares claimed rfl rfl, Or.inl rfl⟩
  | «structure» declares _ claimed =>
    exact ⟨_, declared declares claimed rfl rfl, Or.inl rfl⟩
  | @union name _ _ declares isUnion claimed =>
    refine ⟨_, declared declares claimed rfl rfl, ?_⟩
    cases hasNull : schema.hasNullBranch with
    | false => exact Or.inl rfl
    | true =>
      cases nullable : schema.isNullable with
      | true => exact Or.inl rfl
      | false => exact Or.inr (.union own single declares isUnion claimed hasNull nullable)

theorem Repeats.step
    (components : ∀ name target, context.spec.schema? name = some target → target.Keyed)
    (repeats : Repeats context recur) (disciplined : Disciplined recur) (keyed : schema.Keyed)
    (tidy : Tidy state) (ran : Step context recur schema hint state (.ok type) after)
    (isLater : Later after later) :
    ∃ again, lowerStep context recur schema hint later = (.ok again, later) ∧
      GivesAgain context schema hint state type again := by
  cases ran with
  | forward named begun =>
    refine ⟨_, lowerStep_forward named ?_, Or.inl rfl⟩
    rw [isLater.kept.visiting, isLater.isInProgress]
    exact begun
  | @component component _ _ _ named new idle found inside =>
    have kept := (disciplined (tidy.beginComponent component) inside).2
    obtain ⟨again, ran, gives⟩ := repeats (components _ _ found) (tidy.beginComponent component)
      inside (isLater.beginComponent kept)
    refine ⟨again, ?_, gives.through (.component named new idle found)⟩
    have visiting : later.visiting = state.visiting :=
      isLater.kept.visiting.trans kept.endComponent.visiting
    have inProgress : later.inProgress = state.inProgress :=
      isLater.kept.inProgress.trans kept.endComponent.inProgress
    rw [lowerStep_component named (visiting ▸ new) (by
      unfold State.isInProgress
      rw [inProgress]
      exact idle) found, ran, endComponent_beginComponent]
  | foreign unnamed isForeign =>
    refine ⟨_, ?_, Or.inl rfl⟩
    rw [lowerStep_foreign unnamed isForeign, isLater.addImports_eq]
  | merged own several merged inside =>
    obtain ⟨again, ran, gives⟩ := repeats (keyed_of_mergeAllOf components keyed merged) tidy inside
      isLater
    refine ⟨again, ?_, gives.through (.merged own several merged)⟩
    rw [lowerStep_merged own several merged, ran]
  | plain own single inside =>
    obtain ⟨again, ran, gives⟩ := repeats.plain disciplined keyed tidy own single inside isLater
    refine ⟨_, ?_, gives⟩
    rw [lowerStep_plain own single, ran]
    rfl

theorem lowerWithin_repeats
    (components : ∀ name target, context.spec.schema? name = some target → target.Keyed)
    (limit : Nat) : Repeats context (lowerWithin context limit) := by
  induction limit with
  | zero =>
    intro schema hint state after later type keyed tidy ran
    cases ran
  | succ limit inductionHypothesis =>
    intro schema hint state after later type keyed tidy ran isLater
    exact Repeats.step components inductionHypothesis (lowerWithin_disciplined context limit) keyed
      tidy (lowerStep_step ran) isLater

end Repeats

theorem Reachable.ascending {context : Context} {state : State}
    (reachable : Reachable context state) : state.imports.Pairwise (· < ·) := by
  refine (reachable.holds (P := fun state =>
    AllImported context state ∧ state.imports.Pairwise (· < ·))
    ⟨fun _ member => absurd member List.not_mem_nil, List.Pairwise.nil⟩ ?_ ?_).2
  · rintro schema hint state after result ⟨all, ascending⟩ ran
    obtain ⟨⟨paths, imports⟩, allAfter, -⟩ := lower_imports context all ran
    exact ⟨allAfter, imports ▸ SortedSet.insertAll_ascending paths ascending⟩
  · rintro state paths ⟨all, ascending⟩
    refine ⟨all.addImports paths, ?_⟩
    rw [addImports_eq]
    exact SortedSet.insertAll_ascending paths ascending

/-- A call that has succeeded succeeds at once when it is made again and leaves the state as it is.
Its type is the same, except where the first call has declared a union that is optional because of a
null among its branches: the name of the union is found without the option. -/
theorem lower_again {context : Context}
    (components : ∀ name target, context.spec.schema? name = some target → target.Keyed)
    {schema : Schema} (keyed : schema.Keyed) {hint : String} {state after : State}
    (reachable : Reachable context state) {type : ValueType}
    (ran : lower context schema hint state = (.ok type, after)) :
    ∃ again, lower context schema hint after = (.ok again, after) ∧
      (again = type ↔ ¬ ForgetsNull context schema hint state type again) := by
  have reachableAfter : Reachable context after := by
    have left : (Call.single schema hint).after context state = after := congrArg Prod.snd ran
    exact left ▸ reachable.call _
  obtain ⟨again, ranAgain, gives⟩ := lowerWithin_repeats components _ keyed reachable.tidy ran
    ⟨.refl after, reachableAfter.tidy, reachableAfter.ascending⟩
  refine ⟨again, ranAgain, fun same forgets => forgets.ne same, fun remembers => ?_⟩
  exact gives.resolve_right remembers

/-- A union that null is a branch of. -/
def sizeSchema : Schema := { oneOf := [.ofType "integer", .ofType "boolean", .ofType "null"] }

/-- The state once the union was lowered. -/
def sizeState : State := Call.after emptyContext {} (.single sizeSchema "size")

theorem sizeSchema_keyed : sizeSchema.Keyed := by
  have scalar (name : String) : (Schema.ofType name).Keyed :=
    Schema.keyed_iff.mpr ⟨⟨List.nodup_nil, nofun, nofun, rfl⟩, nofun⟩
  refine Schema.keyed_iff.mpr ⟨⟨List.nodup_nil, nofun, nofun, rfl⟩, fun part member => ?_⟩
  simp only [Schema.parts, sizeSchema, Option.toList, List.map_nil, List.flatMap_nil,
    List.nil_append, List.append_nil, List.mem_cons, List.not_mem_nil, or_false] at member
  rcases member with rfl | rfl | rfl <;> exact scalar _

theorem lower_again_size :
    lower emptyContext sizeSchema "size" sizeState = (.ok (.named "Size"), sizeState) ∧
      ForgetsNull emptyContext sizeSchema "size" {} (.optional (.named "Size"))
        (.named "Size") := by
  have ran : lower emptyContext sizeSchema "size" {} =
      (.ok (.optional (.named "Size")), sizeState) :=
    run_of_toOption (by decide +kernel)
  have components (name : String) (target : Schema)
      (found : emptyContext.spec.schema? name = some target) : target.Keyed := by
    cases found
  obtain ⟨again, ranAgain, exact⟩ := lower_again components sizeSchema_keyed .initial ran
  have given : (lower emptyContext sizeSchema "size" sizeState).1.toOption =
      some (.named "Size") := by decide +kernel
  rw [ranAgain] at given
  cases Option.some.inj given
  refine ⟨ranAgain, ?_⟩
  by_contra remembers
  cases exact.mpr remembers

/-- The same call does not always give the same type. -/
theorem lower_again_not_same :
    (lower emptyContext sizeSchema "size" {}).1.toOption = some (.optional (.named "Size")) ∧
      (lower emptyContext sizeSchema "size"
        (lower emptyContext sizeSchema "size" {}).2).1.toOption = some (.named "Size") := by
  decide +kernel

end ServiceForge.Lowering
