/-
This file proves that the lowering finds the components that it looks up, if every
local reference in the schemas that it starts from and in the components names one.
Whatever is lowered or merged on the way is a part of these schemas or was merged from
such parts, so no other reference is met.
-/

import ServiceForge.OpenApi.Reference
import ServiceForge.Proofs.Lowering.Merging
import ServiceForge.Proofs.Lowering.Reachable

namespace ServiceForge.Lowering

open ServiceForge.OpenApi (Schema Spec)
open ServiceForge.OpenApi.Reference (isLocal)

/-! ### References that name components -/

/-- A reference names a component schema of a document. -/
def NamesComponent (spec : Spec) (reference : String) : Prop :=
  ∃ name ∈ OrderedMap.keys spec.components.schemas,
    Text.afterStart? Schema.componentStart reference = some name

/-- Every local reference in a schema names a component schema. -/
def Findable (spec : Spec) (schema : Schema) : Prop :=
  ∀ reference, schema.Refers reference → isLocal reference = true → NamesComponent spec reference

theorem isLocal_of_afterStart? {reference name : String}
    (named : Text.afterStart? Schema.componentStart reference = some name) :
    isLocal reference = true := by
  unfold Text.afterStart? at named
  split at named
  · next starts =>
    simp only [Text.startsWith, List.isPrefixOf_iff_prefix, isLocal] at starts ⊢
    exact List.IsPrefix.trans (by decide) starts
  · cases named

section Findable

variable {spec : Spec} {schema part : Schema}

/-- A schema is findable if its own reference names a component and all its parts are findable. -/
theorem findable_iff : Findable spec schema ↔
    (∀ reference, schema.reference = some reference → isLocal reference = true →
      NamesComponent spec reference) ∧ ∀ part ∈ schema.parts, Findable spec part := by
  constructor
  · intro findable
    exact ⟨fun reference own => findable reference (Schema.refers_iff.mpr (Or.inl own)),
      fun part isPart reference refers =>
        findable reference (Schema.refers_iff.mpr (Or.inr ⟨part, isPart, refers⟩))⟩
  · rintro ⟨own, parts⟩ reference refers
    rcases Schema.refers_iff.mp refers with isOwn | ⟨part, isPart, inside⟩
    · exact own reference isOwn
    · exact parts part isPart reference inside

theorem Findable.of_mem_parts (findable : Findable spec schema) (isPart : part ∈ schema.parts) :
    Findable spec part := (findable_iff.mp findable).2 part isPart

theorem Findable.of_subset (findable : Findable spec schema) (own : part.reference = schema.reference)
    (inside : part.parts ⊆ schema.parts) : Findable spec part :=
  findable_iff.mpr ⟨fun reference isOwn => (findable_iff.mp findable).1 reference (own ▸ isOwn),
    fun _ isPart => findable.of_mem_parts (inside isPart)⟩

/-- The component that a findable schema refers to is there. -/
theorem Findable.isSome_schema? (findable : Findable spec schema) {name : String}
    (named : schema.referenceName? = some name) : (spec.schema? name).isSome := by
  obtain ⟨reference, own, named⟩ := Option.bind_eq_some_iff.mp named
  obtain ⟨other, isKey, same⟩ := (findable_iff.mp findable).1 reference own
    (isLocal_of_afterStart? named)
  cases named.symm.trans same
  exact (OrderedMap.isSome_get? _ _).mpr isKey

end Findable

/-! ### Results -/

/-- A result has a property, or is a failure for another reason than a missing component. -/
def Finds {α : Type} (P : α → Prop) : Except GenerationError α → Prop
  | .ok value => P value
  | .error error => ∀ name, error ≠ .componentNotFound name

section Finds

variable {α β : Type} {P : α → Prop} {Q : β → Prop}

theorem Finds.bind {first : Except GenerationError α} {next : α → Except GenerationError β}
    (finds : Finds P first) (further : ∀ value, P value → Finds Q (next value)) :
    Finds Q (first >>= next) := by
  cases first with
  | error error => exact finds
  | ok value => exact further value finds

theorem Finds.mapM {items : List α} {convert : α → Except GenerationError β}
    (each : ∀ item ∈ items, Finds Q (convert item)) :
    Finds (fun results => ∀ result ∈ results, Q result) (items.mapM convert) := by
  induction items with
  | nil => exact List.forall_mem_nil _
  | cons item rest inductionHypothesis =>
    obtain ⟨first, others⟩ := List.forall_mem_cons.mp each
    rw [List.mapM_cons]
    refine first.bind fun result found => (inductionHypothesis others).bind fun results all => ?_
    exact List.forall_mem_cons.mpr ⟨found, all⟩

theorem Finds.map {result : Except GenerationError α} (finds : Finds P result) {convert : α → β}
    (keeps : ∀ value, P value → Q (convert value)) : Finds Q (result.map convert) := by
  cases result with
  | error error => exact finds
  | ok value => exact keeps value finds

end Finds

/-! ### Merging -/

section Merging

variable {spec : Spec} {schema merged part : Schema}

/-- Merging findable schemas gives a findable schema. -/
theorem Findable.mergePart (findable : Findable spec merged) (added : Findable spec part) :
    Findable spec (mergePart merged part) := by
  refine findable_iff.mpr ⟨(findable_iff.mp findable).1, fun inner member => ?_⟩
  rcases mem_parts_mergePart member with own | isAdded
  · exact findable.of_mem_parts own
  · exact added.of_mem_parts isAdded

/-- Merging findable parts into a findable schema gives a findable schema. -/
theorem Findable.mergeParts (findable : Findable spec schema) {parts : List Schema}
    (each : ∀ part ∈ parts, Findable spec part) : Findable spec (mergeParts schema parts) := by
  have folded : ∀ start, Findable spec start → Findable spec (parts.foldl Lowering.mergePart start) := by
    induction parts with
    | nil => exact fun _ holds => holds
    | cons part rest inductionHypothesis =>
      obtain ⟨first, others⟩ := List.forall_mem_cons.mp each
      exact fun start holds => inductionHypothesis others _ (holds.mergePart first)
  have own : Findable spec { schema with allOf := [] } :=
    findable.of_subset rfl fun part isPart => by
      rw [Schema.parts, List.append_nil] at isPart
      exact List.mem_append_left _ isPart
  unfold Lowering.mergeParts completeType
  split
  · exact (folded _ own).of_subset rfl (List.Subset.refl _)
  · exact folded _ own

variable (complete : ∀ name schema, spec.schema? name = some schema → Findable spec schema)

include complete

/-- A findable part is found, and what is found is findable. -/
theorem finds_resolvePart (findable : Findable spec part) :
    Finds (Findable spec) (resolvePart spec part) := by
  unfold resolvePart
  cases named : part.referenceName? with
  | none => exact findable
  | some name =>
    obtain ⟨target, found⟩ := Option.isSome_iff_exists.mp (findable.isSome_schema? named)
    simp only [found]
    exact complete name target found

/-- The parts of a findable schema are merged to any depth without a component missing. -/
theorem finds_mergeWithin (limit : Nat) (findable : Findable spec schema) :
    Finds (Findable spec) (mergeWithin spec limit schema) := by
  induction limit generalizing schema with
  | zero => exact nofun
  | succ limit inductionHypothesis =>
    refine (Finds.mapM fun part isPart => ?_).bind fun parts each => findable.mergeParts each
    have findablePart : Findable spec part := findable.of_mem_parts
      (Schema.mem_parts.mpr (Or.inr (Or.inr (Or.inr (Or.inr (Or.inr isPart))))))
    refine (finds_resolvePart complete findablePart).bind fun target findableTarget => ?_
    split
    · exact findableTarget
    · exact inductionHypothesis findableTarget

/-- The parts of a findable schema are merged without a component missing. -/
theorem finds_mergeAllOf (findable : Findable spec schema) :
    Finds (Findable spec) (mergeAllOf spec schema) := finds_mergeWithin complete _ findable

end Merging

/-! ### Schemas inside a schema -/

section Inside

variable {context : Context} {schema part : Schema}

theorem mem_parts_of_nonNullBranches (member : part ∈ schema.nonNullBranches) :
    part ∈ schema.parts := by
  have isBranch : part ∈ schema.branches := (List.mem_filter.mp member).1
  rw [Schema.mem_parts]
  unfold Schema.branches at isBranch
  split at isBranch
  · exact Or.inr (Or.inr (Or.inr (Or.inr (Or.inl isBranch))))
  · exact Or.inr (Or.inr (Or.inr (Or.inl isBranch)))

/-- What a schema is lowered through is one of its parts. -/
theorem Inner.mem_parts {hint partHint : String} {wrap : ValueType → ValueType}
    {paths : List String} (inner : Inner context schema hint part partHint wrap paths) :
    part ∈ schema.parts := by
  cases inner with
  | branch _ only => exact mem_parts_of_nonNullBranches (only ▸ List.mem_cons_self)
  | items _ _ isItems => exact Schema.mem_parts.mpr (Or.inl isItems)
  | values _ _ _ isEach => exact Schema.mem_parts.mpr (Or.inr (Or.inr (Or.inl isEach)))

/-- The properties that are lowered are parts of their schema. -/
theorem mem_parts_of_propertyCalls {owner : String} {call : Schema × String}
    (member : call ∈ propertyCalls owner (settable context schema.properties)) :
    call.1 ∈ schema.parts := by
  obtain ⟨property, isSettable, rfl⟩ := List.mem_map.mp member
  exact Schema.mem_parts.mpr
    (Or.inr (Or.inl ⟨property, (List.mem_filter.mp isSettable).1, rfl⟩))

/-- The branches that are lowered are parts of their schema. -/
theorem mem_parts_of_variantCalls {name : String} {call : Schema × String}
    (member : call ∈ variantCalls schema name) : call.1 ∈ schema.parts := by
  refine mem_parts_of_nonNullBranches ?_
  rw [← variantCalls_schemas schema name]
  exact List.mem_map_of_mem member

end Inside

/-! ### Lowering -/

/-- What is asked of a way to lower the schemas inside a schema. -/
def Finding (spec : Spec) (recur : Recur) : Prop :=
  ∀ {schema : Schema} {hint : String} {state after : State}
    {result : Except GenerationError ValueType},
    Findable spec schema → recur schema hint state = (result, after) → Finds (fun _ => True) result

section Finding

variable {context : Context} {recur : Recur} {schema : Schema} {hint name : String}
  {state after : State} (finding : Finding context.spec recur)

include finding

/-- Lowerings of findable schemas one after another miss no component. -/
theorem Finding.calls {calls : List (Schema × String)}
    {types : Except GenerationError (List ValueType)}
    (findable : ∀ call ∈ calls, Findable context.spec call.1)
    (ran : Calls recur calls state types after) : Finds (fun _ => True) types := by
  induction ran with
  | nil => trivial
  | cons => trivial
  | here first => exact finding (findable _ List.mem_cons_self) first
  | later _ _ inductionHypothesis => exact inductionHypothesis (List.forall_mem_cons.mp findable).2

theorem Finding.extra {result : Except GenerationError (Option ValueType)}
    (findable : Findable context.spec schema) (ran : Extra recur schema name state result after) :
    Finds (fun _ => True) result := by
  cases ran with
  | failed further inside =>
    exact finding (findable.of_mem_parts
      (Schema.mem_parts.mpr (Or.inr (Or.inr (Or.inl further))))) inside
  | _ => trivial

/-- A findable schema without references and parts misses no component. -/
theorem Finding.plain {result : Except GenerationError ValueType}
    (findable : Findable context.spec schema)
    (ran : Plain context recur schema hint state result after) : Finds (fun _ => True) result := by
  cases ran with
  | unknown => exact nofun
  | innerFailed isInner inside => exact finding (findable.of_mem_parts isInner.mem_parts) inside
  | structureFailed _ _ _ fields further failed =>
    rcases failed with rfl | ⟨-, rfl⟩
    · exact finding.calls (fun _ isCall =>
        findable.of_mem_parts (mem_parts_of_propertyCalls isCall)) fields
    · exact finding.extra findable further
  | unionFailed _ _ _ variants =>
    exact finding.calls (fun _ isCall =>
      findable.of_mem_parts (mem_parts_of_variantCalls isCall)) variants
  | _ => trivial

/-- One step of a findable schema misses no component if what it asks for does not. -/
theorem Finding.step
    (complete : ∀ name schema, context.spec.schema? name = some schema →
      Findable context.spec schema)
    {result : Except GenerationError ValueType} (findable : Findable context.spec schema)
    (ran : Step context recur schema hint state result after) : Finds (fun _ => True) result := by
  cases ran with
  | missing named absent =>
    have present := findable.isSome_schema? named
    rw [absent] at present
    cases present
  | component _ _ _ found inside => exact finding (complete _ _ found) inside
  | unmerged _ _ failed =>
    have merged := finds_mergeAllOf complete findable
    rwa [failed] at merged
  | merged _ _ merged inside =>
    have findableWhole := finds_mergeAllOf complete findable
    rw [merged] at findableWhole
    exact finding findableWhole inside
  | plainFailed _ _ inside => exact finding.plain findable inside
  | _ => trivial

end Finding

section Lower

variable {context : Context}
  (complete : ∀ name schema, context.spec.schema? name = some schema →
    Findable context.spec schema)

include complete

/-- Lowering misses no component of findable schemas. -/
theorem lower_finding : Finding context.spec (lower context) := by
  have within (limit : Nat) : Finding context.spec (lowerWithin context limit) := by
    refine lowerWithin_induction (P := fun recur => Finding context.spec recur) ?_ ?_ limit
    · intro schema hint state after result _ ran
      cases ran
      exact nofun
    · intro limit finding schema hint state after result findable ran
      exact finding.step complete findable (lowerStep_step ran)
  intro schema hint state after result findable ran
  exact within _ findable ran

/-- The fields of a findable schema are lowered without missing a component. -/
theorem lowerFields_finds {schema : Schema} {owner : String} {state after : State}
    {result : Except GenerationError (List Field)} (findable : Findable context.spec schema)
    (ran : lowerFields context schema owner state = (result, after)) :
    Finds (fun _ => True) result := by
  have merged : Finds (Findable context.spec) (wholeOf context schema) := by
    unfold wholeOf
    split
    · exact findable
    · exact finds_mergeAllOf complete findable
  rcases lowerFields_calls ran with ⟨error, failed, rfl, -⟩ | ⟨whole, types, same, called, rfl⟩
  · rwa [failed] at merged
  · rw [same] at merged
    have finds : Finds (fun _ => True) types := Finding.calls (lower_finding complete)
      (fun _ isCall => Findable.of_mem_parts merged (mem_parts_of_propertyCalls isCall)) called
    exact finds.map fun _ _ => trivial

end Lower

/-- A reference to a component that is not there is lowered to a failure, if no type of its name is
in progress. -/
theorem lower_missing {context : Context} {schema : Schema} {hint name : String} {state : State}
    (named : schema.referenceName? = some name) (absent : context.spec.schema? name = none)
    (closed : name ∉ state.visiting)
    (free : state.isInProgress (Naming.typeName name) = false) :
    lower context schema hint state = (.error (.componentNotFound name), state) := by
  obtain ⟨limit, positive⟩ : ∃ limit, depthLimit context schema = limit + 1 :=
    Nat.exists_eq_succ_of_ne_zero (Nat.mul_ne_zero (Nat.succ_ne_zero _) (Nat.succ_ne_zero _))
  rw [lower, positive, lowerWithin]
  unfold lowerStep
  simp only [named]
  unfold lowerComponent
  rw [bind_run_of_ok (get_run state), if_neg (by simp [closed, free]), absent]
  rfl

end ServiceForge.Lowering
