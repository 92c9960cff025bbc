/-
This file proves that the lowering never says that an operation is missing: it fails at
components, types and schemas without end alone. What may say so is composed of it and
of the search for operations, so a failure of this kind names an operation that was
searched for.
-/

import ServiceForge.Proofs.Except
import ServiceForge.Proofs.Lowering.Reachable

namespace ServiceForge

/-! ### Results -/

/-- A result says of no other operation than the given ones that it is missing. -/
def MissesOnly {α : Type} (missing : String → Prop) (result : Except GenerationError α) : Prop :=
  ∀ operation, result = .error (.operationNotFound operation) → missing operation

namespace MissesOnly

variable {α β : Type} {missing more : String → Prop} {result : Except GenerationError α}

theorem ok (value : α) : MissesOnly missing (.ok value) := nofun

/-- A failure for another reason. -/
theorem error {reason : GenerationError}
    (other : ∀ operation, reason ≠ .operationNotFound operation) :
    MissesOnly missing (.error reason : Except GenerationError α) :=
  fun operation same => absurd (Except.error.inj same) (other operation)

/-- A failure that is passed on. -/
theorem pass {reason : GenerationError}
    (misses : MissesOnly missing (.error reason : Except GenerationError α)) :
    MissesOnly missing (.error reason : Except GenerationError β) :=
  fun operation same => misses operation (congrArg Except.error (Except.error.inj same))

/-- Results that follow one another miss what one of them misses. -/
theorem bind {next : α → Except GenerationError β} (first : MissesOnly missing result)
    (further : ∀ value, result = .ok value → MissesOnly missing (next value)) :
    MissesOnly missing (result >>= next) := by
  cases result with
  | error reason => exact first.pass
  | ok value => exact further value rfl

theorem map {convert : α → β} (misses : MissesOnly missing result) :
    MissesOnly missing (result.map convert) := by
  cases result with
  | error reason => exact misses.pass
  | ok value => exact ok (convert value)

/-- The results of a list miss what one of them misses. -/
theorem mapM {items : List α} {convert : α → Except GenerationError β}
    (each : ∀ item ∈ items, MissesOnly missing (convert item)) :
    MissesOnly missing (items.mapM convert) := by
  induction items with
  | nil => exact ok []
  | cons item rest inductionHypothesis =>
    obtain ⟨first, others⟩ := List.forall_mem_cons.mp each
    rw [List.mapM_cons]
    exact first.bind fun _ _ => (inductionHypothesis others).bind fun _ _ => ok _

end MissesOnly

namespace Lowering

open ServiceForge.OpenApi (Parameter Schema Spec)

variable {missing : String → Prop}

/-! ### Merging -/

theorem resolvePart_missesOnly (spec : Spec) (part : Schema) :
    MissesOnly missing (resolvePart spec part) := by
  unfold resolvePart
  cases part.referenceName? with
  | none => exact .ok part
  | some name =>
    simp only
    cases spec.schema? name with
    | none => exact .error nofun
    | some schema => exact .ok schema

/-- Merging parts to any depth misses no operation. -/
theorem mergeWithin_missesOnly (spec : Spec) (limit : Nat) (schema : Schema) :
    MissesOnly missing (mergeWithin spec limit schema) := by
  induction limit generalizing schema with
  | zero => exact .error nofun
  | succ limit inductionHypothesis =>
    refine (MissesOnly.mapM fun part _ => ?_).bind fun parts _ => .ok _
    refine (resolvePart_missesOnly spec part).bind fun target _ => ?_
    split
    · exact .ok target
    · exact inductionHypothesis target

/-- Merging parts misses no operation. -/
theorem mergeAllOf_missesOnly (spec : Spec) (schema : Schema) :
    MissesOnly missing (mergeAllOf spec schema) := mergeWithin_missesOnly spec _ schema

theorem wholeOf_missesOnly (context : Context) (schema : Schema) :
    MissesOnly missing (wholeOf context schema) := by
  unfold wholeOf
  split
  · exact .ok schema
  · exact mergeAllOf_missesOnly context.spec schema

/-! ### Schemas -/

/-- A computation that says of no other operation than the given ones that it is missing. -/
def RunMissesOnly {α : Type} (missing : String → Prop) (action : Lower α) : Prop :=
  ∀ ⦃state after : State⦄ ⦃result : Except GenerationError α⦄,
    action state = (result, after) → MissesOnly missing result

/-- What is asked of a way to lower the schemas inside a schema. -/
def Misses (missing : String → Prop) (recur : Recur) : Prop :=
  ∀ schema hint, RunMissesOnly missing (recur schema hint)

namespace Misses

variable {context : Context} {recur : Recur} {schema : Schema} {hint name : String}
  {state after : State} (misses : Misses missing recur)

include misses

/-- Lowerings one after another miss no operation. -/
theorem calls {calls : List (Schema × String)} {types : Except GenerationError (List ValueType)}
    (called : Calls recur calls state types after) : MissesOnly missing types := by
  induction called with
  | nil => exact .ok _
  | cons => exact .ok _
  | here first => exact (misses _ _ first).pass
  | later _ _ inductionHypothesis => exact inductionHypothesis

theorem extra {result : Except GenerationError (Option ValueType)}
    (ran : Extra recur schema name state result after) : MissesOnly missing result := by
  cases ran with
  | failed _ inside => exact (misses _ _ inside).pass
  | _ => exact .ok _

/-- A schema without references and parts misses no operation. -/
theorem plain {result : Except GenerationError ValueType}
    (ran : Plain context recur schema hint state result after) : MissesOnly missing result := by
  cases ran with
  | unknown => exact .error nofun
  | innerFailed _ inside => exact misses _ _ inside
  | structureFailed _ _ _ fields further failed =>
    rcases failed with rfl | ⟨-, rfl⟩
    · exact (misses.calls fields).pass
    · exact (misses.extra further).pass
  | unionFailed _ _ _ variants => exact (misses.calls variants).pass
  | _ => exact .ok _

/-- One step misses no operation if what it asks for does not. -/
theorem step {result : Except GenerationError ValueType}
    (ran : Step context recur schema hint state result after) : MissesOnly missing result := by
  cases ran with
  | missing => exact .error nofun
  | component _ _ _ _ inside => exact misses _ _ inside
  | unmerged _ _ failed =>
    have merged : MissesOnly missing (mergeAllOf context.spec schema) :=
      mergeAllOf_missesOnly context.spec schema
    rw [failed] at merged
    exact merged.pass
  | merged _ _ _ inside => exact misses _ _ inside
  | plainFailed _ _ inside => exact misses.plain inside
  | _ => exact .ok _

end Misses

/-- Lowering misses no operation. -/
theorem lower_misses (context : Context) : Misses missing (lower context) := by
  have within (limit : Nat) : Misses missing (lowerWithin context limit) := by
    refine lowerWithin_induction (P := Misses missing) ?_ ?_ limit
    · intro schema hint state after result ran
      cases ran
      exact .error nofun
    · intro limit misses schema hint state after result ran
      exact misses.step (lowerStep_step ran)
  exact fun schema hint => within _ schema hint

/-! ### Computations -/

namespace RunMissesOnly

variable {α β : Type} {action : Lower α}

theorem pure (value : α) : RunMissesOnly missing (Pure.pure value : Lower α) := by
  intro state after result ran
  cases ran
  exact .ok value

theorem fail {reason : GenerationError}
    (other : ∀ operation, reason ≠ .operationNotFound operation) :
    RunMissesOnly missing (throw reason : Lower α) := by
  intro state after result ran
  cases ran
  exact .error other

/-- Actions that follow one another miss what one of them misses. -/
theorem bind {next : α → Lower β} (first : RunMissesOnly missing action)
    (further : ∀ value, RunMissesOnly missing (next value)) :
    RunMissesOnly missing (action >>= next) := by
  intro state after result ran
  rcases begun : action state with ⟨reason | value, middle⟩
  · cases (bind_run_of_error begun).symm.trans ran
    exact (first begun).pass
  · exact further value ((bind_run_of_ok begun).symm.trans ran)

theorem mapM {items : List α} {convert : α → Lower β}
    (each : ∀ item, RunMissesOnly missing (convert item)) :
    RunMissesOnly missing (items.mapM convert) := by
  induction items with
  | nil => exact pure []
  | cons item rest inductionHypothesis =>
    rw [List.mapM_cons]
    exact (each item).bind fun _ => inductionHypothesis.bind fun _ => pure _

theorem addImport (path : String) : RunMissesOnly missing (addImport path) := by
  intro state after result ran
  cases ran
  exact .ok ()

theorem lower (context : Context) (schema : Schema) (hint : String) :
    RunMissesOnly missing (lower context schema hint) := lower_misses context schema hint

/-- Lowering fields misses no operation. -/
theorem lowerFields (context : Context) (schema : Schema) (owner : String) :
    RunMissesOnly missing (lowerFields context schema owner) := by
  intro state after result ran
  rcases lowerFields_calls ran with ⟨reason, failed, rfl, -⟩ | ⟨whole, types, -, called, rfl⟩
  · have merged : MissesOnly missing (wholeOf context schema) := wholeOf_missesOnly context schema
    rw [failed] at merged
    exact merged.pass
  · exact (Misses.calls (lower_misses context) called).map

/-- Lowering a parameter misses no operation. -/
theorem lowerParameter (context : Context) (parameter : Parameter) (scope : Scope) :
    RunMissesOnly missing (lowerParameter context parameter scope) := by
  intro state after result ran
  rw [lowerParameter_run] at ran
  rcases lowered : Lowering.lower context (parameterSchema parameter) parameter.name state with
    ⟨reason | type, middle⟩
  · rw [lowered] at ran
    cases ran
    exact MissesOnly.pass (lower context _ _ lowered)
  · rw [lowered] at ran
    cases ran
    exact .ok _

end RunMissesOnly

end Lowering

end ServiceForge
