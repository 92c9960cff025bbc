/-
This file treats the lowering of schemas without references. What stands in an object is
not equal to it, however deep, so what the type of the object stands for while it is in
progress does not matter to what is lowered inside.
-/

import ServiceForge.Proofs.Lowering.Termination
import ServiceForge.Proofs.Schema.Depth

namespace ServiceForge.Lowering

open ServiceForge.OpenApi (Schema Spec)

/-! ### Schemas without references -/

/-- No reference stands in a schema. -/
def Unreferring (schema : Schema) : Prop := ∀ inner, schema.Holds inner → inner.reference = none

section Unreferring

variable {spec : Spec} {schema part whole : Schema}

theorem Unreferring.of_mem_parts (unreferring : Unreferring schema) (isPart : part ∈ schema.parts) :
    Unreferring part := (Schema.forall_holds_iff.mp unreferring).2 part isPart

theorem Unreferring.of_parts (own : schema.reference = none)
    (parts : ∀ part ∈ schema.parts, Unreferring part) : Unreferring schema :=
  Schema.forall_holds_iff.mpr ⟨own, parts⟩

theorem Unreferring.referenceName? (unreferring : Unreferring schema) :
    schema.referenceName? = none := by
  rw [Schema.referenceName?, unreferring schema .refl]
  rfl

theorem Unreferring.inline (unreferring : Unreferring schema) : Inline schema :=
  fun _ holds _ isPart => Unreferring.referenceName? fun other held =>
    unreferring other (holds.trans (.head (mem_parts_of_allOf isPart) held))

theorem Unreferring.of_merges (unreferring : Unreferring schema) (merges : Merges schema whole) :
    Unreferring whole := by
  intro inner holds
  rcases merges.holds holds with rfl | held
  · exact merges.reference.trans (unreferring schema .refl)
  · exact unreferring inner held

/-- What has no reference in it is lowered without the components. -/
theorem sealed_unreferring (spec : Spec) : Sealed spec Unreferring where
  inline unreferring := unreferring.inline
  part unreferring isPart := unreferring.of_mem_parts isPart
  whole unreferring merges := unreferring.of_merges merges
  component unreferring named _ := by cases unreferring.referenceName?.symm.trans named

end Unreferring

/-! ### Inside an object -/

/-- The type in progress under a name stands for the second schema instead of the first one. -/
def restating (name : String) (first second : Schema) : Restatement where
  origin other schema := if other = name then second else schema
  applies pending := List.lookup name pending = some first
  applies_cons _ applies new := by
    have apart := ne_of_mem_of_not_mem (OrderedMap.mem_keys_of_get? applies) new
    rw [List.lookup_cons, beq_eq_false_iff_ne.mpr apart]
    exact applies
  origin_new _ applies new := by
    refine if_neg fun same => new ?_
    rw [same]
    exact OrderedMap.mem_keys_of_get? applies

/-- What a schema is merged to is not deeper. -/
theorem Merges.reaches {schema whole : Schema} {depth : Nat} (merges : Merges schema whole)
    (reaches : whole.Reaches depth) : schema.Reaches depth := by
  cases reaches with
  | here => exact .here
  | inside isPart rest =>
    obtain ⟨outer, holds, inside⟩ := merges.inside _ isPart
    exact .of_holds holds (.inside inside rest)

section Restating

variable {name : String} {first second : Schema} {state after : State}

/-- Names that are not in progress stand for what they stand for. -/
theorem map_restating {pending : List (String × Schema)} (new : name ∉ OrderedMap.keys pending) :
    pending.map (fun entry => (entry.1, (restating name first second).origin entry.1 entry.2)) =
      pending := by
  have unchanged : ∀ entry ∈ pending,
      (entry.1, (restating name first second).origin entry.1 entry.2) = entry := by
    intro entry member
    have apart : entry.1 ≠ name := ne_of_mem_of_not_mem (List.mem_map_of_mem member) new
    exact congrArg (Prod.mk entry.1) (if_neg apart)
  exact (List.map_congr_left unchanged).trans (List.map_id pending)

theorem restating_beginType (new : name ∉ OrderedMap.keys state.inProgress) :
    (restating name first second).image (beginType name first state) =
      beginType name second state := by
  have own : (restating name first second).origin name first = second := if_pos rfl
  simp only [Restatement.image, beginType, List.map_cons, own, map_restating new]

/-- Once the type is complete, nothing tells what it stood for. -/
theorem restating_endType (new : name ∉ OrderedMap.keys state.inProgress)
    (kept : Extends (beginType name first state) after) :
    endType ((restating name first second).image after) = endType after := by
  have ended : after.inProgress.tail = state.inProgress := kept.endType.inProgress
  simp only [Restatement.image, endType, ← List.map_tail, ended, map_restating new]

end Restating

/-- A schema without references that two schemas are deeper than. -/
structure Beneath (first second schema : Schema) : Prop where
  unreferring : Unreferring schema
  first : first.Deeper schema
  second : second.Deeper schema

section Beneath

variable {context : Context} {first second schema : Schema} {name : String}

theorem sealed_beneath (spec : Spec) (first second : Schema) :
    Sealed spec (Beneath first second) where
  inline beneath := beneath.unreferring.inline
  part beneath isPart :=
    have shallower (depth : Nat) (reaches : Schema.Reaches _ depth) :=
      (Schema.Reaches.inside isPart reaches).shallower
    ⟨beneath.unreferring.of_mem_parts isPart, beneath.first.mono shallower,
      beneath.second.mono shallower⟩
  whole beneath merges :=
    ⟨beneath.unreferring.of_merges merges, beneath.first.mono fun _ => merges.reaches,
      beneath.second.mono fun _ => merges.reaches⟩
  component beneath named _ := by cases beneath.unreferring.referenceName?.symm.trans named

/-- Neither of two deeper schemas is equal to a schema. -/
theorem Beneath.overlooks (beneath : Beneath first second schema) :
    (restating name first second).Overlooks schema := by
  intro pending applies other origin found
  by_cases same : other = name
  · subst same
    cases Option.some.inj (applies.symm.trans found)
    show (if other = other then second else first).equal schema = first.equal schema
    rw [if_pos rfl, beneath.first.not_equal, beneath.second.not_equal]
  · show (if other = name then second else origin).equal schema = origin.equal schema
    rw [if_neg same]

/-- Schemas inside are lowered alike whichever of the two the type in progress stands for. -/
theorem Beneath.lower_alike (beneath : Beneath first second schema) (visiting : List String) :
    Alike (restating name first second) (lower context) (lower context) visiting schema :=
  fun hint => (sealed_beneath context.spec first second).lowerWithin_alike
    (fun _ inner => inner.overlooks) beneath (rank_lt_depthLimit context visiting schema)
    (rank_lt_depthLimit context visiting schema) hint

/-- The content of an object is lowered alike whichever of the two schemas its type stands for
meanwhile, and once it is complete nothing tells. -/
theorem within_restating (context : Context) {state : State}
    (beneath : ∀ inner ∈ second.parts, Beneath first second inner) (single : second.allOf = [])
    (new : name ∉ OrderedMap.keys state.inProgress) :
    within (beginType name second) endType (lowerContent context (lower context) second name)
        state =
      within (beginType name first) endType (lowerContent context (lower context) second name)
        state := by
  have progress : Progress (restating name first second) state.visiting
      (beginType name first state) := ⟨List.lookup_cons_self, rfl⟩
  have alike : ∀ inner ∈ second.parts, Alike (restating name first second) (lower context)
      (lower context) state.visiting inner :=
    fun inner isPart => (beneath inner isPart).lower_alike state.visiting
  have content := lowerContent_agrees alike single progress context name
  rw [within_run, within_run, ← restating_beginType new, content.same,
    restating_endType new content.kept]

end Beneath

end ServiceForge.Lowering
