/-
This file says which variants a union of actions has: one for each branch, or only the
one that is named when an operation is given a name. The names of modules tell the
actions apart. The version of an operation plays no part in what variants it has.
-/

import Mathlib.Data.List.Forall2
import Mathlib.Data.List.Nodup
import ServiceForge.Generation.Variant

namespace ServiceForge.Generation

open ServiceForge.OpenApi (Schema)

/-! ### Lists whose members have keys -/

section Keys

variable {α β κ : Type} {members : List α} {key : α → κ} {member : α}

/-- If all members but one give nothing, the list gives what that one gives. -/
theorem flatMap_of_unique {give : α → List β} (distinct : (members.map key).Nodup)
    (inside : member ∈ members)
    (others : ∀ other ∈ members, key other ≠ key member → give other = []) :
    members.flatMap give = give member := by
  induction members with
  | nil => cases inside
  | cons first rest inductionHypothesis =>
    obtain ⟨new, distinct⟩ := List.nodup_cons.mp distinct
    rw [List.flatMap_cons]
    rcases List.mem_cons.mp inside with rfl | later
    · have none : rest.flatMap give = [] := by
        refine List.flatMap_eq_nil_iff.mpr fun other held => ?_
        refine others other (List.mem_cons_of_mem _ held) fun same => new ?_
        exact same ▸ List.mem_map_of_mem held
      rw [none, List.append_nil]
    · have apart : key first ≠ key member := fun same =>
        new (same ▸ List.mem_map_of_mem later)
      rw [others first List.mem_cons_self apart, List.nil_append]
      exact inductionHypothesis distinct later fun other held =>
        others other (List.mem_cons_of_mem _ held)

theorem filterMap_of_unique {give : α → Option β} {value : β} (distinct : (members.map key).Nodup)
    (inside : member ∈ members) (given : give member = some value)
    (others : ∀ other ∈ members, key other ≠ key member → give other = none) :
    members.filterMap give = [value] := by
  rw [List.filterMap_eq_flatMap_toList, flatMap_of_unique distinct inside, given]
  · rfl
  · intro other held apart
    rw [others other held apart]
    rfl

end Keys

namespace Variant

/-! ### Actions -/

/-- The name of the action of a branch that has one. -/
def actionOf (branch : Schema) : String := (actionName? branch).getD ""

/-- The variant of a branch with an action. -/
def ofBranchAction (moduleName : String) (version : Option String) (branch : Schema) : Variant where
  moduleName
  body := some branch
  version := (branch.annotation? "min-ver").or version
  action := some (actionOf branch)

/-- Whether a body is a union of several actions. -/
structure IsActions (schema : Schema) : Prop where
  several : 2 ≤ schema.nonNullBranches.length
  discriminator : schema.annotation? "discriminator" = some "action"
  named : ∀ branch ∈ schema.nonNullBranches, (actionName? branch).isSome = true

theorem payload?_congr {first second : Variant} (body : first.body = second.body)
    (action : first.action = second.action) (leaf : String) :
    first.payload? leaf = second.payload? leaf := by
  unfold payload?
  rw [body, action]

variable {schema : Schema}

theorem all_of_isActions (actions : IsActions schema) (base : String)
    (wanted version : Option String) :
    all (some schema) base wanted version =
      schema.nonNullBranches.filterMap (ofAction? base wanted version) := by
  have several : ¬ schema.nonNullBranches.length < 2 := Nat.not_lt.mpr actions.several
  simp only [all, if_neg several, if_pos actions.discriminator]

/-- Without a name each branch has a variant. -/
theorem all_actions (actions : IsActions schema) (base : String) (version : Option String) :
    all (some schema) base none version =
      schema.nonNullBranches.map fun branch =>
        ofBranchAction (Naming.moduleName (actionOf branch)) version branch := by
  rw [all_of_isActions actions, ← List.filterMap_eq_map']
  refine List.filterMap_congr fun branch member => ?_
  obtain ⟨action, named⟩ := Option.isSome_iff_exists.mp (actions.named branch member)
  simp [ofAction?, named, ofBranchAction, actionOf]

/-- With the name of one branch only that branch has a variant, if no other is named alike. -/
theorem all_action (actions : IsActions schema)
    (distinct : (schema.nonNullBranches.map fun branch =>
      Naming.moduleName (actionOf branch)).Nodup)
    {branch : Schema} (member : branch ∈ schema.nonNullBranches) (base : String)
    (version : Option String) :
    all (some schema) base (some (actionOf branch)) version =
      [ofBranchAction base version branch] := by
  rw [all_of_isActions actions]
  refine filterMap_of_unique distinct member ?_ fun other held apart => ?_
  · obtain ⟨action, named⟩ := Option.isSome_iff_exists.mp (actions.named branch member)
    simp [ofAction?, named, ofBranchAction, actionOf]
  · obtain ⟨action, named⟩ := Option.isSome_iff_exists.mp (actions.named other held)
    have different : Naming.moduleName (actionOf branch) ≠ Naming.moduleName action := by
      intro same
      refine apart ?_
      rw [same]
      simp [actionOf, named]
    simp [ofAction?, named, different]

/-! ### Versions -/

/-- Whether two variants differ in their versions at most. -/
structure SameForm (first second : Variant) : Prop where
  moduleName : second.moduleName = first.moduleName
  body : second.body = first.body
  action : second.action = first.action

theorem SameForm.refl (variant : Variant) : SameForm variant variant := ⟨rfl, rfl, rfl⟩

/-- A branch has a variant for its action with every version or with none. -/
theorem ofAction?_sameForm (base : String) (wanted first second : Option String) (branch : Schema) :
    Option.Rel SameForm (ofAction? base wanted first branch)
      (ofAction? base wanted second branch) := by
  unfold ofAction?
  cases actionName? branch with
  | none => exact .none
  | some action =>
    cases wanted with
    | none => exact .some ⟨rfl, rfl, rfl⟩
    | some name =>
      simp only [Option.bind_eq_bind, Option.bind_some]
      split
      · exact .some ⟨rfl, rfl, rfl⟩
      · exact .none

/-- An operation has the same variants whatever its version is. -/
theorem all_sameForm (body : Option Schema) (base : String) (operationName : Option String)
    (first second : Option String) :
    List.Forall₂ SameForm (all body base operationName first)
      (all body base operationName second) := by
  cases body with
  | none => exact .cons ⟨rfl, rfl, rfl⟩ .nil
  | some schema =>
    unfold all
    simp only
    split
    · exact .cons ⟨rfl, rfl, rfl⟩ .nil
    split
    · refine List.rel_filterMap (R := Eq) ?_ (List.forall₂_refl _)
      rintro branch _ rfl
      exact ofAction?_sameForm base operationName first second branch
    · exact List.forall₂_same.mpr fun variant _ => SameForm.refl variant

end Variant

end ServiceForge.Generation
