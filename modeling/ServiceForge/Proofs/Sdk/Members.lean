/-
This file says which members the request of a module has: one for each parameter of the
path and of the query, and one for each property of the body that can be set. Each is
declared under its name in the source of the module.
-/

import ServiceForge.Proofs.Generation.Bindings
import ServiceForge.Proofs.Lowering.FieldNames
import ServiceForge.Proofs.Sdk.Variant
import ServiceForge.Sdk.Source

namespace ServiceForge.Sdk

open ServiceForge.Generation
open ServiceForge.Lowering (State fieldNames propertyNames lowerFields_names run_bind_eq_ok)
open ServiceForge.OpenApi (PlacedOperation Schema)
open ServiceForge.Source

/-- The fields of a body with their names and wire names. -/
def Body.members : Body → List (String × String)
  | .fields members => members.map fun field => (field.name, field.wireName)
  | _ => []

/-- The members of a request that stand for something of the API, with their names and wire
names. -/
def Context.members (context : Context) : List (String × String) :=
  context.memberBindings.map names ++ context.body.members

/-- A member is declared in the source of the request. -/
theorem declared_of_mem_members {context : Context} {entry : String × String}
    (member : entry ∈ context.members) :
    ∃ visibility type, "    " ++ visibility ++ entry.1 ++ ": " ++ type ++ "," ∈
      requestLines context := by
  unfold requestLines
  rcases List.mem_append.mp member with bound | inBody
  · obtain ⟨binding, held, rfl⟩ := List.mem_map.mp bound
    let type := context.types.render binding.type
    have line : "    " ++ "" ++ (names binding).1 ++ ": " ++ type ++ "," ∈
        forEach context.memberBindings (bindingMember context.types) :=
      List.mem_flatMap.mpr ⟨binding, held, by simp [bindingMember, names, type]⟩
    refine ⟨"", type, ?_⟩
    simp only [List.mem_append, line, true_or, or_true]
  · cases sent : context.body with
    | fields members =>
      rw [sent] at inBody
      obtain ⟨field, held, rfl⟩ := List.mem_map.mp inBody
      let type := context.types.render field.type
      have line : "    " ++ "pub(crate) " ++ field.name ++ ": " ++ type ++ "," ∈
          bodyMembers context.types (.fields members) :=
        List.mem_flatMap.mpr ⟨field, held, by simp [fieldMember, type, ← String.toList_inj]⟩
      refine ⟨"pub(crate) ", type, ?_⟩
      simp only [List.mem_append, line, true_or, or_true]
    | _ =>
      rw [sent] at inBody
      cases inBody

/-- The properties of a variant's body that the client library lets be set. -/
def settableNames (request : OperationRequest) (media : RequestMedia) (variant : Variant) :
    List String :=
  match media, variant.payload? request.resource.leaf with
  | .json _, some (schema, _) =>
    if hasFields schema then propertyNames (loweringContext request) schema else []
  | _, _ => []

theorem members_of_lowerBody {request : OperationRequest} {schema : Schema} {body : Body}
    {state after : State} (ran : lowerBody request schema state = (.ok body, after)) :
    body.members = fieldNames []
      (if hasFields schema then propertyNames (loweringContext request) schema else []) := by
  unfold lowerBody at ran
  by_cases object : hasFields schema = true
  · rw [if_pos object] at ran ⊢
    obtain ⟨fields, middle, lowered, returned⟩ := run_bind_eq_ok.mp ran
    cases returned
    exact lowerFields_names lowered
  rw [if_neg object] at ran ⊢
  by_cases free : (schema.type.isNone && schema.oneOf.isEmpty) = true
  · rw [if_pos free] at ran
    cases ran
    rfl
  · rw [if_neg free] at ran
    obtain ⟨type, middle, -, returned⟩ := run_bind_eq_ok.mp ran
    cases returned
    rfl

/-- The fields of a body are named after the properties that can be set. -/
theorem members_of_withBody {request : OperationRequest} {media : RequestMedia} {variant : Variant}
    {context result : Context} {state after : State} (empty : context.body = .empty)
    (ran : withBody request media variant context state = (.ok result, after)) :
    result.body.members = fieldNames [] (settableNames request media variant) := by
  unfold withBody at ran
  unfold settableNames
  cases media with
  | empty =>
    cases ran
    rw [empty]
    rfl
  | patch mediaType =>
    cases ran
    rfl
  | binary =>
    cases ran
    rfl
  | json schema =>
    simp only at ran ⊢
    cases payload : variant.payload? request.resource.leaf with
    | none =>
      rw [payload] at ran
      cases ran
      exact congrArg Body.members empty
    | some found =>
      rw [payload] at ran
      obtain ⟨body, middle, lowered, returned⟩ := run_bind_eq_ok.mp ran
      cases returned
      exact members_of_lowerBody lowered

/-- The fields of the request for a variant. -/
theorem Made.bodyMembers {request : OperationRequest} {placed : PlacedOperation}
    {media : RequestMedia} {variant : Variant} {context : Context}
    (made : Made request placed media variant context) :
    context.body.members = fieldNames [] (settableNames request media variant) := by
  obtain ⟨_, _, _, _, _, -, -, -, empty, sent, body⟩ := made.lowered
  rw [body]
  exact members_of_withBody empty sent

end ServiceForge.Sdk
