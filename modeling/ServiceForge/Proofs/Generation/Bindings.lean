/-
This file says what the bindings of an operation keep of its parameters: the name, the
wire name and the location. These do not depend on what the types of the parameters
are lowered to, so they are the same in whatever dialect the operation is lowered.
-/

import ServiceForge.Generation.Bindings
import ServiceForge.Proofs.Lowering.Reachable

namespace ServiceForge.Generation

open ServiceForge.Lowering (Binding Context Lower State isResourceId lowerParameter
  lowerParameter_run run_bind_eq_ok)
open ServiceForge.OpenApi (Location Parameter PlacedOperation)

/-- What is seen of the results of computations one after another, if it is known for each. -/
theorem run_mapM_view {α β γ : Type} {items : List α} {convert : α → Lower β} (view : β → γ)
    {give : α → γ} {state after : State} {results : List β}
    (each : ∀ item {state after result}, convert item state = (.ok result, after) →
      view result = give item)
    (ran : items.mapM convert state = (.ok results, after)) :
    results.map view = items.map give := by
  induction items generalizing state results with
  | nil =>
    cases ran
    rfl
  | cons item rest inductionHypothesis =>
    rw [List.mapM_cons] at ran
    obtain ⟨result, middle, first, ran⟩ := run_bind_eq_ok.mp ran
    obtain ⟨others, last, later, returned⟩ := run_bind_eq_ok.mp ran
    cases returned
    rw [List.map_cons, List.map_cons, each item first, inductionHypothesis later]

/-! ### Names of bindings -/

/-- The name of the binding of a parameter. -/
def bindingName (request : OperationRequest) (placed : PlacedOperation) (parameter : Parameter) :
    String :=
  if isResourceId parameter (scope request placed) then "id" else Naming.fieldName parameter.name

/-- The name and the wire name of a binding. -/
def names (binding : Binding) : String × String := (binding.name, binding.wireName)

variable {context : Context} {request : OperationRequest} {placed : PlacedOperation}
  {locations : List Location} {location : Location} {state after : State} {bindings : List Binding}

/-- A parameter is bound by its name, in its location. -/
theorem lowerParameter_names (parameter : Parameter) {binding : Binding}
    (ran : lowerParameter context parameter (scope request placed) state =
      (.ok binding, after)) :
    (names binding, binding.location) =
      ((bindingName request placed parameter, parameter.name), parameter.location) := by
  rw [lowerParameter_run] at ran
  split at ran
  · cases ran
  · cases ran
    rfl

/-- The bindings of a location are those of the parameters there. -/
theorem lowerBindings_names (listed : location ∈ locations)
    (ran : lowerBindings context request placed locations state = (.ok bindings, after)) :
    (bindings.filter (·.location = location)).map names =
      (placed.parameters.filter (·.location = location)).map fun parameter =>
        (bindingName request placed parameter, parameter.name) := by
  have whole := run_mapM_view (fun binding : Binding => (names binding, binding.location))
    (fun parameter => lowerParameter_names parameter) ran
  have kept := congrArg (List.filter fun entry => entry.2 = location) whole
  have chosen : ∀ parameter ∈ placed.parameters,
      (decide (parameter.location = location) && locations.contains parameter.location) =
        decide (parameter.location = location) := by
    intro parameter _
    by_cases here : parameter.location = location
    · simp [here, listed]
    · simp [here]
  rw [List.filter_map, List.filter_map, List.filter_filter] at kept
  simp only [Function.comp_def] at kept
  rw [List.filter_congr chosen] at kept
  simpa only [List.map_map, Function.comp_def] using congrArg (List.map Prod.fst) kept

theorem mem_inPathOrder {path : String} {binding : Binding} :
    binding ∈ inPathOrder path bindings ↔ binding ∈ bindings := List.mem_mergeSort

end ServiceForge.Generation
