/-
This file says what the contexts of an operation hold, which are that of its lookup or those
of its variants. The context of a variant holds the place of the operation, the name of the
variant, the parameters in their locations, and the body that the payload of the variant is
lowered to; the version, the keys and the response change none of it. That of a lookup holds
the parameters of the path in their order, the one that is looked up by, and neither a query
nor a body.
-/

import ServiceForge.Proofs.Except
import ServiceForge.Proofs.Generation.Bindings
import ServiceForge.Proofs.Lowering.Calls
import ServiceForge.Proofs.Sdk.Context
import ServiceForge.Sdk.Context

namespace ServiceForge.Sdk

open ServiceForge.Generation
open ServiceForge.Lowering (Binding Lower State run_bind_eq_ok)
open ServiceForge.OpenApi (Parameter PlacedOperation)

/-! ### Parts of a context -/

/-- What a finished lowering completes. -/
theorem complete_eq_ok {request : OperationRequest} {lowering : Lower Context} {context : Context}
    (completed : complete request lowering = .ok context) :
    ∃ gathered state, lowering {} = (.ok gathered, state) ∧
      context = { gathered with
        imports := state.imports
        types := .ofState (loweringContext request) state } := by
  unfold complete at completed
  rcases ran : lowering {} with ⟨failure | gathered, state⟩
  · have failed : lowering.run.run {} = (.error failure, state) := ran
    rw [failed] at completed
    cases completed
  · have finished : lowering.run.run {} = (.ok gathered, state) := ran
    rw [finished] at completed
    cases completed
    exact ⟨gathered, state, rfl, rfl⟩

/-- Lowering the body sets the body, its media type and its key. -/
theorem withBody_sets {request : OperationRequest} {media : RequestMedia} {variant : Variant}
    {context result : Context} {state after : State}
    (ran : withBody request media variant context state = (.ok result, after)) :
    ∃ mediaType requestKey,
      result = { context with body := result.body, mediaType, requestKey } := by
  unfold withBody at ran
  cases media with
  | empty =>
    cases ran
    exact ⟨_, _, rfl⟩
  | patch mediaType =>
    cases ran
    exact ⟨_, _, rfl⟩
  | binary =>
    cases ran
    exact ⟨_, _, rfl⟩
  | json schema =>
    simp only at ran
    cases payload : variant.payload? request.resource.leaf with
    | none =>
      rw [payload] at ran
      cases ran
      exact ⟨_, _, rfl⟩
    | some found =>
      rw [payload] at ran
      obtain ⟨body, middle, -, returned⟩ := run_bind_eq_ok.mp ran
      cases returned
      exact ⟨_, _, rfl⟩

/-! ### Contexts -/

/-- What the context of a variant holds of the operation and the variant. -/
structure Made (request : OperationRequest) (placed : PlacedOperation) (media : RequestMedia)
    (variant : Variant) (context : Context) : Prop where
  directory : context.directory = request.directory placed
  moduleName : context.moduleName = variant.moduleName
  action : context.action = variant.action
  /-- The parameters are lowered from the start, and the body after them. -/
  lowered : ∃ bindings state gathered result after,
    lowerAllBindings request placed {} = (.ok bindings, state) ∧
      context.pathBindings = inPathOrder placed.path (bindings.filter (·.location = .path)) ∧
      context.queryBindings = bindings.filter (·.location = .query) ∧
      gathered.body = .empty ∧
      withBody request media variant gathered state = (.ok result, after) ∧
      context.body = result.body

/-- The steps that make the context of a variant. -/
theorem ofVariant_eq_ok {request : OperationRequest} {placed : PlacedOperation} {kind : Kind}
    {media : RequestMedia} {variant : Variant} {context : Context}
    (given : ofVariant request placed kind media variant = .ok context) :
    ∃ bindings bound result after imports types,
      lowerAllBindings request placed {} = (.ok bindings, bound) ∧
        withBody request media variant
          { base request placed kind variant.moduleName bindings with
            version := variant.version
            action := variant.action } bound = (.ok result, after) ∧
        context = { withResponse request placed result with imports, types } := by
  obtain ⟨gathered, state, ran, rfl⟩ := complete_eq_ok given
  obtain ⟨bindings, bound, lowered, ran⟩ := run_bind_eq_ok.mp ran
  obtain ⟨result, after, sent, ran⟩ := run_bind_eq_ok.mp ran
  have whole : gathered = withResponse request placed result := by
    by_cases pageable : kind.isList = true
    · rw [if_pos pageable] at ran
      obtain ⟨_, _, -, returned⟩ := run_bind_eq_ok.mp ran
      cases returned
      rfl
    · rw [if_neg pageable] at ran
      cases ran
      rfl
  exact ⟨bindings, bound, result, after, _, _, lowered, sent, by rw [whole]⟩

/-- The context of a variant is made of these parts. -/
theorem made_of_ofVariant {request : OperationRequest} {placed : PlacedOperation} {kind : Kind}
    {media : RequestMedia} {variant : Variant} {context : Context}
    (given : ofVariant request placed kind media variant = .ok context) :
    Made request placed media variant context := by
  obtain ⟨bindings, bound, result, after, _, _, lowered, sent, rfl⟩ := ofVariant_eq_ok given
  obtain ⟨mediaType, requestKey, same⟩ := withBody_sets sent
  exact ⟨congrArg Context.directory same, congrArg Context.moduleName same,
    congrArg Context.action same, bindings, bound, _, result, after, lowered,
    congrArg Context.pathBindings same, congrArg Context.queryBindings same, rfl, sent, rfl⟩

/-- The request of a variant is sent to the path of the operation and looks nothing up. -/
theorem url_of_ofVariant {request : OperationRequest} {placed : PlacedOperation} {kind : Kind}
    {media : RequestMedia} {variant : Variant} {context : Context}
    (given : ofVariant request placed kind media variant = .ok context) :
    context.url = Text.trimStart (· = '/') placed.path ∧ context.findKey = none := by
  obtain ⟨bindings, bound, result, after, _, _, lowered, sent, rfl⟩ := ofVariant_eq_ok given
  obtain ⟨mediaType, requestKey, same⟩ := withBody_sets sent
  exact ⟨congrArg Context.url same, congrArg Context.findKey same⟩

/-- What the context of a lookup holds of the operation that shows the resource. -/
structure MadeLookup (request : OperationRequest) (placed : PlacedOperation) (moduleName : String)
    (context : Context) : Prop where
  directory : context.directory = request.directory placed
  moduleName : context.moduleName = moduleName
  url : context.url = Text.trimStart (· = '/') placed.path
  queryBindings : context.queryBindings = []
  body : context.body = .empty
  findKey : context.findKey = (context.pathBindings.find? fun binding =>
    some binding.wireName == Resource.terminalParameter? placed.path).map Binding.name
  lowered : ∃ bindings state, lowerAllBindings request placed {} = (.ok bindings, state) ∧
    context.pathBindings = inPathOrder placed.path (bindings.filter (·.location = .path))

theorem madeLookup_of_ofFind {request : OperationRequest} {placed : PlacedOperation} {kind : Kind}
    {moduleName : String} {context : Context}
    (given : ofFind request placed kind moduleName = .ok context) :
    MadeLookup request placed moduleName context := by
  have step : ∀ {next : List Binding → Lower Context},
      (∀ bindings {state after bound gathered},
        lowerAllBindings request placed {} = (.ok bindings, bound) →
        next bindings state = (.ok gathered, after) →
          MadeLookup request placed moduleName gathered) →
      complete request (lowerAllBindings request placed >>= next) = .ok context →
        MadeLookup request placed moduleName context := by
    intro next each completed
    obtain ⟨gathered, state, ran, rfl⟩ := complete_eq_ok completed
    obtain ⟨bindings, bound, lowered, ran⟩ := run_bind_eq_ok.mp ran
    obtain ⟨directory, name, url, query, body, key, parameters⟩ := each bindings lowered ran
    exact ⟨directory, name, url, query, body, key, parameters⟩
  unfold ofFind at given
  split at given
  · obtain ⟨_, -, given⟩ := bind_eq_ok.mp given
    refine step (fun bindings _ _ _ _ lowered ran => ?_) given
    cases ran
    exact ⟨rfl, rfl, rfl, rfl, rfl, rfl, bindings, _, lowered, rfl⟩
  · refine step (fun bindings _ _ _ _ lowered ran => ?_) given
    cases ran
    exact ⟨rfl, rfl, rfl, rfl, rfl, rfl, bindings, _, lowered, rfl⟩

/-- A context of an operation is that of a lookup or of a variant. -/
theorem contexts_cases {request : OperationRequest} {placed : PlacedOperation}
    {given : List Context} {context : Context} (found : request.placed = .ok placed)
    (made : contexts request = .ok given) (member : context ∈ given) :
    (request.effectiveKind placed = .find ∧
        ofFind request placed .find (request.moduleName .find) = .ok context) ∨
      (request.effectiveKind placed ≠ .find ∧
        ∃ kind media variant, ofVariant request placed kind media variant = .ok context) := by
  by_cases lookup : request.effectiveKind placed = .find
  · rw [contexts_of_find found lookup] at made
    obtain ⟨only, gathered, rfl⟩ := map_eq_ok.mp made
    exact Or.inl ⟨lookup, List.mem_singleton.mp member ▸ gathered⟩
  · rw [contexts_of_ne_find found rfl lookup] at made
    obtain ⟨media, -, made⟩ := bind_eq_ok.mp made
    obtain ⟨variant, -, variantMade⟩ := (mem_mapM made).mp member
    exact Or.inr ⟨lookup, _, media, variant, variantMade⟩

end ServiceForge.Sdk
