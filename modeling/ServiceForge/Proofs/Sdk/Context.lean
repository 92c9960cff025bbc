/-
This file says what the contexts of an operation depend on. Two requests for the same
operation of the same resource that agree on the kind, the name and the variants give
the same contexts, provided that the keys they are given are those that are found.
-/

import Mathlib.Data.List.Basic
import ServiceForge.Proofs.Except
import ServiceForge.Sdk.Source

namespace ServiceForge.Sdk

open ServiceForge.Generation
open ServiceForge.OpenApi (PlacedOperation Schema)

/-! ### Results of lists -/

theorem mapM_map_result {α β γ : Type} {members : List α} {give : α → Except GenerationError β}
    (change : β → γ) :
    (members.mapM fun member => (give member).map change) =
      (members.mapM give).map (List.map change) := by
  induction members with
  | nil => rfl
  | cons member rest inductionHypothesis =>
    rw [List.mapM_cons, List.mapM_cons, inductionHypothesis]
    cases give member with
    | error failure => rfl
    | ok result => cases rest.mapM give <;> rfl

theorem mapM_map_singleton {α β : Type} {members : List α}
    {give : α → Except GenerationError β} :
    (members.mapM fun member => (give member).map List.singleton).map List.flatten =
      members.mapM give := by
  rw [mapM_map_result]
  cases members.mapM give with
  | error failure => rfl
  | ok results => exact congrArg Except.ok (List.flatMap_singleton' results)

theorem flatten_mapM_singleton {α β : Type} {member : α}
    {give : α → Except GenerationError (List β)} :
    ([member].mapM give).map List.flatten = give member := by
  rw [List.mapM_cons, List.mapM_nil]
  cases give member with
  | error failure => rfl
  | ok results => exact congrArg Except.ok (List.append_nil results)

/-! ### Requests that agree -/

/-- Two requests for one operation of one resource. -/
structure Alike (request other : OperationRequest) : Prop where
  spec : other.spec = request.spec
  resource : other.resource = request.resource
  operation : other.operation = request.operation
  apiVersion : other.apiVersion = request.apiVersion
  modulePath : other.parameters.modulePath = request.parameters.modulePath
  listOperation : other.parameters.listOperation = request.parameters.listOperation

/-- Where the resource stands in the response of an operation. -/
def foundResponse (request : OperationRequest) (placed : PlacedOperation) :
    Option Resource.Found :=
  (responseSchema? placed).map (Resource.locate · request.resource.leaf)

/-- Whether two requests have the same keys in the response. -/
structure SameResponse (request other : OperationRequest) (placed : PlacedOperation) : Prop where
  responseKey :
    other.parameters.responseKey.or ((foundResponse request placed).bind Resource.Found.key) =
      request.parameters.responseKey.or ((foundResponse request placed).bind Resource.Found.key)
  itemKey :
    other.parameters.itemKey.or ((foundResponse request placed).bind Resource.Found.itemKey) =
      request.parameters.itemKey.or ((foundResponse request placed).bind Resource.Found.itemKey)

/-- Whether two requests have the same key in the body of a variant. -/
def SameRequestKey (request other : OperationRequest) (variant : Variant) : Prop :=
  ∀ schema key, variant.payload? request.resource.leaf = some (schema, key) →
    other.parameters.requestKey.or key = request.parameters.requestKey.or key

section Alike

variable {request other : OperationRequest}

theorem Alike.placed (alike : Alike request other) : other.placed = request.placed := by
  unfold OperationRequest.placed
  rw [alike.spec, alike.operation]

theorem Alike.loweringContext (alike : Alike request other) :
    loweringContext other = loweringContext request := by
  unfold Sdk.loweringContext
  rw [alike.spec]

theorem Alike.singular (alike : Alike request other) : other.singular = request.singular := by
  unfold OperationRequest.singular
  rw [alike.resource]

/-- Requests that are alike complete a context alike. -/
theorem Alike.complete (alike : Alike request other) (lowering : Lowering.Lower Context) :
    complete other lowering = complete request lowering := by
  unfold Sdk.complete
  rw [alike.loweringContext]

/-- Requests that are alike lower parameters alike. -/
theorem Alike.lowerAllBindings (alike : Alike request other) (placed : PlacedOperation) :
    lowerAllBindings other placed = lowerAllBindings request placed := by
  unfold Sdk.lowerAllBindings lowerBindings scope
  rw [alike.loweringContext, alike.singular]

theorem Alike.base (alike : Alike request other) (placed : PlacedOperation) (kind : Kind)
    (moduleName : String) (bindings : List Lowering.Binding) :
    base other placed kind moduleName bindings = base request placed kind moduleName bindings := by
  unfold Sdk.base OperationRequest.directory OperationRequest.version
  rw [alike.operation, alike.resource, alike.modulePath, alike.apiVersion]

/-- Requests that are alike give a context the same body. -/
theorem Alike.withBody (alike : Alike request other) {variant : Variant}
    (same : SameRequestKey request other variant) (media : RequestMedia) (context : Context) :
    withBody other media variant context = withBody request media variant context := by
  cases media with
  | json schema =>
    unfold Sdk.withBody
    rw [alike.resource]
    cases payload : variant.payload? request.resource.leaf with
    | none => rfl
    | some found =>
      obtain ⟨schema, key⟩ := found
      have lowered : lowerBody other schema = lowerBody request schema := by
        unfold lowerBody
        rw [alike.loweringContext, alike.singular]
      simp only [lowered, same schema key payload]
  | _ => rfl

/-- Requests that are alike give a context the same response. -/
theorem Alike.withResponse (alike : Alike request other) {placed : PlacedOperation}
    (same : SameResponse request other placed) (context : Context) :
    withResponse other placed context = withResponse request placed context := by
  obtain ⟨responseKey, itemKey⟩ := same
  unfold foundResponse at responseKey itemKey
  unfold Sdk.withResponse
  rw [alike.resource]
  simp only [responseKey, itemKey]

/-- The context of a variant is the same for requests that agree on its keys. -/
theorem Alike.ofVariant (alike : Alike request other) {placed : PlacedOperation} {variant : Variant}
    (response : SameResponse request other placed) (body : SameRequestKey request other variant)
    (kind : Kind) (media : RequestMedia) :
    ofVariant other placed kind media variant = ofVariant request placed kind media variant := by
  unfold Sdk.ofVariant
  rw [alike.complete, alike.lowerAllBindings]
  simp only [alike.base, alike.withBody body, alike.withResponse response]

/-- Requests that are alike have the same lookup. -/
theorem Alike.ofFind (alike : Alike request other) (placed : PlacedOperation) (kind : Kind)
    (moduleName : String) :
    ofFind other placed kind moduleName = ofFind request placed kind moduleName := by
  unfold Sdk.ofFind
  rw [alike.listOperation, alike.spec, alike.complete, alike.lowerAllBindings]
  simp only [alike.base]

/-! ### Contexts -/

/-- The library is generated context by context. -/
theorem generate_eq (request : OperationRequest) :
    generate request = (contexts request).map
      (List.map fun context => File.ofModule context.record (render context)) := by
  unfold generate
  cases contexts request <;> rfl

/-- The file of the module that is made from a context. -/
def Context.file (context : Context) : File := .ofModule context.record (render context)

/-- The contents of a module are its lines. -/
theorem Context.contents_file (context : Context) :
    context.file.contents = Source.ofLines (moduleLines context) := by
  have contents : ∀ text, (File.ofModule context.record text).contents = text := fun _ => rfl
  unfold Context.file render
  rw [contents]

theorem generate_of_contexts {request : OperationRequest} {given : List Context}
    (made : contexts request = .ok given) : generate request = .ok (given.map Context.file) := by
  rw [generate_eq, made]
  rfl

/-- The variants that a request is generated in. -/
def variantsOf (request : OperationRequest) (placed : PlacedOperation) (kind : Kind)
    (media : RequestMedia) : List Variant :=
  Variant.all media.schema? (request.moduleName kind) request.parameters.operationName
    (operationVersion? placed)

/-- A request for a lookup has its context alone. -/
theorem contexts_of_find {placed : PlacedOperation} (found : request.placed = .ok placed)
    (kind : request.effectiveKind placed = .find) :
    contexts request =
      (ofFind request placed .find (request.moduleName .find)).map fun context => [context] := by
  unfold contexts
  rw [found]
  show (if request.effectiveKind placed = .find then _ else _) = _
  rw [if_pos kind, kind]
  rfl

/-- Any other request has a context for each of its variants. -/
theorem contexts_of_ne_find {placed : PlacedOperation} {kind : Kind}
    (found : request.placed = .ok placed) (known : request.effectiveKind placed = kind)
    (plain : kind ≠ .find) :
    contexts request = (requestMedia placed request.operation).bind fun media =>
      (variantsOf request placed kind media).mapM (ofVariant request placed kind media) := by
  unfold contexts
  rw [found]
  show (if request.effectiveKind placed = .find then _ else _) = _
  rw [known, if_neg plain]
  rfl

/-- Requests that agree on the kind, the name, the variants and the keys give the same contexts. -/
theorem Alike.contexts (alike : Alike request other) {placed : PlacedOperation} {kind : Kind}
    (found : request.placed = .ok placed) (known : request.effectiveKind placed = kind)
    (same : other.effectiveKind placed = kind)
    (name : other.moduleName kind = request.moduleName kind)
    (operationName : other.parameters.operationName = request.parameters.operationName)
    (response : SameResponse request other placed)
    (body : ∀ media, requestMedia placed request.operation = .ok media →
      ∀ variant ∈ variantsOf request placed kind media, SameRequestKey request other variant) :
    contexts other = contexts request := by
  have otherFound : other.placed = .ok placed := alike.placed.trans found
  by_cases lookup : kind = .find
  · subst lookup
    rw [contexts_of_find found known, contexts_of_find otherFound same, alike.ofFind, name]
  rw [contexts_of_ne_find found known lookup, contexts_of_ne_find otherFound same lookup,
    alike.operation]
  cases sent : requestMedia placed request.operation with
  | error failure => simp only [Except.bind]
  | ok media =>
    have variants : variantsOf other placed kind media = variantsOf request placed kind media := by
      unfold variantsOf
      rw [name, operationName]
    show (variantsOf other placed kind media).mapM (Sdk.ofVariant other placed kind media) =
      (variantsOf request placed kind media).mapM (Sdk.ofVariant request placed kind media)
    rw [variants]
    exact mapM_congr fun variant member =>
      alike.ofVariant response (body media sent variant member) kind media

end Alike

end ServiceForge.Sdk
