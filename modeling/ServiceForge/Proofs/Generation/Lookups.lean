/-
This file says which operations can be missing when something is generated: the one
that is asked for, and for a lookup also the one that lists the resource. Nothing else
that is generated searches for an operation.
-/

import ServiceForge.Cli.Source
import ServiceForge.Descriptor.Derivation
import ServiceForge.Proofs.Lowering.Failures
import ServiceForge.Sdk.Source

namespace ServiceForge.Generation

open ServiceForge.Lowering (Lower RunMissesOnly)
open ServiceForge.OpenApi (PlacedOperation Schema Spec)

variable {missing : String → Prop}

/-! ### Operations -/

/-- An operation that the document of a request lacks: its own or the one that lists. -/
def OperationRequest.Lacks (request : OperationRequest) (operation : String) : Prop :=
  request.spec.findOperation? operation = none ∧
    (operation = request.operation ∨ request.parameters.listOperation = some operation)

/-- Looking for an operation fails only for its own id, and only if no operation has it. -/
theorem find_missesOnly (spec : Spec) (operation : String) :
    MissesOnly (fun other => other = operation ∧ spec.findOperation? other = none)
      (OperationRequest.find spec operation) := by
  intro other failed
  unfold OperationRequest.find at failed
  cases found : spec.findOperation? operation with
  | some placed =>
    rw [found] at failed
    cases failed
  | none =>
    rw [found] at failed
    cases failed
    exact ⟨rfl, found⟩

theorem placed_missesOnly (request : OperationRequest) :
    MissesOnly request.Lacks request.placed :=
  fun _ failed =>
    have ⟨same, absent⟩ := find_missesOnly _ _ _ failed
    ⟨absent, Or.inl same⟩

theorem requestMedia_missesOnly (placed : PlacedOperation) (operation : String) :
    MissesOnly missing (requestMedia placed operation) := by
  have unsupported (types : List String) : MissesOnly missing
      (.error (.unsupportedMediaType operation types) : Except GenerationError RequestMedia) :=
    .error (by simp)
  unfold requestMedia
  simp only
  generalize placed.operation.requestContent.getD [] = content
  by_cases empty : content.isEmpty = true
  · rw [if_pos empty]
    exact .ok _
  rw [if_neg empty]
  by_cases patched : placed.method = .patch
  · rw [if_pos patched]
    cases patchTypes.find? (OrderedMap.contains content ·) with
    | none => exact unsupported _
    | some mediaType => exact .ok _
  rw [if_neg patched]
  cases jsonMedia? content with
  | some media => exact .ok _
  | none =>
    simp only
    split
    · exact .ok _
    · exact unsupported _

/-- Lowering parameters misses no operation. -/
theorem lowerBindings_missesOnly (context : Lowering.Context) (request : OperationRequest)
    (placed : PlacedOperation) (locations : List OpenApi.Location) :
    RunMissesOnly missing (lowerBindings context request placed locations) :=
  .mapM fun parameter => .lowerParameter context parameter _

end ServiceForge.Generation

/-! ### The client library -/

namespace ServiceForge.Sdk

open ServiceForge.Generation
open ServiceForge.Lowering (Lower RunMissesOnly)
open ServiceForge.OpenApi (PlacedOperation Schema)

variable {missing : String → Prop}

/-- Lowering the body of a request misses no operation. -/
theorem lowerBody_missesOnly (request : OperationRequest) (schema : Schema) :
    RunMissesOnly missing (lowerBody request schema) := by
  unfold lowerBody
  simp only
  split
  · exact .bind (.lowerFields _ _ _) fun _ => .pure _
  · split
    · exact .pure _
    · exact .bind (.lower _ _ _) fun _ => .pure _

theorem withBody_missesOnly (request : OperationRequest) (media : RequestMedia)
    (variant : Variant) (context : Context) :
    RunMissesOnly missing (withBody request media variant context) := by
  unfold withBody
  cases media with
  | empty => exact .pure _
  | patch mediaType => exact .bind (.addImport _) fun _ => .pure _
  | binary => exact .pure _
  | json schema =>
    simp only
    split
    · exact .pure _
    · exact .bind (lowerBody_missesOnly request _) fun _ => .pure _

theorem complete_missesOnly (request : OperationRequest) {lowering : Lower Context}
    (misses : RunMissesOnly missing lowering) : MissesOnly missing (complete request lowering) :=
  (misses (Prod.eta _)).map

/-- The context of a variant misses no operation. -/
theorem ofVariant_missesOnly (request : OperationRequest) (placed : PlacedOperation) (kind : Kind)
    (media : RequestMedia) (variant : Variant) :
    MissesOnly missing (ofVariant request placed kind media variant) := by
  refine complete_missesOnly request (.bind (lowerBindings_missesOnly _ _ _ _) fun bindings => ?_)
  refine .bind (withBody_missesOnly _ _ _ _) fun context => ?_
  split
  · exact .bind (.addImport _) fun _ => .pure _
  · exact .pure _

/-- The context of a lookup misses only what the request lacks. -/
theorem ofFind_missesOnly (request : OperationRequest) (placed : PlacedOperation) (kind : Kind)
    (moduleName : String) :
    MissesOnly request.Lacks (ofFind request placed kind moduleName) := by
  have lowered : ∀ next : List Lowering.Binding → Lower Context,
      (∀ bindings, RunMissesOnly request.Lacks (next bindings)) →
        MissesOnly request.Lacks (complete request (lowerAllBindings request placed >>= next)) :=
    fun next each =>
      complete_missesOnly request (.bind (lowerBindings_missesOnly _ _ _ _) each)
  have imports : ∀ context : Context, RunMissesOnly request.Lacks (do
      Lowering.addImport Import.findable
      Lowering.addImport Import.findError
      Lowering.addImport Lowering.Import.borrowedText
      return context) := fun context =>
    .bind (.addImport _) fun _ => .bind (.addImport _) fun _ => .bind (.addImport _) fun _ => .pure _
  unfold ofFind
  cases listed : request.parameters.listOperation with
  | none => exact lowered _ fun bindings => imports _
  | some operation =>
    refine MissesOnly.bind ?_ fun _ _ => lowered _ fun bindings => imports _
    intro other failed
    have searched := find_missesOnly request.spec operation
    cases found : OperationRequest.find request.spec operation with
    | ok placed =>
      rw [found] at failed
      cases failed
    | error reason =>
      rw [found] at failed searched
      obtain ⟨rfl, absent⟩ := searched.pass other failed
      exact ⟨absent, Or.inr listed⟩

/-- The contexts of a request miss only what it lacks. -/
theorem contexts_missesOnly (request : OperationRequest) :
    MissesOnly request.Lacks (contexts request) := by
  refine (placed_missesOnly request).bind fun placed _ => ?_
  simp only
  split
  · exact (ofFind_missesOnly _ _ _ _).bind fun _ _ => .ok _
  · refine (requestMedia_missesOnly _ _).bind fun media _ => ?_
    exact .mapM fun variant _ => ofVariant_missesOnly _ _ _ _ _

/-- The library is generated unless the request lacks an operation or fails for another reason. -/
theorem generate_missesOnly (request : OperationRequest) :
    MissesOnly request.Lacks (generate request) :=
  (contexts_missesOnly request).bind fun _ _ => .ok _

end ServiceForge.Sdk

/-! ### The command line tool -/

namespace ServiceForge.Cli

open ServiceForge.Generation
open ServiceForge.Lowering (Lower RunMissesOnly)
open ServiceForge.OpenApi (PlacedOperation Schema)

variable {missing : String → Prop}

/-- Lowering the response of a command misses no operation. -/
theorem lowerResponse_missesOnly (request : OperationRequest) (shape : Shape)
    (response : Option Schema) : RunMissesOnly missing (lowerResponse request shape response) := by
  unfold lowerResponse
  simp only
  split
  · exact .pure _
  · split
    · exact .pure _
    · split
      · exact .bind (.fail nofun) fun _ => .bind (.lowerFields _ _ _) fun _ => .pure _
      · exact .bind (.lowerFields _ _ _) fun _ => .pure _

theorem lowerBody_missesOnly (request : OperationRequest) (shape : Shape)
    (response : Option Schema) (variant : Variant) :
    RunMissesOnly missing (lowerBody request shape response variant) := by
  unfold lowerBody
  simp only
  split
  · split
    · exact .pure _
    · exact .bind (.lowerFields _ _ _) fun _ => .pure _
  · split
    · exact .pure _
    · split
      · exact .lowerFields _ _ _
      · exact .pure _

theorem ofVariant_missesOnly (sdkCrate : String) (request : OperationRequest)
    (placed : PlacedOperation) (kind : Kind) (media : RequestMedia) (variant : Variant) :
    MissesOnly missing (ofVariant sdkCrate request placed kind media variant) := by
  unfold ofVariant
  refine MissesOnly.bind (lowerBindings_missesOnly _ _ _ _ (Prod.eta _)) fun bindings _ => ?_
  refine MissesOnly.bind (lowerResponse_missesOnly _ _ _ (Prod.eta _)) fun response _ => ?_
  exact MissesOnly.bind (lowerBody_missesOnly _ _ _ _ (Prod.eta _)) fun body _ => .ok _

/-- Commands are generated unless the request lacks an operation or fails for another reason. -/
theorem generate_missesOnly (sdkCrate : String) (request : OperationRequest) :
    MissesOnly request.Lacks (generate sdkCrate request) := by
  refine MissesOnly.bind ?_ fun _ _ => .ok _
  refine (placed_missesOnly request).bind fun placed _ => ?_
  refine (requestMedia_missesOnly _ _).bind fun media _ => ?_
  exact .mapM fun variant _ => ofVariant_missesOnly _ _ _ _ _ _

end ServiceForge.Cli

/-! ### Descriptors -/

namespace ServiceForge.Descriptor

open ServiceForge.OpenApi (Schema Spec)

variable {missing : String → Prop}

theorem attributeType_missesOnly (schema : Schema) (location : String) :
    MissesOnly missing (attributeType schema location) := by
  unfold attributeType
  repeat' split
  all_goals first | exact .ok _ | exact .error nofun

theorem attributeWithin_missesOnly (limit : Nat) (schema : Schema) (location : String) :
    MissesOnly missing (attributeWithin limit schema location) := by
  induction limit generalizing schema with
  | zero => exact .error nofun
  | succ limit inductionHypothesis =>
    unfold attributeWithin
    simp only
    split
    · exact (attributeType_missesOnly _ _).bind fun _ _ => .ok _
    · split
      · exact (inductionHypothesis _).bind fun _ _ => .ok _
      · exact .ok _

/-- The descriptor of a schema misses no operation. -/
theorem ofSchema_missesOnly (name : String) (schema : Schema) :
    MissesOnly missing (ofSchema name schema) := by
  refine MissesOnly.bind (.mapM fun property _ => ?_) fun _ _ => .ok _
  exact (attributeWithin_missesOnly _ _ _).bind fun _ _ => .ok _

/-- The descriptor of an operation misses only the operation itself. -/
theorem ofOperation_missesOnly (spec : Spec) (operation leaf : String) :
    MissesOnly (fun other => other = operation ∧ spec.findOperation? other = none)
      (ofOperation spec operation leaf) := by
  refine (Generation.find_missesOnly spec operation).bind fun placed _ => ?_
  simp only
  split
  · exact .error nofun
  · split
    · exact (ofSchema_missesOnly _ _).bind fun _ _ => .ok _
    · exact .error nofun

end ServiceForge.Descriptor
