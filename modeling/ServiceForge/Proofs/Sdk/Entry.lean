/-
This file compares the requests that metadata makes for an operation with the request
for the operation itself. The contexts of the entries, one entry after another, are the
contexts of the operation: a single entry repeats what would be found without it, and
the entries of a union of actions have one branch each.
-/

import ServiceForge.Proofs.Classification
import ServiceForge.Proofs.Metadata.Entries
import ServiceForge.Proofs.Sdk.Context

namespace ServiceForge.Sdk

open ServiceForge.Generation
open ServiceForge.Generation.Variant (IsActions actionOf ofBranchAction)
open ServiceForge.Metadata
open ServiceForge.OpenApi (PlacedOperation Schema Spec)
open ServiceForge.Text (IsAscii)

/-! ### Media -/

/-- A body in JSON is the one that metadata describes, unless the method asks for a patch. -/
theorem schema?_of_requestMedia {placed : PlacedOperation} {operation : String}
    {media : RequestMedia} (sent : requestMedia placed operation = .ok media) :
    media.schema? = bodySchema? placed ∨ media.schema? = none := by
  unfold requestMedia at sent
  simp only at sent
  split at sent
  · cases sent
    exact Or.inr rfl
  split at sent
  · split at sent
    · cases sent
      exact Or.inr rfl
    · cases sent
  split at sent
  · next media found =>
    cases sent
    refine Or.inl ?_
    unfold Metadata.bodySchema?
    cases content : placed.operation.requestContent with
    | none =>
      rw [content] at found
      cases found
    | some content' =>
      rw [content, Option.getD_some] at found
      simp [RequestMedia.schema?, found]
  split at sent
  · cases sent
    exact Or.inr rfl
  · cases sent

theorem requestMedia_of_bodySchema? {placed : PlacedOperation} {schema : Schema}
    (body : bodySchema? placed = some schema) (plain : placed.method ≠ .patch)
    (operation : String) : requestMedia placed operation = .ok (.json (some schema)) := by
  obtain ⟨content, given, found⟩ := Option.bind_eq_some_iff.mp body
  obtain ⟨media, first, held⟩ := Option.bind_eq_some_iff.mp found
  have nonempty : content.isEmpty = false := by
    cases content with
    | nil => cases first
    | cons _ _ => rfl
  unfold requestMedia
  simp only [given, Option.getD_some, nonempty, Bool.false_eq_true, if_false, plain, first, held]
  rfl

/-- An action is never a patch. -/
theorem method_of_action {spec : Spec} {placed : PlacedOperation}
    (known : Classification.ofOperation spec placed = .known .action) : placed.method ≠ .patch := by
  intro patch
  unfold Classification.ofOperation Classification.ofPath at known
  simp [patch, Classification.kindOn] at known

/-! ### Payloads -/

/-- A schema without properties is no wrapper. -/
theorem locate_key_of_properties {schema : Schema} (bare : schema.properties = []) (leaf : String) :
    (Resource.locate schema leaf).key = none := by
  have none : Resource.wrapper? schema leaf = none := by
    unfold Resource.wrapper?
    rw [bare]
    rfl
  unfold Resource.locate
  rw [none]
  simp only
  split
  · rfl
  split
  · rfl
  · split
    · split <;> rfl
    · rfl

/-- The key of a whole body adds nothing to what is found for one of its variants. -/
theorem locate_key_or {schema inner : Schema} {variant : Variant} {base leaf : String}
    {version key : Option String}
    (bare : 2 ≤ schema.nonNullBranches.length → schema.properties = [])
    (member : variant ∈ Variant.all (some schema) base none version)
    (payload : variant.payload? leaf = some (inner, key)) :
    (Resource.locate schema leaf).key.or key = key := by
  by_cases several : schema.nonNullBranches.length < 2
  · simp only [Variant.all, if_pos several, List.mem_singleton] at member
    subst member
    cases payload
    exact Option.or_self
  · rw [locate_key_of_properties (bare (Nat.not_lt.mp several)), Option.none_or]

/-! ### Requests -/

/-- The request for an operation itself. -/
def operationRequest (spec : Spec) (resource : Resource.Id) (operation version : String) :
    OperationRequest :=
  { spec, resource, operation, apiVersion := some version }

/-- The request that metadata makes of an entry. -/
def entryRequest (spec : Spec) (resource : Resource.Id) (version key : String)
    (entry : OperationEntry) (parameters : TargetParameters) : OperationRequest :=
  { spec
    resource
    operation := entry.operation
    key := some key
    kind := entry.kind
    apiVersion := some version
    parameters }

/-- The request that metadata makes of a branch of a union of actions. -/
def branchRequest (spec : Spec) (resource : Resource.Id) (version : String)
    (placed : PlacedOperation) (operation : String) (branch : Schema) : OperationRequest :=
  entryRequest spec resource version (Naming.moduleName (actionOf branch))
    (branchEntry placed operation .action resource.leaf branch).2
    (branchParameters placed resource.leaf branch)

/-- Whether metadata says of an operation no more than the operation itself: its path and the
names of its actions are names of ASCII, a body that is a union has no properties, and a union of
actions has several of them. -/
structure Regular (placed : PlacedOperation) (kind : Kind) : Prop where
  path : IsAscii placed.path
  bare : ∀ schema, bodySchema? placed = some schema → 2 ≤ schema.nonNullBranches.length →
    schema.properties = []
  several : ∀ schema, bodySchema? placed = some schema →
    isActionUnion kind (some schema) = true → 2 ≤ schema.nonNullBranches.length
  named : ∀ schema, bodySchema? placed = some schema →
    isActionUnion kind (some schema) = true →
      ∀ branch ∈ schema.nonNullBranches, ∃ action, actionName? branch = some action ∧ IsAscii action

theorem Regular.isActions {placed : PlacedOperation} {kind : Kind} (regular : Regular placed kind)
    {schema : Schema} (body : bodySchema? placed = some schema)
    (union : isActionUnion kind (some schema) = true) : IsActions schema where
  several := regular.several schema body union
  discriminator := (isActionUnion_some.mp union).2
  named := by
    intro branch member
    obtain ⟨action, named, -⟩ := regular.named schema body union branch member
    rw [named]
    rfl

section Requests

variable {spec : Spec} {placed : PlacedOperation} {resource : Resource.Id}
  {operation version : String} {kind : Kind}

theorem effectiveKind_operationRequest
    (known : Classification.ofOperation spec placed = .known kind) :
    (operationRequest spec resource operation version).effectiveKind placed = kind := by
  show (operationRequest spec resource operation version).classifiedKind placed = kind
  unfold OperationRequest.classifiedKind operationRequest
  simp only [known]

section Entry

variable {moduleName : String} {requestKey operationName : Option String}

theorem alike_entryRequest :
    Alike (operationRequest spec resource operation version)
      (entryRequest spec resource version moduleName
        (entryFor operation kind
          (entryParameters placed resource.leaf moduleName requestKey operationName))
        (entryParameters placed resource.leaf moduleName requestKey operationName)) :=
  ⟨rfl, rfl, rfl, rfl, rfl, rfl⟩

/-- The keys of the response that an entry carries are those that are found. -/
theorem sameResponse_entryRequest :
    SameResponse (operationRequest spec resource operation version)
      (entryRequest spec resource version moduleName
        (entryFor operation kind
          (entryParameters placed resource.leaf moduleName requestKey operationName))
        (entryParameters placed resource.leaf moduleName requestKey operationName)) placed :=
  ⟨Option.or_self, Option.or_self⟩

end Entry

/-- The contexts of the entry of an operation that is no union of actions. -/
theorem contexts_single (found : OperationRequest.find spec operation = .ok placed)
    (known : Classification.ofOperation spec placed = .known kind) (regular : Regular placed kind) :
    contexts (entryRequest spec resource version (Naming.moduleName kind.name)
        (entryFor operation kind (entryParameters placed resource.leaf
          (Naming.moduleName kind.name) (bodyKey? placed resource.leaf) none))
        (entryParameters placed resource.leaf (Naming.moduleName kind.name)
          (bodyKey? placed resource.leaf) none)) =
      contexts (operationRequest spec resource operation version) := by
  have settled := Classification.moduleName_kind regular.path known
  refine alike_entryRequest.contexts found (effectiveKind_operationRequest known) rfl
    (congrArg Naming.moduleName settled) rfl sameResponse_entryRequest ?_
  intro media sent variant member schema key payload
  show (bodyKey? placed resource.leaf).or key = none.or key
  rw [Option.none_or]
  unfold variantsOf at member
  cases body : media.schema? with
  | none =>
    rw [body] at member
    cases List.mem_singleton.mp member
    cases payload
  | some whole =>
    rw [body] at member
    have described : bodySchema? placed = some whole := by
      rcases schema?_of_requestMedia sent with same | absent
      · exact same.symm.trans body
      · cases absent.symm.trans body
    rw [bodyKey?, described]
    exact locate_key_or (regular.bare whole described) member payload

/-- The entry of a branch has the context of that branch. -/
theorem contexts_branch {schema branch : Schema}
    (found : OperationRequest.find spec operation = .ok placed) (actions : IsActions schema)
    (sent : requestMedia placed operation = .ok (.json (some schema)))
    (distinct : (schema.nonNullBranches.map fun branch =>
      Naming.moduleName (actionOf branch)).Nodup)
    (member : branch ∈ schema.nonNullBranches) (ascii : IsAscii (actionOf branch)) :
    contexts (branchRequest spec resource version placed operation branch) =
      (ofVariant (operationRequest spec resource operation version) placed .action
        (.json (some schema)) (ofBranchAction (Naming.moduleName (actionOf branch))
          (operationVersion? placed) branch)).map List.singleton := by
  have alike : Alike (operationRequest spec resource operation version)
      (branchRequest spec resource version placed operation branch) := alike_entryRequest
  have variants : variantsOf (branchRequest spec resource version placed operation branch) placed
      .action (.json (some schema)) = [ofBranchAction (Naming.moduleName (actionOf branch))
        (operationVersion? placed) branch] := by
    have same := Naming.moduleName_moduleName ascii
    show Variant.all (some schema) (Naming.moduleName (Naming.moduleName (actionOf branch)))
      (some (actionOf branch)) (operationVersion? placed) = _
    rw [same]
    exact Variant.all_action actions distinct member _ _
  have requestKey : SameRequestKey (operationRequest spec resource operation version)
      (branchRequest spec resource version placed operation branch)
      (ofBranchAction (Naming.moduleName (actionOf branch)) (operationVersion? placed) branch) := by
    intro inner key payload
    show (((ofBranchAction (Naming.moduleName (actionOf branch)) none branch).payload?
      resource.leaf).bind Prod.snd).or key = none.or key
    have same : (ofBranchAction (Naming.moduleName (actionOf branch)) none branch).payload?
        resource.leaf = some (inner, key) := (Variant.payload?_congr rfl rfl _).trans payload
    rw [same, Option.none_or]
    exact Option.or_self
  rw [contexts_of_ne_find (alike.placed.trans found) rfl (nofun : Kind.action ≠ .find)]
  show (requestMedia placed operation).bind _ = _
  rw [sent]
  show (variantsOf _ placed .action (.json (some schema))).mapM _ = _
  rw [variants, List.mapM_cons, List.mapM_nil,
    alike.ofVariant sameResponse_entryRequest requestKey]
  rfl

/-- The contexts of the entries of a union of actions, one branch after another. -/
theorem contexts_actions {schema : Schema}
    (found : OperationRequest.find spec operation = .ok placed)
    (known : Classification.ofOperation spec placed = .known .action)
    (regular : Regular placed .action) (body : bodySchema? placed = some schema)
    (union : isActionUnion .action (some schema) = true)
    (distinct : (schema.nonNullBranches.map fun branch =>
      Naming.moduleName (actionOf branch)).Nodup) :
    (schema.nonNullBranches.mapM fun branch =>
        contexts (branchRequest spec resource version placed operation branch)).map
          List.flatten =
      contexts (operationRequest spec resource operation version) := by
  have sent := requestMedia_of_bodySchema? body (method_of_action known) operation
  have actions := regular.isActions body union
  have whole : contexts (operationRequest spec resource operation version) =
      schema.nonNullBranches.mapM fun branch =>
        ofVariant (operationRequest spec resource operation version) placed .action
          (.json (some schema)) (ofBranchAction (Naming.moduleName (actionOf branch))
            (operationVersion? placed) branch) := by
    have present : (operationRequest spec resource operation version).placed = .ok placed := found
    rw [contexts_of_ne_find present (effectiveKind_operationRequest known)
      (nofun : Kind.action ≠ .find)]
    show (requestMedia placed operation).bind _ = _
    rw [sent]
    show (Variant.all (some schema) _ none (operationVersion? placed)).mapM _ = _
    rw [Variant.all_actions actions, List.mapM_map]
    rfl
  have each : ∀ branch ∈ schema.nonNullBranches,
      contexts (branchRequest spec resource version placed operation branch) =
        (ofVariant (operationRequest spec resource operation version) placed .action
          (.json (some schema)) (ofBranchAction (Naming.moduleName (actionOf branch))
            (operationVersion? placed) branch)).map List.singleton := by
    intro branch member
    obtain ⟨action, named, ascii⟩ := regular.named schema body union branch member
    refine contexts_branch found actions sent distinct member ?_
    rw [actionOf, named]
    exact ascii
  rw [whole, mapM_congr each]
  exact mapM_map_singleton

end Requests

end ServiceForge.Sdk
