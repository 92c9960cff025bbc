/-
This file says where generated modules stand. The names of modules and of their
directories hold no symbol but underscores, whatever the documents say, and a module of an
operation stands in the directory of its request.
-/

import ServiceForge.Proofs.Cli.Wrapping
import ServiceForge.Proofs.Sdk.Context
import ServiceForge.Proofs.Sdk.Variant
import ServiceForge.Proofs.Text.Marks

namespace ServiceForge.Naming

open ServiceForge.Text

/-! ### Plain names -/

/-- Whether a name has no symbols but underscores. -/
def IsPlain (name : String) : Prop :=
  ∀ character ∈ name.toList, isSymbol character = true → character = '_'

instance (name : String) : Decidable (IsPlain name) :=
  List.decidableBAll (fun character => isSymbol character = true → character = '_') name.toList

theorem IsPlain.notMem {name : String} (plain : IsPlain name) {character : Char}
    (symbol : isSymbol character = true) (apart : character ≠ '_') : character ∉ name.toList :=
  fun member => apart (plain character member symbol)

theorem IsPlain.slash_notMem {name : String} (plain : IsPlain name) : '/' ∉ name.toList :=
  plain.notMem (by decide) (by decide)

theorem IsPlain.append {first second : String} (plainFirst : IsPlain first)
    (plainSecond : IsPlain second) : IsPlain (first ++ second) := by
  intro character member symbol
  rw [String.toList_append] at member
  rcases List.mem_append.mp member with here | there
  · exact plainFirst character here symbol
  · exact plainSecond character there symbol

theorem isPlain_of_isAlphanum {name : String}
    (each : ∀ character ∈ name.toList, character.isAlphanum = true) : IsPlain name := by
  intro character member symbol
  have letter := (isSymbol_iff.mp symbol).2
  rw [each character member] at letter
  cases letter

theorem isPlain_underscore : IsPlain "_" := fun _ member _ => List.mem_singleton.mp member

theorem isPlain_moduleName (segment : String) : IsPlain (moduleName segment) := by
  intro character member symbol
  rw [moduleName, toList_snakeCase] at member
  rcases mem_of_mem_intercalate member with separator | ⟨piece, inside, held⟩
  · exact List.mem_singleton.mp separator
  · obtain ⟨word, isWord, rfl⟩ := List.mem_map.mp inside
    exact absurd held (notMem_lowerWord symbol (notMem_word symbol isWord))

theorem isPlain_versionSuffix (version : String) : IsPlain (versionSuffix version) := by
  refine isPlain_of_isAlphanum fun character member => ?_
  rw [versionSuffix, String.toList_ofList] at member
  exact (List.mem_filter.mp member).2

theorem isPlain_toString (number : Nat) : IsPlain (toString number) :=
  isPlain_of_isAlphanum fun _ member => isAlphanum_of_mem_toString member

end ServiceForge.Naming

namespace ServiceForge.Generation

open ServiceForge.Naming
open ServiceForge.OpenApi (PlacedOperation Schema)

/-! ### Names of variants -/

namespace Variant

theorem isPlain_ofBranch {base : String} (plain : IsPlain base) (branch : Schema) (index : Nat) :
    IsPlain (ofBranch base branch index).moduleName := by
  refine (plain.append isPlain_underscore).append ?_
  cases branch.annotation? "min-ver" with
  | none => exact isPlain_toString index
  | some version => exact isPlain_versionSuffix version

theorem isPlain_ofAction? {base : String} {wanted version : Option String} {branch : Schema}
    {variant : Variant} (plain : IsPlain base)
    (given : ofAction? base wanted version branch = some variant) : IsPlain variant.moduleName := by
  unfold ofAction? at given
  cases named : actionName? branch with
  | none =>
    rw [named] at given
    cases given
  | some action =>
    rw [named] at given
    cases wanted with
    | none =>
      cases given
      exact isPlain_moduleName action
    | some name =>
      simp only [Option.bind_eq_bind, Option.bind_some] at given
      split at given
      · cases given
        exact plain
      · cases given

/-- Variants have plain names if the operation has one. -/
theorem isPlain_of_mem_all {body : Option Schema} {base : String}
    {operationName version : Option String} {variant : Variant} (plain : IsPlain base)
    (member : variant ∈ all body base operationName version) : IsPlain variant.moduleName := by
  unfold all at member
  split at member
  · rw [List.mem_singleton.mp member]
    exact plain
  simp only at member
  split at member
  · rw [List.mem_singleton.mp member]
    exact plain
  split at member
  · obtain ⟨branch, -, given⟩ := List.mem_filterMap.mp member
    exact isPlain_ofAction? plain given
  · obtain ⟨⟨branch, index⟩, -, rfl⟩ := List.mem_map.mp member
    exact isPlain_ofBranch plain branch index

end Variant

/-! ### Records -/

/-- Whether a record is one of a module that a request can be generated as. -/
structure RecordOf (request : OperationRequest) (placed : PlacedOperation)
    (record : ModuleRecord) : Prop where
  directory : record.directory = request.directory placed
  plain : IsPlain record.name

theorem isPlain_of_mem_directory {request : OperationRequest} {placed : PlacedOperation}
    {segment : String} (member : segment ∈ request.directory placed) : IsPlain segment := by
  unfold OperationRequest.directory at member
  split at member
  all_goals
    obtain ⟨source, -, rfl⟩ := List.mem_map.mp member
    exact isPlain_moduleName source

/-- Without a directory of its own, a module stands below its service. -/
theorem head?_directory {request : OperationRequest} {placed : PlacedOperation}
    (own : request.parameters.modulePath = none) :
    (request.directory placed).head? = some (moduleName request.resource.service) := by
  unfold OperationRequest.directory
  rw [own]
  rfl

end ServiceForge.Generation

namespace ServiceForge.Sdk

open ServiceForge.Generation
open ServiceForge.Lowering (Lower run_bind_eq_ok)
open ServiceForge.OpenApi (PlacedOperation)

/-- The module of a lookup stands in the directory of the operation under the given name. -/
theorem record_of_ofFind {request : OperationRequest} {placed : PlacedOperation} {kind : Kind}
    {moduleName : String} {context : Context}
    (given : ofFind request placed kind moduleName = .ok context) :
    context.record = ⟨request.directory placed, moduleName⟩ := by
  have record : ∀ {next : List Lowering.Binding → Lower Context},
      (∀ bindings {state after gathered}, next bindings state = (.ok gathered, after) →
        gathered.record = ⟨request.directory placed, moduleName⟩) →
      complete request (lowerAllBindings request placed >>= next) = .ok context →
        context.record = ⟨request.directory placed, moduleName⟩ := by
    intro next each completed
    obtain ⟨gathered, state, ran, rfl⟩ := complete_eq_ok completed
    obtain ⟨bindings, _, -, ran⟩ := run_bind_eq_ok.mp ran
    exact (each bindings ran :)
  unfold ofFind at given
  split at given
  · obtain ⟨_, -, given⟩ := bind_eq_ok.mp given
    refine record (fun bindings _ _ _ ran => ?_) given
    cases ran
    rfl
  · refine record (fun bindings _ _ _ ran => ?_) given
    cases ran
    rfl

/-- The records of the contexts of an operation. -/
theorem recordOf_of_contexts {request : OperationRequest} {given : List Context}
    (made : contexts request = .ok given) :
    ∃ placed, request.placed = .ok placed ∧
      ∀ context ∈ given, RecordOf request placed context.record := by
  obtain ⟨placed, found, -⟩ := bind_eq_ok.mp made
  refine ⟨placed, found, fun context member => ?_⟩
  by_cases lookup : request.effectiveKind placed = .find
  · rw [contexts_of_find found lookup] at made
    cases given : ofFind request placed .find (request.moduleName .find) with
    | error failure =>
      rw [given] at made
      cases made
    | ok only =>
      rw [given] at made
      cases made
      rw [List.mem_singleton.mp member, record_of_ofFind given]
      exact ⟨rfl, Naming.isPlain_moduleName _⟩
  · rw [contexts_of_ne_find found rfl lookup] at made
    obtain ⟨media, -, made⟩ := bind_eq_ok.mp made
    obtain ⟨variant, inside, given⟩ := (mem_mapM made).mp member
    have made := made_of_ofVariant given
    refine ⟨made.directory, ?_⟩
    show Naming.IsPlain context.moduleName
    rw [made.moduleName]
    exact Variant.isPlain_of_mem_all (Naming.isPlain_moduleName _) inside

end ServiceForge.Sdk

namespace ServiceForge.Cli

open ServiceForge.Generation

theorem recordOf_of_contexts {sdkCrate : String} {request : OperationRequest}
    {given : List Context} (made : contexts sdkCrate request = .ok given) :
    ∃ placed, request.placed = .ok placed ∧
      ∀ context ∈ given, RecordOf request placed context.record := by
  obtain ⟨placed, found, -⟩ := bind_eq_ok.mp made
  refine ⟨placed, found, fun context member => ?_⟩
  rw [contexts_of_placed found rfl] at made
  obtain ⟨media, -, made⟩ := bind_eq_ok.mp made
  obtain ⟨variant, inside, given⟩ := (mem_mapM made).mp member
  have made := made_of_ofVariant given
  refine ⟨made.directory, ?_⟩
  show Naming.IsPlain context.moduleName
  rw [made.moduleName]
  exact Variant.isPlain_of_mem_all (Naming.isPlain_moduleName _) inside

end ServiceForge.Cli
