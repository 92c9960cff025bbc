/-
This file proves when the variants of an operation are written to files of their own. All
stand in one directory, so the names of their modules decide. Variants of a union are
named after the letters and digits of a version, or after the place of a branch without a
version; variants of actions are named after the words of the action. Nothing tells names
apart that are the same, so two variants can share a file.
-/

import Mathlib.Data.List.Nodup
import ServiceForge.Cli.Source
import ServiceForge.Proofs.FilePath
import ServiceForge.Proofs.Generation.Records
import ServiceForge.Proofs.Text.Marks

namespace ServiceForge.Generation

open ServiceForge.Naming
open ServiceForge.OpenApi (PlacedOperation Schema)
open ServiceForge.Text

/-! ### Branches without an action -/

/-- The version since which a branch can be used. -/
def versionOf? (branch : Schema) : Option String := branch.annotation? "min-ver"

/-- Whether branches are told apart by their versions: no two have the same letters and digits, and
none has the digits of the place of a branch without a version. -/
structure VersionsApart (branches : List Schema) : Prop where
  distinct : ((branches.filterMap versionOf?).map versionSuffix).Nodup
  places : ∀ branch index, (branch, index) ∈ branches.zipIdx → versionOf? branch = none →
    ∀ version ∈ branches.filterMap versionOf?, versionSuffix version ≠ toString index

/-- What the name of the variant of a branch ends with. -/
def branchSuffix (entry : Schema × Nat) : String :=
  ((versionOf? entry.1).map versionSuffix).getD (toString entry.2)

theorem toString_inj {first second : Nat} : toString first = toString second ↔ first = second := by
  have read : ∀ number : Nat, Nat.ofDigitChars 10 (toString number).toList 0 = number := fun number =>
    (congrArg (Nat.ofDigitChars 10 · 0) Nat.toList_repr).trans
      (Nat.ofDigitChars_toDigits (by decide) (by decide))
  exact ⟨fun same => by rw [← read first, same, read second], congrArg toString⟩

/-- The suffixes of branches are those of the versions and the places of the others. -/
theorem branchSuffixes_perm (branches : List Schema) :
    (branches.zipIdx.map branchSuffix).Perm
      ((branches.filterMap versionOf?).map versionSuffix ++
        (branches.zipIdx.filter fun entry => !(versionOf? entry.1).isSome).map
          fun entry => toString entry.2) := by
  let versioned := fun entry : Schema × Nat => (versionOf? entry.1).isSome
  have parted := ((List.filter_append_perm versioned branches.zipIdx).map branchSuffix).symm
  rw [List.map_append] at parted
  have versions : (branches.zipIdx.filter versioned).map branchSuffix =
      (branches.filterMap versionOf?).map versionSuffix := by
    have first : branches = branches.zipIdx.map Prod.fst := List.zipIdx_map_fst 0 branches |>.symm
    conv => rhs; rw [first]
    rw [List.filterMap_map, List.map_filterMap, ← List.filterMap_eq_filter, List.map_filterMap]
    refine List.filterMap_congr fun entry _ => ?_
    show ((Option.guard versioned entry).map branchSuffix) = (versionOf? entry.1).map versionSuffix
    unfold Option.guard branchSuffix
    cases given : versionOf? entry.1 <;> simp [versioned, given]
  have places : (branches.zipIdx.filter fun entry => !versioned entry).map branchSuffix =
      (branches.zipIdx.filter fun entry => !versioned entry).map fun entry => toString entry.2 := by
    refine List.map_congr_left fun entry member => ?_
    have missing : versionOf? entry.1 = none := by
      simpa [versioned] using (List.mem_filter.mp member).2
    rw [branchSuffix, missing]
    rfl
  rw [versions, places] at parted
  exact parted

theorem nodup_branchSuffixes_iff (branches : List Schema) :
    (branches.zipIdx.map branchSuffix).Nodup ↔ VersionsApart branches := by
  have numbered : ((branches.zipIdx.filter fun entry => !(versionOf? entry.1).isSome).map
      fun entry => toString entry.2).Nodup := by
    have indices : (branches.zipIdx.map Prod.snd).Nodup := by
      rw [List.zipIdx_map_snd]
      exact List.nodup_range'
    have kept : ((branches.zipIdx.filter fun entry => !(versionOf? entry.1).isSome).map
        Prod.snd).Nodup := indices.sublist (List.filter_sublist.map Prod.snd)
    have named := kept.map (f := (toString : Nat → String)) fun _ _ => toString_inj.mp
    rwa [List.map_map] at named
  rw [(branchSuffixes_perm branches).nodup_iff, List.nodup_append]
  constructor
  · rintro ⟨distinct, -, apart⟩
    refine ⟨distinct, fun branch index member missing version held same => ?_⟩
    refine apart _ (List.mem_map_of_mem held) (toString index) (List.mem_map.mpr
      ⟨(branch, index), List.mem_filter.mpr ⟨member, by simp [missing]⟩, rfl⟩) same
  · rintro ⟨distinct, places⟩
    refine ⟨distinct, numbered, ?_⟩
    rintro _ held _ inside rfl
    obtain ⟨version, isVersion, same⟩ := List.mem_map.mp held
    obtain ⟨⟨branch, index⟩, member, number⟩ := List.mem_map.mp inside
    obtain ⟨member, missing⟩ := List.mem_filter.mp member
    exact places branch index member (by simpa using missing) version isVersion
      (same.trans number.symm)

/-! ### Names of variants -/

/-- Whether the variants of a body are told apart by their names: those of actions by the words of
the action, unless one is chosen by its name, and those of other branches by their versions. -/
def ToldApart (body : Option Schema) (operationName : Option String) : Prop :=
  ∀ schema, body = some schema → 2 ≤ schema.nonNullBranches.length →
    if schema.annotation? "discriminator" = some "action" then
      let actions := (schema.nonNullBranches.filterMap actionName?).map spelling
      match operationName with
      | some name => actions.count (spelling name) ≤ 1
      | none => actions.Nodup
    else VersionsApart schema.nonNullBranches

namespace Variant

theorem map_moduleName_actions (base : String) (version : Option String)
    (branches : List Schema) :
    (branches.filterMap (ofAction? base none version)).map Variant.moduleName =
      (branches.filterMap actionName?).map Naming.moduleName := by
  rw [List.map_filterMap, List.map_filterMap]
  refine List.filterMap_congr fun branch _ => ?_
  unfold ofAction?
  cases actionName? branch <;> rfl

/-- Other branches are named after what tells them apart. -/
theorem map_moduleName_branches (base : String) (entries : List (Schema × Nat)) :
    entries.map (fun entry => (ofBranch base entry.1 entry.2).moduleName) =
      (entries.map branchSuffix).map (base ++ "_" ++ ·) := by
  rw [List.map_map]
  rfl

/-- The variants of a chosen action all have the name of the operation. -/
theorem map_moduleName_chosen (base name : String) (version : Option String)
    (branches : List Schema) :
    (branches.filterMap (ofAction? base (some name) version)).map Variant.moduleName =
      List.replicate (((branches.filterMap actionName?).map spelling).count (spelling name)) base := by
  induction branches with
  | nil => rfl
  | cons branch rest inductionHypothesis =>
    rw [List.filterMap_cons, List.filterMap_cons]
    unfold ofAction?
    cases actionName? branch with
    | none => exact inductionHypothesis
    | some action =>
      simp only [Option.bind_eq_bind, Option.bind_some, List.map_cons, List.count_cons]
      by_cases chosen : Naming.moduleName name = Naming.moduleName action
      · have alike := Naming.moduleName_eq_iff.mp chosen
        simp only [if_pos chosen, alike, beq_self_eq_true, if_true]
        rw [List.replicate_succ, ← alike]
        exact congrArg _ inductionHypothesis
      · have apart : ¬ spelling action = spelling name := fun same =>
          chosen (Naming.moduleName_eq_iff.mpr same.symm)
        simp only [if_neg chosen, Option.bind_none, beq_iff_eq, apart, if_false, Nat.add_zero]
        exact inductionHypothesis

/-- The names of the variants of a body; the version of the operation plays no part in them. -/
def names (body : Option Schema) (base : String) (operationName : Option String) : List String :=
  (all body base operationName none).map Variant.moduleName

theorem map_moduleName_all (body : Option Schema) (base : String)
    (operationName version : Option String) :
    (all body base operationName version).map Variant.moduleName =
      names body base operationName := by
  have alike : List.Forall₂ Eq ((all body base operationName version).map Variant.moduleName)
      (names body base operationName) := by
    refine List.forall₂_map_left_iff.mpr (List.forall₂_map_right_iff.mpr ?_)
    exact (all_sameForm body base operationName version none).imp fun _ _ same =>
      same.moduleName.symm
  rwa [List.forall₂_eq_eq_eq] at alike

theorem nodup_names_iff (body : Option Schema) (base : String) (operationName : Option String) :
    (names body base operationName).Nodup ↔ ToldApart body operationName := by
  cases body with
  | none =>
    exact iff_of_true (List.nodup_singleton _) nofun
  | some schema =>
    unfold ToldApart names all
    simp only [Option.some.injEq, forall_eq']
    by_cases few : schema.nonNullBranches.length < 2
    · rw [if_pos few]
      exact iff_of_true (List.nodup_singleton _) fun several => absurd few (Nat.not_lt.mpr several)
    rw [if_neg few, forall_prop_of_true (Nat.not_lt.mp few)]
    by_cases actions : schema.annotation? "discriminator" = some "action"
    · rw [if_pos actions, if_pos actions]
      cases operationName with
      | some name =>
        rw [map_moduleName_chosen, List.nodup_replicate]
      | none =>
        rw [map_moduleName_actions]
        unfold List.Nodup
        rw [List.pairwise_map, List.pairwise_map]
        exact List.Pairwise.iff fun _ _ => not_congr Naming.moduleName_eq_iff
    · rw [if_neg actions, if_neg actions, ← nodup_branchSuffixes_iff]
      rw [List.map_map]
      have named := map_moduleName_branches base schema.nonNullBranches.zipIdx
      refine (Eq.to_iff (congrArg List.Nodup named)).trans ?_
      rw [List.nodup_map_iff fun _ _ => (String.append_right_inj _).mp]

end Variant

/-! ### Paths of modules -/

theorem nodup_map_iff_of_iff {α β γ : Type} {items : List α} {first : α → β} {second : α → γ}
    (alike : ∀ item ∈ items, ∀ other ∈ items, first item = first other ↔ second item = second other) :
    (items.map first).Nodup ↔ (items.map second).Nodup := by
  unfold List.Nodup
  rw [List.pairwise_map, List.pairwise_map]
  exact List.Pairwise.iff_of_mem fun member held => not_congr (alike _ member _ held)

section Records

variable {request : OperationRequest} {placed : PlacedOperation} {records : List ModuleRecord}

/-- Modules of one operation have one path exactly if they have one name. -/
theorem RecordOf.path_eq_iff {first second : ModuleRecord}
    (ofFirst : RecordOf request placed first) (ofSecond : RecordOf request placed second) :
    first.path = second.path ↔ first.name = second.name := by
  have relative : ∀ {record : ModuleRecord}, RecordOf request placed record →
      FilePath.isAbsolute (record.name ++ ".rs") = false := fun ofRecord => by
    refine FilePath.isAbsolute_of_notMem ?_
    rw [String.toList_append, List.mem_append, not_or]
    exact ⟨ofRecord.plain.slash_notMem, by decide⟩
  unfold ModuleRecord.path
  rw [ofFirst.directory, ofSecond.directory,
    FilePath.join_right_inj (relative ofFirst) (relative ofSecond), String.append_left_inj]

theorem nodup_paths_iff (each : ∀ record ∈ records, RecordOf request placed record) :
    (records.map ModuleRecord.path).Nodup ↔ (records.map ModuleRecord.name).Nodup :=
  nodup_map_iff_of_iff fun record member other held =>
    (each record member).path_eq_iff (each other held)

end Records

/-- The schema of the body that the variants of an operation are found in. -/
def bodySchema? (request : OperationRequest) (placed : PlacedOperation) : Option Schema :=
  (requestMedia placed request.operation).toOption.bind RequestMedia.schema?

theorem bodySchema?_of_media {request : OperationRequest} {placed : PlacedOperation}
    {media : RequestMedia}
    (sent : requestMedia placed request.operation = .ok media) :
    bodySchema? request placed = media.schema? := by
  unfold bodySchema?
  rw [sent]
  rfl

end ServiceForge.Generation

namespace ServiceForge.Sdk

open ServiceForge.Generation
open ServiceForge.OpenApi (PlacedOperation)

variable {request : OperationRequest} {placed : PlacedOperation}

/-- The names of the modules that an operation is generated as: its own name if it is a lookup, and
those of its variants otherwise. -/
def moduleNames (request : OperationRequest) (placed : PlacedOperation) (base : String) :
    List String :=
  if request.effectiveKind placed = .find then [base]
  else Variant.names (bodySchema? request placed) base request.parameters.operationName

theorem map_moduleName_contexts {given : List Context} (found : request.placed = .ok placed)
    (gathered : contexts request = .ok given) :
    given.map Context.moduleName =
      moduleNames request placed (request.moduleName (request.effectiveKind placed)) := by
  unfold moduleNames
  split
  · next lookup =>
    rw [contexts_of_find found lookup] at gathered
    obtain ⟨context, made, rfl⟩ := map_eq_ok.mp gathered
    rw [lookup]
    exact congrArg List.singleton (madeLookup_of_ofFind made).moduleName
  · next lookup =>
    rw [contexts_of_ne_find found rfl lookup] at gathered
    obtain ⟨media, sent, gathered⟩ := bind_eq_ok.mp gathered
    rw [bodySchema?_of_media sent]
    exact (map_eq_map_of_mapM (fun given => (made_of_ofVariant given).moduleName) gathered).trans
      (Variant.map_moduleName_all _ _ _ _)

/-- The modules of an operation have paths of their own if it is a lookup, and otherwise exactly if
its variants are told apart by their names. -/
theorem nodup_paths_iff {modules : List File} (found : request.placed = .ok placed)
    (made : generate request = .ok modules) :
    (modules.map File.path).Nodup ↔ request.effectiveKind placed = .find ∨
      ToldApart (bodySchema? request placed) request.parameters.operationName := by
  obtain ⟨given, gathered, returned⟩ := bind_eq_ok.mp made
  cases returned
  obtain ⟨_, again, each⟩ := recordOf_of_contexts gathered
  cases found.symm.trans again
  have names := map_moduleName_contexts found gathered
  have paths := Generation.nodup_paths_iff (List.forall_mem_map.mpr each)
  rw [List.map_map, List.map_map] at paths
  rw [List.map_map]
  refine paths.trans ((iff_of_eq (congrArg List.Nodup names)).trans ?_)
  unfold moduleNames
  split
  · next lookup => exact iff_of_true (List.nodup_singleton _) (Or.inl lookup)
  · next lookup => rw [or_iff_right lookup, ← Variant.nodup_names_iff]

end ServiceForge.Sdk

namespace ServiceForge.Cli

open ServiceForge.Generation
open ServiceForge.OpenApi (PlacedOperation)

section Commands

variable {sdkCrate : String} {request : OperationRequest} {placed : PlacedOperation}

theorem map_moduleName_contexts {given : List Context} (found : request.placed = .ok placed)
    (gathered : contexts sdkCrate request = .ok given) :
    given.map Context.moduleName = Variant.names (bodySchema? request placed)
      (request.moduleName (request.effectiveKind placed)) request.parameters.operationName := by
  rw [contexts_of_placed found rfl] at gathered
  obtain ⟨media, sent, gathered⟩ := bind_eq_ok.mp gathered
  rw [bodySchema?_of_media sent]
  exact map_eq_map_of_mapM (fun given => (made_of_ofVariant given).moduleName) gathered

/-- The commands of an operation have paths of their own exactly if its variants are told apart by
their names. -/
theorem nodup_paths_iff {commands : List File} (found : request.placed = .ok placed)
    (made : generate sdkCrate request = .ok commands) :
    (commands.map File.path).Nodup ↔
      ToldApart (bodySchema? request placed) request.parameters.operationName := by
  obtain ⟨given, gathered, returned⟩ := bind_eq_ok.mp made
  cases returned
  obtain ⟨_, again, each⟩ := recordOf_of_contexts gathered
  cases found.symm.trans again
  have names := map_moduleName_contexts found gathered
  have paths := Generation.nodup_paths_iff (List.forall_mem_map.mpr each)
  rw [List.map_map, List.map_map] at paths
  rw [List.map_map, ← Variant.nodup_names_iff]
  exact paths.trans (iff_of_eq (congrArg List.Nodup names))

end Commands

end ServiceForge.Cli

namespace ServiceForge.Generation

open ServiceForge.OpenApi (PathItem PlacedOperation Schema)

/-- The files that an operation is generated to have paths of their own exactly if its variants are
told apart: those of actions by their words, unless one of them is chosen, and those of other
branches by the letters and digits of their versions. A lookup has one file. -/
theorem variant_paths_distinct_iff {request : OperationRequest} {placed : PlacedOperation}
    (sdkCrate : String) (found : request.placed = .ok placed) :
    (∀ modules, Sdk.generate request = .ok modules →
      ((modules.map File.path).Nodup ↔ request.effectiveKind placed = .find ∨
        ToldApart (bodySchema? request placed) request.parameters.operationName)) ∧
      ∀ commands, Cli.generate sdkCrate request = .ok commands →
        ((commands.map File.path).Nodup ↔
          ToldApart (bodySchema? request placed) request.parameters.operationName) :=
  ⟨fun _ made => Sdk.nodup_paths_iff found made, fun _ made => Cli.nodup_paths_iff found made⟩

/-- A zone with one property, which can be made so since some version. -/
def zoneSince (name version : String) : Schema where
  type := some (.single "object")
  properties := [(name, .ofType "string")]
  rest := [(OpenApi.annotationKey, .object [("min-ver", .string version)])]

/-- The operation that makes a zone in one of two ways. -/
def createZone (first second : String) : OpenApi.Operation where
  id := some "create"
  requestBody := some { content := [(OpenApi.MediaType.json, { schema := some {
    oneOf := [zoneSince "label" first, zoneSince "name" second]
    rest := [(OpenApi.annotationKey, .object [("discriminator", .string "microversion")])] } })] }
  responses := [("204", { description := some "Made" })]

/-- A request for that operation. -/
def createdZone (first second : String) : OperationRequest where
  spec := {
    version := "3.1.0"
    paths := [("/v2/zones", PathItem.setOperation {} .post (createZone first second))] }
  resource := ⟨"dns", "zones"⟩
  operation := "create"

theorem variant_paths_distinct_iff_zone :
    ∃ placed modules commands, (createdZone "2.1" "2.10").placed = .ok placed ∧
      Sdk.generate (createdZone "2.1" "2.10") = .ok modules ∧
      Cli.generate Cli.defaultSdkCrate (createdZone "2.1" "2.10") = .ok commands ∧
      modules.map File.path = ["dns/v2/zones/create_21.rs", "dns/v2/zones/create_210.rs"] ∧
      commands.map File.path = ["dns/v2/zones/create_21.rs", "dns/v2/zones/create_210.rs"] ∧
      ToldApart (bodySchema? (createdZone "2.1" "2.10") placed) none := by
  have library : (Sdk.generate (createdZone "2.1" "2.10")).toOption.map (List.map File.path) =
      some ["dns/v2/zones/create_21.rs", "dns/v2/zones/create_210.rs"] := by decide +kernel
  have tool : (Cli.generate Cli.defaultSdkCrate (createdZone "2.1" "2.10")).toOption.map
      (List.map File.path) =
        some ["dns/v2/zones/create_21.rs", "dns/v2/zones/create_210.rs"] := by decide +kernel
  obtain ⟨modules, made, paths⟩ := Option.map_eq_some_iff.mp library
  obtain ⟨commands, wrapped, pathsToo⟩ := Option.map_eq_some_iff.mp tool
  have both := variant_paths_distinct_iff Cli.defaultSdkCrate
    (rfl : (createdZone "2.1" "2.10").placed = .ok _)
  refine ⟨_, modules, commands, rfl, toOption_eq_some.mp made, toOption_eq_some.mp wrapped, paths,
    pathsToo, (both.2 commands (toOption_eq_some.mp wrapped)).mp ?_⟩
  rw [pathsToo]
  decide

/-- Ways of making a zone that came with one version share a file, and so do those of versions that
differ in their points. -/
theorem variant_paths_repeated :
    (∀ generated ∈ [Sdk.generate (createdZone "2.1" "2.1"),
        Cli.generate Cli.defaultSdkCrate (createdZone "2.1" "2.1")],
      generated.toOption.map (List.map File.path) =
        some ["dns/v2/zones/create_21.rs", "dns/v2/zones/create_21.rs"]) ∧
      (Sdk.generate (createdZone "1.11" "11.1")).toOption.map (List.map File.path) =
        some ["dns/v2/zones/create_111.rs", "dns/v2/zones/create_111.rs"] := by
  refine ⟨?_, by decide +kernel⟩
  decide +kernel

end ServiceForge.Generation
