/-
This file proves that services are generated apart from each other. The files of a run over
one service are those that a run over all services gives it, its lists of modules included,
as long as no other service has the name of its directory.
-/

import Mathlib.Data.List.Flatten
import ServiceForge.Proofs.Project.Trees

namespace ServiceForge.Generation

/-! ### Parts of an index -/

theorem Directories.Ascending.filter {directories : Directories} (ascending : directories.Ascending)
    (keep : List String × List String → Bool) : Ascending (directories.filter keep) :=
  ⟨ascending.inOrder.filter keep,
    fun entry member => ascending.children entry (List.mem_filter.mp member).1⟩

section Filter

variable {directories : Directories} {keep : List String → Bool}

theorem Directories.mem_present_filter {directory : List String} :
    directory ∈ Directories.present (directories.filter fun entry => keep entry.1) ↔
      directory ∈ directories.present ∧ keep directory = true := by
  simp only [Directories.present, List.mem_map, List.mem_filter]
  constructor
  · rintro ⟨entry, ⟨member, chosen⟩, rfl⟩
    exact ⟨⟨entry, member, rfl⟩, chosen⟩
  · rintro ⟨⟨entry, member, rfl⟩, chosen⟩
    exact ⟨entry, ⟨member, chosen⟩, rfl⟩

theorem Directories.lists_filter {link : Link} :
    Directories.lists (directories.filter fun entry => keep entry.1) link = true ↔
      directories.lists link = true ∧ keep link.directory = true := by
  simp only [Directories.mem_lists, List.mem_filter]
  constructor
  · rintro ⟨children, ⟨member, chosen⟩, inside⟩
    exact ⟨⟨children, member, inside⟩, chosen⟩
  · rintro ⟨⟨children, member, inside⟩, chosen⟩
    exact ⟨children, ⟨member, chosen⟩, inside⟩

end Filter

namespace ModuleIndex

variable {records : List ModuleRecord}

theorem lists_iff {link : Link} :
    (ofRecords records).entries.lists link = true ↔
      link.directory ≠ [] ∧
        ((⟨link.directory, link.child⟩ : ModuleRecord) ∈ records ∨
          ∃ record ∈ records, link.directory ++ [link.child] <+: record.directory) := by
  refine ⟨fun listed => ?_, fun ⟨filled, reached⟩ => (lists_ofRecords filled).mpr reached⟩
  have present := Directories.present_of_lists listed
  rw [← (ascending_ofRecords records).isSome_lookup] at present
  have filled := (isSome_children?.mp present).1
  exact ⟨filled, (lists_ofRecords filled).mp listed⟩

theorem mem_present_iff {directory : List String} :
    directory ∈ (ofRecords records).entries.present ↔
      directory ≠ [] ∧ ∃ record ∈ records, directory <+: record.directory :=
  (ascending_ofRecords records).isSome_lookup.symm.trans isSome_children?

/-- Modules that are chosen by the top of their directories have the part of an index that is
chosen so. -/
theorem entries_filter {keep : List String → Bool}
    (top : ∀ upper lower, upper ≠ [] → upper <+: lower → keep lower = keep upper) :
    (ofRecords (records.filter fun record => keep record.directory)).entries =
      (ofRecords records).entries.filter fun entry => keep entry.1 := by
  have below : ∀ {directory : List String}, directory ≠ [] → ∀ {record : ModuleRecord},
      directory <+: record.directory → (keep record.directory = true ↔ keep directory = true) :=
    fun filled _ above => iff_of_eq (congrArg (· = true) (top _ _ filled above))
  -- Ascending directories are told by what they list, so both sides are compared link by link.
  refine (ascending_ofRecords _).eq_of_lists ((ascending_ofRecords records).filter _)
    (fun directory => ?_) fun link => ?_
  · rw [Directories.mem_present_filter, mem_present_iff, mem_present_iff, and_assoc]
    refine and_congr_right fun filled => ⟨?_, ?_⟩
    · rintro ⟨record, member, above⟩
      obtain ⟨member, chosen⟩ := List.mem_filter.mp member
      exact ⟨⟨record, member, above⟩, (below filled above).mp chosen⟩
    · rintro ⟨⟨record, member, above⟩, chosen⟩
      exact ⟨record, List.mem_filter.mpr ⟨member, (below filled above).mpr chosen⟩, above⟩
  · rw [Directories.lists_filter, lists_iff, lists_iff, and_assoc]
    refine and_congr_right fun filled => ⟨?_, ?_⟩
    · rintro (member | ⟨record, member, above⟩)
      · obtain ⟨member, chosen⟩ := List.mem_filter.mp member
        exact ⟨Or.inl member, chosen⟩
      · obtain ⟨member, chosen⟩ := List.mem_filter.mp member
        exact ⟨Or.inr ⟨record, member, above⟩,
          (below filled ((List.prefix_append _ _).trans above)).mp chosen⟩
    · rintro ⟨member | ⟨record, member, above⟩, chosen⟩
      · exact Or.inl (List.mem_filter.mpr ⟨member, chosen⟩)
      · exact Or.inr ⟨record, List.mem_filter.mpr
          ⟨member, (below filled ((List.prefix_append _ _).trans above)).mpr chosen⟩, above⟩

end ModuleIndex

end ServiceForge.Generation

namespace ServiceForge.Project

open ServiceForge.Generation (File ModuleIndex ModuleRecord OperationRequest)
open ServiceForge.Text

/-! ### Selected services -/

/-- What chosen items give is chosen from what all of them give. -/
theorem flatMap_filter_of_forall {α β : Type} {items : List α} {give : α → List β}
    {chosen : α → Bool} {keep : β → Bool}
    (each : ∀ item ∈ items, ∀ result ∈ give item, keep result = chosen item) :
    (items.filter chosen).flatMap give = (items.flatMap give).filter keep := by
  induction items with
  | nil => rfl
  | cons first rest inductionHypothesis =>
    obtain ⟨here, later⟩ := List.forall_mem_cons.mp each
    rw [List.flatMap_cons, List.filter_append, ← inductionHypothesis later]
    by_cases taken : chosen first = true
    · rw [List.filter_cons_of_pos taken, List.flatMap_cons]
      refine congrArg (· ++ _) (List.filter_eq_self.mpr fun result member => ?_).symm
      rw [here result member, taken]
    · rw [List.filter_cons_of_neg taken]
      refine (congrArg (· ++ _) (List.filter_eq_nil_iff.mpr fun result member => ?_)).symm
      rw [here result member]
      exact taken

section Pairs

variable {target : Target} {resources : List (Resource.Id × ResourceEntry)}

theorem mem_of_mem_pairs {pair : Pair} (member : pair ∈ pairs target resources) :
    (pair.resource, pair.entry) ∈ resources := by
  obtain ⟨entry, inside, member⟩ := List.mem_flatMap.mp member
  obtain ⟨operation, -, made⟩ := List.mem_filterMap.mp member
  obtain ⟨parameters, -, rfl⟩ := Option.map_eq_some_iff.mp made
  exact inside

/-- The pairs of chosen resources are those whose resource is chosen. -/
theorem pairs_filter (chosen : Resource.Id → Bool) :
    pairs target (resources.filter fun entry => chosen entry.1) =
      (pairs target resources).filter fun pair => chosen pair.resource := by
  refine flatMap_filter_of_forall fun entry _ pair member => ?_
  obtain ⟨operation, -, made⟩ := List.mem_filterMap.mp member
  obtain ⟨parameters, -, rfl⟩ := Option.map_eq_some_iff.mp made
  rfl

end Pairs

/-- The modules of chosen pairs are chosen by their directories, if the directories are chosen as
the pairs are. -/
theorem filterMap_record_filter {all : List Pair} {given : Pair → List File}
    {keep : List String → Bool} {chosen : Pair → Bool}
    (each : ∀ pair ∈ all, ∀ file ∈ given pair, ∃ record, file.record = some record ∧
      keep record.directory = chosen pair) :
    ((all.filter chosen).flatMap given).filterMap File.record =
      ((all.flatMap given).filterMap File.record).filter fun record => keep record.directory := by
  rw [List.filterMap_flatMap, List.filterMap_flatMap]
  refine flatMap_filter_of_forall fun pair inside record held => ?_
  obtain ⟨file, member, isRecord⟩ := List.mem_filterMap.mp held
  obtain ⟨_, same, taken⟩ := each pair inside file member
  cases isRecord.symm.trans same
  exact taken

/-- The request for the services that start in a way. -/
def Request.ofServices (request : Request) (start : String) : Request :=
  { request with serviceFilter := some start }

theorem selection_ofServices {request : Request} (every : request.serviceFilter = none)
    (start : String) (metadata : Metadata) :
    (request.ofServices start).selection metadata =
      (request.selection metadata).filter fun entry => startsWith start entry.1.service := by
  rw [Request.selection, Request.selection, List.filter_filter]
  refine List.filter_congr fun entry _ => ?_
  rw [Request.selects, Request.selects, every]
  rfl

theorem pairs_ofServices {request : Request} (every : request.serviceFilter = none)
    (start : String) (metadata : Metadata) :
    pairs (request.ofServices start).target ((request.ofServices start).selection metadata) =
      (pairs request.target (request.selection metadata)).filter fun pair =>
        startsWith start pair.resource.service := by
  rw [selection_ofServices every]
  exact pairs_filter fun resource => startsWith start resource.service

theorem select_of_some {request : Request} {metadata : Metadata}
    (some : request.selection metadata ≠ []) :
    request.select metadata = .ok (request.selection metadata) := by
  rw [Request.select, List.isEmpty_eq_false_iff.mpr some]
  rfl

/-! ### Directories of services -/

section Directories

variable {start : String} {resources : List (Resource.Id × ResourceEntry)}

/-- The directories of the services that start in a way. -/
def serviceDirectories (start : String) (resources : List (Resource.Id × ResourceEntry)) :
    List String :=
  (resources.filter fun entry => startsWith start entry.1.service).map fun entry =>
    Naming.moduleName entry.1.service

/-- Whether a directory is one of those at the top or below one of them. -/
def isBelow (tops : List String) (directory : List String) : Bool :=
  directory.head?.any tops.contains

theorem isBelow_eq_of_above (tops : List String) (upper lower : List String) (filled : upper ≠ [])
    (above : upper <+: lower) : isBelow tops lower = isBelow tops upper := by
  obtain ⟨rest, rfl⟩ := above
  rw [isBelow, List.head?_append_of_ne_nil upper filled, isBelow]

/-- Whether services that start in a way have other directories than those that do not. -/
def ServicesApart (start : String) (resources : List (Resource.Id × ResourceEntry)) : Prop :=
  ∀ first ∈ resources, ∀ second ∈ resources,
    startsWith start first.1.service = true → startsWith start second.1.service = false →
      Naming.moduleName first.1.service ≠ Naming.moduleName second.1.service

instance (start : String) (resources : List (Resource.Id × ResourceEntry)) :
    Decidable (ServicesApart start resources) :=
  inferInstanceAs (Decidable (∀ first ∈ resources, ∀ second ∈ resources, _))

theorem contains_serviceDirectories (apart : ServicesApart start resources)
    {entry : Resource.Id × ResourceEntry} (member : entry ∈ resources) :
    (serviceDirectories start resources).contains (Naming.moduleName entry.1.service) =
      startsWith start entry.1.service := by
  cases starts : startsWith start entry.1.service with
  | true =>
    rw [List.contains_iff_mem]
    exact List.mem_map.mpr ⟨entry, List.mem_filter.mpr ⟨member, starts⟩, rfl⟩
  | false =>
    refine Bool.eq_false_iff.mpr fun held => ?_
    obtain ⟨other, inside, same⟩ := List.mem_map.mp (List.contains_iff_mem.mp held)
    obtain ⟨inside, startsOther⟩ := List.mem_filter.mp inside
    exact apart other inside entry member startsOther starts same

end Directories

/-- A run over the services that start in a way gives the modules that a run over all services
gives their resources, in the same order, and lists those modules in the same files, unless a
service that starts in this way has the directory of one that does not. -/
theorem services_files {session : Session} {config : Config} {request : Request}
    {path start : String} {metadata : Metadata}
    {generate : OperationRequest → Except GenerationError (List File)}
    (reads : request.ReadsMetadata path)
    (generator : operationGenerator? config request.target = some generate)
    (every : request.serviceFilter = none) (unnamed : request.resourceFilter = none)
    (document : session.document Metadata.read path = .ok metadata)
    (own : ∀ pair ∈ pairs request.target (request.selection metadata),
      pair.parameters.modulePath = none)
    (apart : ServicesApart start (request.selection metadata))
    (some : ∃ entry ∈ request.selection metadata, startsWith start entry.1.service = true)
    (done : (plan session config request).rendering.failure = none) :
    let all := pairs request.target (request.selection metadata)
    let directories := serviceDirectories start (request.selection metadata)
    ∃ given : Pair → List File,
      let index := ModuleIndex.ofRecords ((all.flatMap given).filterMap File.record)
      (∀ pair ∈ all, pair.files session (FilePath.directory path) generate = .ok (given pair)) ∧
        (plan session config request).rendering.files = all.flatMap given ++
          index.entries.map (fun (directory, children) =>
            ModuleIndex.fileOfEntry directory children) ∧
        (plan session config (request.ofServices start)).rendering.failure = none ∧
        (plan session config (request.ofServices start)).rendering.files =
          (all.filter fun pair => startsWith start pair.resource.service).flatMap given ++
            (index.entries.filter fun entry => isBelow directories entry.1).map
              fun (directory, children) => ModuleIndex.fileOfEntry directory children := by
  intro all directories
  obtain ⟨first, member, starts⟩ := some
  have selected := select_of_some (List.ne_nil_of_mem member)
  have filled : (request.ofServices start).selection metadata ≠ [] := by
    rw [selection_ofServices every]
    exact List.ne_nil_of_mem (List.mem_filter.mpr ⟨member, starts⟩)
  obtain ⟨given, each⟩ := given_of_plan reads generator document selected done
  have eachPart : ∀ pair ∈ pairs (request.ofServices start).target
        ((request.ofServices start).selection metadata),
      pair.files session (FilePath.directory path) generate = .ok (given pair) := by
    rw [pairs_ofServices every]
    exact fun pair inside => each pair (List.mem_filter.mp inside).1
  have readsPart : (request.ofServices start).ReadsMetadata path :=
    ⟨reads.descriptors, reads.className, reads.several, reads.metadata⟩
  obtain ⟨donePart, filesPart⟩ :=
    plan_of_given readsPart generator document (select_of_some filled) unnamed eachPart
  have chosen : ∀ pair ∈ all, ∀ file ∈ given pair, ∃ record, file.record = .some record ∧
      isBelow directories record.directory = startsWith start pair.resource.service := by
    intro pair inside file held
    obtain ⟨record, isRecord, top⟩ :=
      head?_of_files generator (each pair inside) held (own pair inside)
    have among := contains_serviceDirectories apart (mem_of_mem_pairs inside)
    exact ⟨record, isRecord, by rw [isBelow, top, Option.any_some, among]⟩
  refine ⟨given, each, (plan_of_given reads generator document selected unnamed each).2,
    donePart, ?_⟩
  rw [filesPart, pairs_ofServices every, tree, filterMap_record_filter chosen,
    ModuleIndex.files, ModuleIndex.entries_filter (isBelow_eq_of_above directories)]

/-- Zones and images, which are resources of two services. -/
def zonesAndImages : Session := { shownZones with
  workspace := {
    current := []
    directories := []
    files := [(["v2.yaml"], ""), (["metadata.yaml"],
      "resources:\n" ++
      " dns.zones:\n" ++
      "  spec_file: v2.yaml\n" ++
      "  operations:\n" ++
      "   list:\n" ++
      "    operation_id: list\n" ++
      "    targets:\n" ++
      "     sdk:\n" ++
      " image.images:\n" ++
      "  spec_file: v2.yaml\n" ++
      "  operations:\n" ++
      "   list:\n" ++
      "    operation_id: list\n" ++
      "    targets:\n" ++
      "     sdk:\n")] } }

theorem services_files_dns :
    let whole := (plan zonesAndImages {} zonesRequest).rendering
    let part := (plan zonesAndImages {} (zonesRequest.ofServices "dns")).rendering
    whole.files.map File.path =
        ["dns/v2/zones/list.rs", "image/v2/images/list.rs", "dns/mod.rs", "dns/v2/mod.rs",
          "dns/v2/zones/mod.rs", "image/mod.rs", "image/v2/mod.rs", "image/v2/images/mod.rs"] ∧
      part.failure = none ∧
      part.files.map File.path =
        ["dns/v2/zones/list.rs", "dns/mod.rs", "dns/v2/mod.rs", "dns/v2/zones/mod.rs"] ∧
      part.files.Sublist whole.files := by
  have ran : ((zonesAndImages.document Metadata.read "metadata.yaml").toOption.any fun metadata =>
        (∀ pair ∈ pairs .sdk (zonesRequest.selection metadata),
            pair.parameters.modulePath = none) ∧
          ServicesApart "dns" (zonesRequest.selection metadata) ∧
          ∃ entry ∈ zonesRequest.selection metadata,
            startsWith "dns" entry.1.service = true) = true ∧
      (plan zonesAndImages {} zonesRequest).rendering.failure.isNone = true ∧
      (plan zonesAndImages {} zonesRequest).rendering.files.map File.path =
        ["dns/v2/zones/list.rs", "image/v2/images/list.rs", "dns/mod.rs", "dns/v2/mod.rs",
          "dns/v2/zones/mod.rs", "image/mod.rs", "image/v2/mod.rs", "image/v2/images/mod.rs"] ∧
      (plan zonesAndImages {} (zonesRequest.ofServices "dns")).rendering.files.map File.path =
        ["dns/v2/zones/list.rs", "dns/mod.rs", "dns/v2/mod.rs", "dns/v2/zones/mod.rs"] := by
    decide +kernel
  obtain ⟨read, done, paths, pathsPart⟩ := ran
  obtain ⟨metadata, document, checked⟩ := (Option.any_eq_true _ _).mp read
  obtain ⟨own, apart, some⟩ := of_decide_eq_true checked
  obtain ⟨given, -, files, donePart, filesPart⟩ :=
    services_files readsMetadata_zones rfl rfl rfl (toOption_eq_some.mp document) own apart some
      (Option.isNone_iff_eq_none.mp done)
  refine ⟨paths, donePart, pathsPart, ?_⟩
  rw [files, filesPart]
  exact (List.filter_sublist.flatMap given).append (List.filter_sublist.map _)

end ServiceForge.Project
