/-
This file proves what a lookup that is added to metadata has in common with the modules
that it builds requests of. It stands beside the module that shows the resource and calls
only setters of members that this module has. Beside the module that lists it stands only
if the versions of the two paths agree, and it calls only setters of members of that module
exactly if the parameters of the two paths are spelled alike.
-/

import ServiceForge.Proofs.Metadata.Representation
import ServiceForge.Proofs.Project.Modes
import ServiceForge.Proofs.Sdk.LookupCalls

namespace ServiceForge.Metadata

open ServiceForge.OpenApi (PlacedOperation Spec)

/-! ### Kinds of entries -/

/-- An entry under another name than that of lookups is of another kind. -/
theorem kind_ne_find_of_mem {placed : PlacedOperation} {operation leaf : String} {kind : Kind}
    {entry : String × OperationEntry} (member : entry ∈ entriesOf placed operation kind leaf)
    (apart : entry.1 ≠ Kind.find.name) : kind ≠ .find := by
  rintro rfl
  have single : isActionUnion .find (bodySchema? placed) = false := rfl
  rw [entriesOf_single single, List.mem_singleton] at member
  subst member
  exact apart (by decide : Naming.moduleName Kind.find.name = Kind.find.name)

variable {spec : Spec} {service specFile : String} {apiVersion : Option String}
  {metadata : Metadata} {key : String} {resource : ResourceEntry}

/-- An entry of a resource is made from an operation, or it is the lookup of the entries that list
and show the resource. -/
theorem entry_cases (synthesized : synthesize spec service specFile apiVersion = .ok metadata)
    (found : metadata.resources.get? key = some resource) {entry : String × OperationEntry}
    (member : entry ∈ resource.operations) :
    (∃ operation : Classified, entry ∈ operation.entries) ∨
      ∃ list showItem, (Kind.list.name, list) ∈ resource.operations ∧
        (Kind.showItem.name, showItem) ∈ resource.operations ∧
          entry = (Kind.find.name, findEntry list showItem) := by
  rw [contents_of_synthesize synthesized] at found
  obtain ⟨held, isHeld, rfl⟩ := Option.map_eq_some_iff.mp found
  rw [addFind_eq] at member ⊢
  rcases List.mem_append.mp member with own | added
  · rw [(resourceOf?_eq_some isHeld).2.1] at own
    obtain ⟨operation, -, inside⟩ := List.mem_flatMap.mp own
    exact Or.inl ⟨operation, inside⟩
  · obtain ⟨-, list, showItem, isList, isShown, same⟩ := eq_of_mem_lookupsOf added
    exact Or.inr ⟨list, showItem, List.mem_append_left _ (OrderedMap.mem_of_get? isList),
      List.mem_append_left _ (OrderedMap.mem_of_get? isShown), same⟩

theorem nodup_operations (synthesized : synthesize spec service specFile apiVersion = .ok metadata)
    (found : metadata.resources.get? key = some resource) : resource.operations.keys.Nodup := by
  obtain ⟨resources, -, gathers⟩ := gathers_of_synthesize synthesized
  rw [contents_of_synthesize synthesized] at found
  obtain ⟨held, isHeld, rfl⟩ := Option.map_eq_some_iff.mp found
  rw [addFind_eq, (resourceOf?_eq_some isHeld).2.1]
  exact nodup_keys_lookups (gathers.keys key)

end ServiceForge.Metadata

namespace ServiceForge.Project

open ServiceForge.Generation (OperationRequest)
open ServiceForge.Metadata
open ServiceForge.OpenApi (PathItem PlacedOperation Spec)
open ServiceForge.Sdk (ParentsSpelled pathParameter)
open ServiceForge.Source (EndsWithLines HasLines)

/-! ### Pairs of a resource -/

theorem mem_pairs_single {resource : Resource.Id} {held : ResourceEntry} {pair : Pair}
    (member : pair ∈ pairs .sdk [(resource, held)]) :
    pair.resource = resource ∧ pair.entry = held ∧ (pair.key, pair.operation) ∈ held.operations ∧
      pair.operation.targets.lookup .sdk = some pair.parameters := by
  rw [pairs_sdk, List.flatMap_singleton] at member
  obtain ⟨entry, inside, made⟩ := List.mem_filterMap.mp member
  obtain ⟨parameters, chosen, rfl⟩ := Option.map_eq_some_iff.mp made
  exact ⟨rfl, rfl, inside, chosen⟩

variable {spec : Spec} {service specFile key : String} {apiVersion : Option String}
  {metadata : Metadata} {resource : ResourceEntry}

/-- Whether a pair stands in the directory of its resource and is generated as the kind of its
entry. -/
structure Regular (pair : Pair) (kind : Kind) : Prop where
  modulePath : pair.parameters.modulePath = none
  parametersKind : pair.parameters.kind = none
  kind : pair.operation.kind = some kind

/-- A pair made from an entry of an operation is no added lookup, and of another kind if it has
another name. -/
theorem regular_of_entry {pair : Pair} {operation : Classified}
    (member : (pair.key, pair.operation) ∈ operation.entries)
    (chosen : pair.operation.targets.lookup .sdk = some pair.parameters) :
    pair.parameters.listOperation = none ∧ Regular pair operation.kind ∧
      (pair.key ≠ Kind.find.name → operation.kind ≠ .find) := by
  obtain ⟨moduleName, requestKey, operationName, same⟩ := eq_of_mem_entriesOf member
  have parameters : pair.parameters = entryParameters operation.placed operation.resource.leaf
      moduleName requestKey operationName := by
    have looked := chosen
    rw [show pair.operation = _ from same] at looked
    exact (Option.some.inj looked).symm
  have regular : Regular pair operation.kind :=
    ⟨congrArg TargetParameters.modulePath parameters, congrArg TargetParameters.kind parameters,
      congrArg OperationEntry.kind same⟩
  exact ⟨congrArg TargetParameters.listOperation parameters, regular, kind_ne_find_of_mem member⟩

section Requests

variable {pair : Pair} {kind : Kind}

theorem Regular.effectiveKind (regular : Regular pair kind) (placed : PlacedOperation) :
    (pair.request spec).effectiveKind placed = kind := by
  unfold OperationRequest.effectiveKind Pair.request
  rw [regular.parametersKind, regular.kind]
  rfl

theorem Regular.directory (regular : Regular pair kind) (placed : PlacedOperation) :
    (pair.request spec).directory placed =
      ([pair.resource.service, (pair.request spec).version placed] ++
        pair.resource.segments).map Naming.moduleName := by
  unfold OperationRequest.directory
  rw [show (pair.request spec).parameters.modulePath = none from regular.modulePath]
  rfl

end Requests

/-! ### Added lookups -/

/-- An added lookup of a resource with the pairs that list and show the resource. -/
structure Wraps (find list shown : Pair) : Prop where
  looksUp : Regular find .find
  lists : ∃ kind ≠ Kind.find, Regular list kind
  shows : ∃ kind ≠ Kind.find, Regular shown kind
  operation : find.operation.operation = shown.operation.operation
  sameShown : shown.resource = find.resource ∧ shown.entry = find.entry
  sameList : list.resource = find.resource

/-- A lookup is added for the operation that shows the resource. -/
theorem wraps_of_synthesize
    (synthesized : synthesize spec service specFile apiVersion = .ok metadata)
    (found : metadata.resources.get? key = some resource) {find list shown : Pair}
    (given : ∀ pair ∈ [find, list, shown], pair ∈ pairs .sdk [(Resource.Id.ofKey key, resource)])
    (added : find.parameters.listOperation.isSome = true)
    (listKey : list.key = Kind.list.name) (shownKey : shown.key = Kind.showItem.name) :
    Wraps find list shown := by
  simp only [List.forall_mem_cons] at given
  obtain ⟨findGiven, listGiven, shownGiven, -⟩ := given
  obtain ⟨findResource, findEntry, findHeld, findChosen⟩ := mem_pairs_single findGiven
  obtain ⟨listResource, -, listHeld, listChosen⟩ := mem_pairs_single listGiven
  obtain ⟨shownResource, shownEntry, shownHeld, shownChosen⟩ := mem_pairs_single shownGiven
  have plain : ∀ pair : Pair, (pair.key, pair.operation) ∈ resource.operations →
      pair.operation.targets.lookup .sdk = some pair.parameters → pair.key ≠ Kind.find.name →
        ∃ kind ≠ Kind.find, Regular pair kind := by
    intro pair held chosen apart
    rcases entry_cases synthesized found held with ⟨operation, own⟩ | ⟨_, _, -, -, same⟩
    · obtain ⟨-, regular, other⟩ := regular_of_entry own chosen
      exact ⟨operation.kind, other apart, regular⟩
    · exact absurd (Prod.mk.inj same).1 apart
  rcases entry_cases synthesized found findHeld with ⟨operation, own⟩ | ⟨_, showItem, -, isShown, same⟩
  · rw [(regular_of_entry own findChosen).1] at added
    cases added
  obtain ⟨-, entry⟩ := Prod.mk.inj same
  have parameters : some _ = some find.parameters := entry ▸ findChosen
  have showItemEntry : shown.operation = showItem := by
    have distinct := nodup_operations synthesized found
    have first := OrderedMap.get?_of_mem distinct shownHeld
    rw [shownKey, OrderedMap.get?_of_mem distinct isShown] at first
    exact (Option.some.inj first).symm
  refine ⟨⟨?_, ?_, ?_⟩, plain list listHeld listChosen ?_, plain shown shownHeld shownChosen ?_, ?_,
    ⟨shownResource.trans findResource.symm, shownEntry.trans findEntry.symm⟩,
    listResource.trans findResource.symm⟩
  · exact (congrArg TargetParameters.modulePath (Option.some.inj parameters)).symm
  · exact (congrArg TargetParameters.kind (Option.some.inj parameters)).symm
  · exact congrArg OperationEntry.kind entry
  · rw [listKey]
    decide
  · rw [shownKey]
    decide
  · rw [showItemEntry]
    exact (congrArg OperationEntry.operation entry :)

section Wraps

variable {find list shown : Pair} (wraps : Wraps find list shown)

include wraps

theorem Wraps.placed (spec : Spec) : (shown.request spec).placed = (find.request spec).placed := by
  unfold OperationRequest.placed Pair.request
  rw [wraps.operation]

/-- A lookup stands beside the module that shows the resource. -/
theorem Wraps.directory_shown (spec : Spec) (placed : PlacedOperation) :
    (shown.request spec).directory placed = (find.request spec).directory placed := by
  obtain ⟨kind, -, regular⟩ := wraps.shows
  have version : (shown.request spec).version placed = (find.request spec).version placed := by
    unfold OperationRequest.version Pair.request
    rw [wraps.sameShown.2]
  rw [regular.directory, wraps.looksUp.directory, wraps.sameShown.1, version]

/-- A lookup stands beside the module that lists the resource if their versions agree. -/
theorem Wraps.directory_list_iff (spec : Spec) (placed listed : PlacedOperation) :
    (list.request spec).directory listed = (find.request spec).directory placed ↔
      Naming.moduleName ((list.request spec).version listed) =
        Naming.moduleName ((find.request spec).version placed) := by
  obtain ⟨kind, -, regular⟩ := wraps.lists
  rw [regular.directory, wraps.looksUp.directory, wraps.sameList]
  simp

/-- How the modules of a lookup go with those that list and show the resource. -/
theorem Wraps.calls {finds lists shows : List Sdk.Context}
    (madeFind : Sdk.contexts (find.request spec) = .ok finds)
    (madeList : Sdk.contexts (list.request spec) = .ok lists)
    (madeShown : Sdk.contexts (shown.request spec) = .ok shows) :
    ∃ placed listed, (find.request spec).placed = .ok placed ∧
      (list.request spec).placed = .ok listed ∧
      ∀ context ∈ finds,
        (∀ library ∈ shows, library.directory = context.directory ∧
          ∀ name ∈ context.showCalls, name ∈ library.memberNames) ∧
        ∀ library ∈ lists,
          (library.directory = context.directory ↔
            Naming.moduleName ((list.request spec).version listed) =
              Naming.moduleName ((find.request spec).version placed)) ∧
          ((∀ name ∈ context.listCalls, name ∈ library.memberNames) ↔
            ParentsSpelled (find.request spec) placed (list.request spec) listed library.body) := by
  obtain ⟨placed, placedFind, looked⟩ := Sdk.madeLookup_of_contexts madeFind
    fun placed => wraps.looksUp.effectiveKind placed
  obtain ⟨listed, placedList, -⟩ := bind_eq_ok.mp madeList
  have placedShown : (shown.request spec).placed = .ok placed := (wraps.placed spec).trans placedFind
  refine ⟨placed, listed, placedFind, placedList, fun context member => ⟨?_, ?_⟩⟩
  · intro library held
    obtain ⟨kind, apart, regular⟩ := wraps.shows
    obtain ⟨named, -⟩ := Sdk.membersNamed_of_contexts placedShown madeShown held
    refine ⟨?_, (looked context member).showCalls_mem wraps.sameShown.1 ?_ named⟩
    · rw [Sdk.directory_of_contexts placedShown madeShown held, (looked context member).directory,
        wraps.directory_shown]
    · rw [regular.effectiveKind]
      exact apart
  · intro library held
    obtain ⟨named, wireNames, body⟩ := Sdk.membersNamed_of_contexts placedList madeList held
    refine ⟨?_, (looked context member).listCalls_mem_iff named body⟩
    rw [Sdk.directory_of_contexts placedList madeList held, (looked context member).directory]
    exact wraps.directory_list_iff spec placed listed

end Wraps

/-- An added lookup stands beside the module that shows the resource and calls only setters of its
members. It stands beside the module that lists the resource exactly if the versions of the two
paths agree, and calls only setters of its members exactly if each parameter of the path that shows
the resource, the key aside, is spelled like a parameter or a part of the body of the operation that
lists it. -/
theorem lookup_calls_members_iff
    (synthesized : synthesize spec service specFile apiVersion = .ok metadata)
    (found : metadata.resources.get? key = some resource) {find list shown : Pair}
    (given : ∀ pair ∈ [find, list, shown], pair ∈ pairs .sdk [(Resource.Id.ofKey key, resource)])
    (added : find.parameters.listOperation.isSome = true)
    (listKey : list.key = Kind.list.name) (shownKey : shown.key = Kind.showItem.name)
    {finds lists shows : List Sdk.Context}
    (madeFind : Sdk.contexts (find.request spec) = .ok finds)
    (madeList : Sdk.contexts (list.request spec) = .ok lists)
    (madeShown : Sdk.contexts (shown.request spec) = .ok shows) :
    (Sdk.generate (find.request spec) = .ok (finds.map Sdk.Context.file) ∧
      ∀ context ∈ finds, ∀ name, context.findKey = some name →
        EndsWithLines context.file.contents
          (context.getFunction ++ [""] ++ context.listFunction ++ ["\x7d"])) ∧
    (Sdk.generate (list.request spec) = .ok (lists.map Sdk.Context.file) ∧
      Sdk.generate (shown.request spec) = .ok (shows.map Sdk.Context.file) ∧
      ∀ library ∈ shows ++ lists, HasLines library.file.contents library.structLines) ∧
    ∃ placed listed, (find.request spec).placed = .ok placed ∧
      (list.request spec).placed = .ok listed ∧
      ∀ context ∈ finds,
        (∀ library ∈ shows, library.directory = context.directory ∧
          ∀ name ∈ context.showCalls, name ∈ library.memberNames) ∧
        ∀ library ∈ lists,
          (library.directory = context.directory ↔
            Naming.moduleName ((list.request spec).version listed) =
              Naming.moduleName ((find.request spec).version placed)) ∧
          ((∀ name ∈ context.listCalls, name ∈ library.memberNames) ↔
            ParentsSpelled (find.request spec) placed (list.request spec) listed library.body) :=
  ⟨⟨Sdk.generate_of_contexts madeFind,
      fun _ _ _ lookup => Sdk.Context.endsWithLines_functions lookup⟩,
    ⟨Sdk.generate_of_contexts madeList, Sdk.generate_of_contexts madeShown,
      fun library _ => library.hasLines_struct⟩,
    (wraps_of_synthesize synthesized found given added listKey shownKey).calls madeFind madeList
      madeShown⟩

/-- Tags of a zone, which is named by the given parameter where they are listed and deleted, and by
another one in a later version of the path, where they are shown. -/
def tagsSpec (zone : String) : Spec where
  version := "3.1.0"
  paths := [
    ("/v2/zones/\x7b" ++ zone ++ "\x7d/tags", PathItem.setOperation {} .get {
      id := some "list"
      parameters := [pathParameter zone] }),
    ("/v2/zones/\x7b" ++ zone ++ "\x7d/tags/\x7btag_id\x7d", PathItem.setOperation {} .delete {
      id := some "delete"
      parameters := [pathParameter zone, pathParameter "tag_id"] }),
    ("/v2.1/zones/\x7bzone_id\x7d/tags/\x7btag_id\x7d", PathItem.setOperation {} .get {
      id := some "show"
      parameters := [pathParameter "zone_id", pathParameter "tag_id"] })]

/-- The pairs for tags that look them up, list and show them, with their operations and modules. -/
structure Tags (zone : String) where
  metadata : Metadata
  resource : ResourceEntry
  find : Pair
  list : Pair
  shown : Pair
  placed : PlacedOperation
  listed : PlacedOperation
  finds : List Sdk.Context
  lists : List Sdk.Context
  shows : List Sdk.Context

namespace Tags

/-- The tags as they are synthesized. -/
def of? (zone : String) : Option (Tags zone) := do
  let spec := tagsSpec zone
  let metadata ← (synthesize spec "dns" "v2.yaml" none).toOption
  let resource ← metadata.resources.get? "dns.zones/tags"
  let all := pairs .sdk [(Resource.Id.ofKey "dns.zones/tags", resource)]
  let find ← all.find? (·.parameters.listOperation.isSome)
  let list ← all.find? (·.key = Kind.list.name)
  let shown ← all.find? (·.key = Kind.showItem.name)
  return {
    metadata, resource, find, list, shown
    placed := ← (find.request spec).placed.toOption
    listed := ← (list.request spec).placed.toOption
    finds := ← (Sdk.contexts (find.request spec)).toOption
    lists := ← (Sdk.contexts (list.request spec)).toOption
    shows := ← (Sdk.contexts (shown.request spec)).toOption }

/-- Whether the parameters are spelled alike in the only modules that look tags up and list them. -/
def isSpelled? {zone : String} (tags : Tags zone) : Option Bool :=
  match tags.finds, tags.lists with
  | [_], [library] => some (decide (ParentsSpelled (tags.find.request (tagsSpec zone)) tags.placed
      (tags.list.request (tagsSpec zone)) tags.listed library.body))
  | _, _ => none

/-- What the tags are made of. -/
structure IsSynthesized {zone : String} (tags : Tags zone) : Prop where
  synthesized : synthesize (tagsSpec zone) "dns" "v2.yaml" none = .ok tags.metadata
  found : tags.metadata.resources.get? "dns.zones/tags" = some tags.resource
  given : ∀ pair ∈ [tags.find, tags.list, tags.shown],
    pair ∈ pairs .sdk [(Resource.Id.ofKey "dns.zones/tags", tags.resource)]
  added : tags.find.parameters.listOperation.isSome = true
  listKey : tags.list.key = Kind.list.name
  shownKey : tags.shown.key = Kind.showItem.name
  placed : (tags.find.request (tagsSpec zone)).placed = .ok tags.placed
  listed : (tags.list.request (tagsSpec zone)).placed = .ok tags.listed
  madeFind : Sdk.contexts (tags.find.request (tagsSpec zone)) = .ok tags.finds
  madeList : Sdk.contexts (tags.list.request (tagsSpec zone)) = .ok tags.lists
  madeShown : Sdk.contexts (tags.shown.request (tagsSpec zone)) = .ok tags.shows

theorem isSynthesized {zone : String} {tags : Tags zone} (made : of? zone = some tags) :
    tags.IsSynthesized := by
  simp only [of?, Option.bind_eq_bind, Option.bind_eq_some_iff, Option.pure_def,
    Option.some.injEq] at made
  obtain ⟨metadata, synthesized, resource, found, find, isFind, list, isList, shown, isShown, placed,
    isPlaced, listed, isListed, finds, madeFind, lists, madeList, shows, madeShown, rfl⟩ := made
  refine ⟨toOption_eq_some.mp synthesized, found, ?_, by simpa using List.find?_some isFind,
    by simpa using List.find?_some isList, by simpa using List.find?_some isShown,
    toOption_eq_some.mp isPlaced, toOption_eq_some.mp isListed, toOption_eq_some.mp madeFind,
    toOption_eq_some.mp madeList, toOption_eq_some.mp madeShown⟩
  simp [List.mem_of_find?_eq_some isFind, List.mem_of_find?_eq_some isList,
    List.mem_of_find?_eq_some isShown]

theorem exists_of_isSpelled {zone : String} {spelled : Bool}
    (seen : (of? zone).bind isSpelled? = some spelled) :
    ∃ tags : Tags zone, tags.IsSynthesized ∧ ∃ context library, tags.finds = [context] ∧
      tags.lists = [library] ∧
      (ParentsSpelled (tags.find.request (tagsSpec zone)) tags.placed
        (tags.list.request (tagsSpec zone)) tags.listed library.body ↔ spelled = true) := by
  obtain ⟨tags, made, seen⟩ := Option.bind_eq_some_iff.mp seen
  refine ⟨tags, isSynthesized made, ?_⟩
  unfold isSpelled? at seen
  split at seen
  · next context library finds lists =>
    cases seen
    exact ⟨context, library, finds, lists, decide_eq_true_iff.symm⟩
  · cases seen

end Tags

/-- Where zones are named alike, the lookup of tags calls setters of members only. -/
theorem lookup_calls_members_iff_tags :
    ∃ tags : Tags "zone_id", tags.IsSynthesized ∧ ∃ context library, tags.finds = [context] ∧
      tags.lists = [library] ∧
      (∀ shown ∈ tags.shows, shown.directory = context.directory ∧
        ∀ name ∈ context.showCalls, name ∈ shown.memberNames) ∧
      ∀ name ∈ context.listCalls, name ∈ library.memberNames := by
  have seen : (Tags.of? "zone_id").bind Tags.isSpelled? = some true := by decide +kernel
  obtain ⟨tags, made, context, library, finds, lists, spelled⟩ := Tags.exists_of_isSpelled seen
  obtain ⟨-, -, placed, listed, isPlaced, isListed, each⟩ := lookup_calls_members_iff made.synthesized
    made.found made.given made.added made.listKey made.shownKey made.madeFind made.madeList
    made.madeShown
  cases made.placed.symm.trans isPlaced
  cases made.listed.symm.trans isListed
  rw [finds, lists] at each
  obtain ⟨shows, called⟩ := each context List.mem_cons_self
  exact ⟨tags, made, context, library, finds, lists, shows,
    (called library List.mem_cons_self).2.mpr (spelled.mpr rfl)⟩

/-- Where the path that lists tags names the zone otherwise, the lookup calls a setter that is not
there. -/
theorem lookup_calls_absent_setter :
    ∃ tags : Tags "zone", tags.IsSynthesized ∧ ∃ context library, tags.finds = [context] ∧
      tags.lists = [library] ∧ ∃ name ∈ context.listCalls, name ∉ library.memberNames := by
  have seen : (Tags.of? "zone").bind Tags.isSpelled? = some false := by decide +kernel
  obtain ⟨tags, made, context, library, finds, lists, spelled⟩ := Tags.exists_of_isSpelled seen
  have wraps := wraps_of_synthesize made.synthesized made.found made.given made.added made.listKey
    made.shownKey
  obtain ⟨placed, listed, isPlaced, isListed, each⟩ :=
    wraps.calls made.madeFind made.madeList made.madeShown
  cases made.placed.symm.trans isPlaced
  cases made.listed.symm.trans isListed
  rw [finds, lists] at each
  obtain ⟨-, called⟩ := (each context List.mem_cons_self).2 library List.mem_cons_self
  refine ⟨tags, made, context, library, finds, lists, ?_⟩
  by_contra none
  have absurd := spelled.mp (called.mp fun name member => by
    by_contra absent
    exact none ⟨name, member, absent⟩)
  cases absurd

end ServiceForge.Project
