/-
This file says what a successful synthesis gives. Each resource holds the entries of
its operations, one operation after another in the order of the document, and no key
occurs twice among them; the lookups are added to the resources afterwards. An operation
whose body is a union of actions has an entry for each branch, any other operation has one;
all of them name the operation and carry the keys that are found in its response.
-/

import Mathlib.Data.List.Basic
import ServiceForge.Metadata.Synthesis
import ServiceForge.Proofs.Generation.Variant

namespace ServiceForge.Metadata

open ServiceForge.Generation (Variant)
open ServiceForge.Generation.Variant (IsActions actionOf ofBranchAction)
open ServiceForge.OpenApi (PlacedOperation Schema Spec)

/-! ### Entries -/

/-- The entries of a classified operation with their keys. -/
def Classified.entries (operation : Classified) : List (String × OperationEntry) :=
  entriesOf operation.placed operation.operation operation.kind operation.resource.leaf

/-- The classified operations of a document. -/
def classifiedOperations (spec : Spec) (service : String) : List Classified :=
  spec.operations.filterMap (classified? spec service)

/-- Entries are added, one after another, exactly when all their keys are new. -/
theorem addEntries_eq_ok {resource : Resource.Id} {operations result : OrderedMap OperationEntry}
    {entries : List (String × OperationEntry)} (distinct : operations.keys.Nodup) :
    addEntries resource operations entries = .ok result ↔
      result = operations ++ entries ∧ (operations ++ entries).keys.Nodup := by
  induction entries generalizing operations with
  | nil =>
    rw [addEntries, List.append_nil]
    constructor
    · rintro ⟨⟩
      exact ⟨rfl, distinct⟩
    · rintro ⟨rfl, -⟩
      rfl
  | cons entry rest inductionHypothesis =>
    obtain ⟨key, entry⟩ := entry
    have whole : operations ++ (key, entry) :: rest = (operations ++ [(key, entry)]) ++ rest := by
      simp
    rw [addEntries]
    cases found : operations.get? key with
    | some existing =>
      have old : key ∈ operations.keys := by
        rw [← OrderedMap.isSome_get?, found]
        rfl
      refine iff_of_false nofun fun ⟨_, all⟩ => ?_
      rw [OrderedMap.keys, List.map_append] at all
      exact (List.nodup_append.mp all).2.2 key old key List.mem_cons_self rfl
    | none =>
      have new := OrderedMap.get?_eq_none.mp found
      have more := OrderedMap.nodup_keys_insert distinct key entry
      rw [OrderedMap.insert_of_notMem entry new] at more ⊢
      rw [whole]
      exact inductionHypothesis more

/-! ### Resources -/

/-- The operations of the resource with the given key. -/
def ofResource (operations : List Classified) (key : String) : List Classified :=
  operations.filter (·.resource.key = key)

/-- The resource that has the given operations, if there are any. -/
def resourceOf? (specFile : String) (apiVersion : Option String) :
    List Classified → Option ResourceEntry
  | [] => none
  | first :: rest => some {
      specFile
      apiVersion := apiVersion.or (Resource.pathVersion? first.placed.path)
      operations := (first :: rest).flatMap Classified.entries }

theorem resourceOf?_eq_some {specFile : String} {apiVersion : Option String}
    {operations : List Classified} {held : ResourceEntry}
    (found : resourceOf? specFile apiVersion operations = some held) :
    held.specFile = specFile ∧ held.operations = operations.flatMap Classified.entries ∧
      ∀ version, apiVersion = some version → held.apiVersion = some version := by
  cases operations with
  | nil => cases found
  | cons first rest =>
    cases found
    refine ⟨rfl, rfl, ?_⟩
    rintro version rfl
    rfl

theorem isSome_resourceOf? {specFile : String} {apiVersion : Option String}
    {operations : List Classified} {operation : Classified} (member : operation ∈ operations) :
    (resourceOf? specFile apiVersion operations).isSome = true := by
  cases operations with
  | nil => cases member
  | cons first rest => rfl

/-- Whether resources hold exactly the entries of the given operations. -/
structure Gathers (specFile : String) (apiVersion : Option String) (operations : List Classified)
    (resources : OrderedMap ResourceEntry) : Prop where
  distinct : resources.keys.Nodup
  resource : ∀ key, resources.get? key =
    resourceOf? specFile apiVersion (ofResource operations key)
  keys : ∀ key, (OrderedMap.keys ((ofResource operations key).flatMap Classified.entries)).Nodup

section Gathers

variable {specFile : String} {apiVersion : Option String} {operations : List Classified}
  {resources after : OrderedMap ResourceEntry}

theorem Gathers.nil : Gathers specFile apiVersion [] [] :=
  ⟨List.nodup_nil, fun _ => rfl, fun _ => List.nodup_nil⟩

theorem ofResource_append (operations : List Classified) (operation : Classified) (key : String) :
    ofResource (operations ++ [operation]) key =
      ofResource operations key ++ if operation.resource.key = key then [operation] else [] := by
  simp [ofResource, List.filter_append, List.filter_cons]

/-- One more operation adds its entries to those of its resource. -/
theorem Gathers.step (gathers : Gathers specFile apiVersion operations resources)
    {operation : Classified}
    (ran : addOperation specFile apiVersion resources operation = .ok after) :
    Gathers specFile apiVersion (operations ++ [operation]) after := by
  have held := gathers.resource operation.resource.key
  have distinct := gathers.keys operation.resource.key
  obtain ⟨present, same, version⟩ : ∃ present : ResourceEntry,
      (resources.get? operation.resource.key).getD {
        specFile
        apiVersion := apiVersion.or (Resource.pathVersion? operation.placed.path) } = present ∧
      resourceOf? specFile apiVersion
          (ofResource operations operation.resource.key ++ [operation]) =
        some { present with operations :=
          (ofResource operations operation.resource.key).flatMap Classified.entries ++
            operation.entries } ∧
      present.operations =
        (ofResource operations operation.resource.key).flatMap Classified.entries := by
    rw [held]
    cases ofResource operations operation.resource.key with
    | nil => exact ⟨_, rfl, by simp [resourceOf?], rfl⟩
    | cons first rest => exact ⟨_, rfl, by simp [resourceOf?], rfl⟩
  obtain ⟨expected, contents⟩ := version
  unfold addOperation at ran
  simp only [same] at ran
  cases added : addEntries operation.resource present.operations operation.entries with
  | error failure =>
    unfold Classified.entries at added
    rw [added] at ran
    cases ran
  | ok result =>
    have appended := (addEntries_eq_ok (contents ▸ distinct)).mp added
    rw [contents] at appended
    unfold Classified.entries at added
    rw [added] at ran
    cases ran
    obtain ⟨rfl, unique⟩ := appended
    refine ⟨OrderedMap.nodup_keys_insert gathers.distinct _ _, fun key => ?_, fun key => ?_⟩
    · rw [OrderedMap.get?_insert, ofResource_append]
      by_cases hit : key = operation.resource.key
      · subst hit
        rw [if_pos rfl, if_pos rfl, expected]
      · rw [if_neg hit, if_neg (Ne.symm hit), List.append_nil]
        exact gathers.resource key
    · rw [ofResource_append]
      by_cases hit : operation.resource.key = key
      · subst hit
        rw [if_pos rfl, List.flatMap_append, List.flatMap_singleton]
        exact unique
      · rw [if_neg hit, List.append_nil]
        exact gathers.keys key

theorem Gathers.run (gathers : Gathers specFile apiVersion operations resources)
    {more : List Classified}
    (ran : more.foldlM (addOperation specFile apiVersion) resources = .ok after) :
    Gathers specFile apiVersion (operations ++ more) after := by
  induction more generalizing operations resources with
  | nil =>
    cases ran
    rw [List.append_nil]
    exact gathers
  | cons operation rest inductionHypothesis =>
    rw [List.foldlM_cons] at ran
    cases first : addOperation specFile apiVersion resources operation with
    | error failure =>
      rw [first] at ran
      cases ran
    | ok middle =>
      rw [first] at ran
      have whole := inductionHypothesis (gathers.step first) ran
      rwa [List.append_assoc] at whole

end Gathers

/-! ### Lookups -/

/-- The lookup that is added to a resource with the given operations, if there is one. -/
def lookupsOf (operations : OrderedMap OperationEntry) : OrderedMap OperationEntry :=
  match operations.get? Kind.list.name, operations.get? Kind.showItem.name with
  | some list, some showItem =>
    if operations.contains Kind.find.name then []
    else [(Kind.find.name, findEntry list showItem)]
  | _, _ => []

theorem addFind_eq (resource : ResourceEntry) :
    addFind resource =
      { resource with operations := resource.operations ++ lookupsOf resource.operations } := by
  cases list : resource.operations.get? Kind.list.name with
  | none => simp [addFind, lookupsOf, list]
  | some list' =>
    cases showItem : resource.operations.get? Kind.showItem.name with
    | none => simp [addFind, lookupsOf, list, showItem]
    | some showItem' =>
      by_cases present : resource.operations.contains Kind.find.name = true
      · simp [addFind, lookupsOf, list, showItem, OrderedMap.insertNew, present]
      · simp [addFind, lookupsOf, list, showItem, OrderedMap.insertNew, present]

/-- A lookup has a key of its own and calls the operation that shows an item. -/
theorem eq_of_mem_lookupsOf {operations : OrderedMap OperationEntry}
    {entry : String × OperationEntry} (member : entry ∈ lookupsOf operations) :
    Kind.find.name ∉ operations.keys ∧ ∃ list showItem,
      operations.get? Kind.list.name = some list ∧
        operations.get? Kind.showItem.name = some showItem ∧
          entry = (Kind.find.name, findEntry list showItem) := by
  unfold lookupsOf at member
  split at member
  · next list showItem isList isShown =>
    split at member
    · cases member
    · next absent =>
      rw [OrderedMap.contains, OrderedMap.isSome_get?] at absent
      exact ⟨absent, list, showItem, isList, isShown, List.mem_singleton.mp member⟩
  · cases member

/-- Whatever is synthesized holds the entries of the classified operations and the lookups. -/
theorem gathers_of_synthesize {spec : Spec} {service specFile : String}
    {apiVersion : Option String} {metadata : Metadata}
    (synthesized : synthesize spec service specFile apiVersion = .ok metadata) :
    ∃ resources, metadata.resources = resources.mapValues addFind ∧
      Gathers specFile apiVersion (classifiedOperations spec service) resources := by
  unfold synthesize at synthesized
  cases ran : (spec.operations.filterMap (classified? spec service)).foldlM
      (addOperation specFile apiVersion) [] with
  | error failure =>
    simp only [ran] at synthesized
    cases synthesized
  | ok resources =>
    simp only [ran] at synthesized
    cases synthesized
    exact ⟨resources, rfl, Gathers.nil.run ran⟩

theorem nodup_of_synthesize {spec : Spec} {service specFile : String} {apiVersion : Option String}
    {metadata : Metadata} (synthesized : synthesize spec service specFile apiVersion = .ok metadata) :
    metadata.resources.keys.Nodup := by
  obtain ⟨resources, same, gathers⟩ := gathers_of_synthesize synthesized
  rw [same, OrderedMap.keys_mapValues]
  exact gathers.distinct

/-- The resources of metadata are those of the classified operations, and hold what these
contribute and the lookups. -/
theorem contents_of_synthesize {spec : Spec} {service specFile : String}
    {apiVersion : Option String} {metadata : Metadata}
    (synthesized : synthesize spec service specFile apiVersion = .ok metadata) (key : String) :
    metadata.resources.get? key =
      (resourceOf? specFile apiVersion (ofResource (classifiedOperations spec service) key)).map
        addFind := by
  obtain ⟨resources, same, gathers⟩ := gathers_of_synthesize synthesized
  rw [same, OrderedMap.get?_mapValues, gathers.resource]

/-! ### Entries of one operation -/

/-- The parameters that an entry has for the client library. -/
def entryParameters (placed : PlacedOperation) (leaf moduleName : String)
    (requestKey operationName : Option String) : TargetParameters :=
  { responseParameters placed leaf with
    moduleName := some moduleName
    operationName
    requestKey }

/-- The key of a body in JSON. -/
def bodyKey? (placed : PlacedOperation) (leaf : String) : Option String :=
  (bodySchema? placed).bind fun schema => (Resource.locate schema leaf).key

/-- The parameters that the entry of a branch with an action has for the client library. -/
def branchParameters (placed : PlacedOperation) (leaf : String) (branch : Schema) :
    TargetParameters :=
  let name := Naming.moduleName (actionOf branch)
  entryParameters placed leaf name (((ofBranchAction name none branch).payload? leaf).bind Prod.snd)
    (some (actionOf branch))

/-- The entry of a branch with an action. -/
def branchEntry (placed : PlacedOperation) (operation : String) (kind : Kind) (leaf : String)
    (branch : Schema) : String × OperationEntry :=
  (Naming.moduleName (actionOf branch),
    entryFor operation kind (branchParameters placed leaf branch))

theorem isActionUnion_some {kind : Kind} {schema : Schema} :
    isActionUnion kind (some schema) = true ↔
      kind = .action ∧ schema.annotation? "discriminator" = some "action" := by
  simp [isActionUnion]

section Entries

variable {placed : PlacedOperation} {operation leaf : String} {kind : Kind}

theorem entriesOf_single (single : isActionUnion kind (bodySchema? placed) = false) :
    entriesOf placed operation kind leaf =
      [(Naming.moduleName kind.name, entryFor operation kind
        (entryParameters placed leaf (Naming.moduleName kind.name) (bodyKey? placed leaf)
          none))] := by
  unfold entriesOf
  simp only [single, Bool.false_eq_true, if_false]
  rfl

theorem entriesOf_actions {schema : Schema} (body : bodySchema? placed = some schema)
    (union : isActionUnion kind (some schema) = true) (actions : IsActions schema) :
    entriesOf placed operation kind leaf =
      schema.nonNullBranches.map (branchEntry placed operation kind leaf) := by
  unfold entriesOf
  simp only [body, union, if_true]
  rw [Variant.all_actions actions, List.filterMap_map, ← List.filterMap_eq_map']
  rfl

/-- Every entry of an operation names it and says no more than what is found for it. -/
theorem eq_of_mem_entriesOf {entry : String × OperationEntry}
    (member : entry ∈ entriesOf placed operation kind leaf) :
    ∃ moduleName requestKey operationName, entry.2 = entryFor operation kind
      (entryParameters placed leaf moduleName requestKey operationName) := by
  unfold entriesOf at member
  simp only at member
  split at member
  · obtain ⟨variant, -, made⟩ := List.mem_filterMap.mp member
    obtain ⟨action, -, given⟩ := Option.bind_eq_some_iff.mp made
    cases given
    exact ⟨_, _, _, rfl⟩
  · rw [List.mem_singleton.mp member]
    exact ⟨_, _, none, rfl⟩

end Entries

/-! ### Classified operations -/

theorem classified?_eq_some {spec : Spec} {service : String} {placed : PlacedOperation}
    {operation : Classified} :
    classified? spec service placed = some operation ↔
      placed.operation.id = some operation.operation ∧
        Classification.ofOperation spec placed = .known operation.kind ∧
          Resource.pathName placed.path ≠ "" ∧
            operation.placed = placed ∧
              operation.resource = ⟨service, Resource.pathName placed.path⟩ := by
  obtain ⟨held, name, kind, resource⟩ := operation
  unfold classified?
  cases placed.operation.id with
  | none => simp
  | some other =>
    cases Classification.ofOperation spec placed with
    | skipped reason => simp [Classification.kind?]
    | known known =>
      by_cases empty : Resource.pathName placed.path = ""
      · simp [Classification.kind?, empty]
      · simp only [Classification.kind?, empty, Option.bind_eq_bind, Option.bind_some,
          String.isEmpty_iff, if_false, Option.pure_def, Option.some.injEq, Classified.mk.injEq,
          Classification.known.injEq, ne_eq, not_false_eq_true, true_and]
        tauto

/-- Operations with distinct ids are classified once each. -/
theorem nodup_classifiedOperations {spec : Spec} {service : String}
    (distinct : (spec.operations.filterMap (·.operation.id)).Nodup) :
    ((classifiedOperations spec service).map Classified.operation).Nodup := by
  refine List.Sublist.nodup ?_ distinct
  unfold classifiedOperations
  induction spec.operations with
  | nil => exact List.Sublist.slnil
  | cons placed rest inductionHypothesis =>
    cases classified : classified? spec service placed with
    | none =>
      rw [List.filterMap_cons_none classified, List.filterMap_cons]
      split
      · exact inductionHypothesis
      · exact inductionHypothesis.cons _
    | some operation =>
      obtain ⟨named, -⟩ := classified?_eq_some.mp classified
      rw [List.filterMap_cons_some classified, List.map_cons,
        List.filterMap_cons_some (f := fun held : PlacedOperation => held.operation.id) named]
      exact inductionHypothesis.cons_cons _

end ServiceForge.Metadata
