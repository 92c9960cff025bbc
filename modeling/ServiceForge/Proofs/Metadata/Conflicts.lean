/-
This file proves when synthesis fails. The entries of the classified operations, one
operation after another, each claim a key of a resource. Synthesis fails at the first
entry that claims what an earlier one has, and names both; if there is none it succeeds,
and each entry stands where it claimed to.
-/

import Mathlib.Data.List.Nodup
import ServiceForge.Proofs.Except
import ServiceForge.Proofs.Metadata.Entries

namespace ServiceForge.Metadata

open ServiceForge.OpenApi (PathItem Spec)

/-! ### The first repetition in a list -/

section Repetition

variable {α κ : Type} {key : α → κ} {items : List α} {earlier later : α}

/-- `later` is the first item with the key of an item before it, which is `earlier`. -/
def FirstRepeats (key : α → κ) (items : List α) (earlier later : α) : Prop :=
  ∃ before after, items = before ++ later :: after ∧ (before.map key).Nodup ∧ earlier ∈ before ∧
    key earlier = key later

theorem not_nodup_of_repeated {before : List α} (inside : earlier ∈ before)
    (same : key earlier = key later) : ¬ ((before ++ [later]).map key).Nodup := by
  rw [List.map_append]
  intro distinct
  exact (List.nodup_append.mp distinct).2.2 _ (List.mem_map_of_mem inside) (key later)
    List.mem_cons_self same

theorem FirstRepeats.not_nodup (repeats : FirstRepeats key items earlier later) :
    ¬ (items.map key).Nodup := by
  obtain ⟨before, after, rfl, -, inside, same⟩ := repeats
  intro distinct
  refine not_nodup_of_repeated inside same (distinct.sublist (List.Sublist.map key ?_))
  exact (List.Sublist.refl before).append (List.singleton_sublist.mpr List.mem_cons_self)

/-- The items before a repetition that have distinct keys end where it is. -/
theorem length_le_of_repeated {before others after rest : List α} {other : α}
    (whole : before ++ later :: after = others ++ other :: rest) (inside : earlier ∈ before)
    (same : key earlier = key later) (distinct : (others.map key).Nodup) :
    others.length ≤ before.length := by
  by_contra longer
  have begins : before ++ [later] <+: others := by
    refine List.prefix_of_prefix_length_le ⟨after, ?_⟩ (List.prefix_append others (other :: rest)) ?_
    · rw [List.append_assoc, List.singleton_append, whole]
    · rw [List.length_append, List.length_singleton]
      omega
  exact not_nodup_of_repeated inside same (distinct.sublist (begins.sublist.map key))

theorem FirstRepeats.unique {earlier' later' : α} (repeats : FirstRepeats key items earlier later)
    (again : FirstRepeats key items earlier' later') : earlier = earlier' ∧ later = later' := by
  obtain ⟨before, after, rfl, distinct, inside, same⟩ := repeats
  obtain ⟨others, rest, whole, distinct', inside', same'⟩ := again
  have lengths : before.length = others.length :=
    Nat.le_antisymm (length_le_of_repeated whole.symm inside' same' distinct)
      (length_le_of_repeated whole inside same distinct')
  obtain ⟨rfl, rest⟩ := List.append_inj whole lengths
  obtain ⟨rfl, -⟩ := List.cons.inj rest
  exact ⟨List.inj_on_of_nodup_map distinct inside inside' (same.trans same'.symm), rfl⟩

/-- Pairs are distinct if those with the same first component are. -/
theorem nodup_of_groups {τ : Type} [DecidableEq κ] {pairs : List (κ × τ)}
    (each : ∀ first, ((pairs.filter (·.1 = first)).map Prod.snd).Nodup) : pairs.Nodup := by
  induction pairs with
  | nil => exact List.nodup_nil
  | cons pair rest inductionHypothesis =>
    refine List.nodup_cons.mpr ⟨fun again => ?_, inductionHypothesis fun first => ?_⟩
    · have own := each pair.1
      rw [List.filter_cons, if_pos (by simp), List.map_cons] at own
      exact (List.nodup_cons.mp own).1
        (List.mem_map_of_mem (List.mem_filter.mpr ⟨again, by simp⟩))
    · exact (each first).sublist (((List.sublist_cons_self pair rest).filter _).map _)

end Repetition

/-! ### Contributions -/

/-- An entry that an operation contributes to a resource under a key. -/
structure Contribution where
  resource : Resource.Id
  key : String
  entry : OperationEntry

namespace Contribution

/-- What a contribution claims: a key of a resource. -/
def place (contribution : Contribution) : Resource.Id × String :=
  (contribution.resource, contribution.key)

/-- The same with the key of the resource for the resource. -/
def slot (contribution : Contribution) : String × String :=
  (contribution.resource.key, contribution.key)

end Contribution

/-- The contributions of entries to a resource. -/
def contribute (resource : Resource.Id) (entries : List (String × OperationEntry)) :
    List Contribution :=
  entries.map fun entry => ⟨resource, entry.1, entry.2⟩

/-- The contributions of operations, one operation after another. -/
def contributionsOf (operations : List Classified) : List Contribution :=
  operations.flatMap fun operation => contribute operation.resource operation.entries

/-- The contributions of the operations of a document. -/
def contributions (spec : Spec) (service : String) : List Contribution :=
  contributionsOf (classifiedOperations spec service)

section Slots

variable {operations : List Classified}

/-- The keys that are claimed of a resource. -/
def keysClaimed (contributions : List Contribution) (resource : String) : List String :=
  ((contributions.map Contribution.slot).filter (·.1 = resource)).map Prod.snd

theorem keysClaimed_append (first second : List Contribution) (resource : String) :
    keysClaimed (first ++ second) resource =
      keysClaimed first resource ++ keysClaimed second resource := by
  simp [keysClaimed]

theorem keysClaimed_contribute (resource : Resource.Id)
    (entries : List (String × OperationEntry)) (name : String) :
    keysClaimed (contribute resource entries) name =
      if resource.key = name then OrderedMap.keys entries else [] := by
  rw [keysClaimed, contribute, List.map_map, List.filter_map]
  split
  · next same => simp [Contribution.slot, Function.comp_def, same, OrderedMap.keys]
  · next apart => simp [Contribution.slot, Function.comp_def, apart]

theorem keysClaimed_contributionsOf (operations : List Classified) (resource : String) :
    keysClaimed (contributionsOf operations) resource =
      OrderedMap.keys ((ofResource operations resource).flatMap Classified.entries) := by
  induction operations with
  | nil => rfl
  | cons operation rest inductionHypothesis =>
    rw [contributionsOf, List.flatMap_cons, ← contributionsOf, keysClaimed_append,
      keysClaimed_contribute, inductionHypothesis, ofResource, ofResource, List.filter_cons]
    by_cases same : operation.resource.key = resource <;> simp [same, OrderedMap.keys]

/-- No slot is claimed twice if no resource has one of its keys claimed twice. -/
theorem nodup_slots {contributions : List Contribution}
    (each : ∀ resource, (keysClaimed contributions resource).Nodup) :
    (contributions.map Contribution.slot).Nodup := nodup_of_groups each

theorem mem_contributionsOf {contribution : Contribution} :
    contribution ∈ contributionsOf operations ↔
      ∃ operation ∈ operations, operation.resource = contribution.resource ∧
        (contribution.key, contribution.entry) ∈ operation.entries := by
  obtain ⟨resource, key, entry⟩ := contribution
  rw [contributionsOf, List.mem_flatMap]
  refine exists_congr fun operation => and_congr_right fun _ => ?_
  rw [contribute, List.mem_map]
  constructor
  · rintro ⟨held, inside, same⟩
    cases same
    exact ⟨rfl, inside⟩
  · rintro ⟨rfl, inside⟩
    exact ⟨(key, entry), inside, rfl⟩

variable {specFile : String} {apiVersion : Option String} {resources : OrderedMap ResourceEntry}

theorem Gathers.nodup_keysClaimed (gathers : Gathers specFile apiVersion operations resources)
    (resource : String) : (keysClaimed (contributionsOf operations) resource).Nodup := by
  rw [keysClaimed_contributionsOf]
  exact gathers.keys resource

end Slots

/-! ### Failures -/

/-- The failure of a contribution whose place another one has. -/
def conflict (earlier later : Contribution) : GenerationError :=
  .nameConflict later.resource.key later.key earlier.entry.operation later.entry.operation

/-- Adding entries fails at the first key that is not new. -/
theorem addEntries_eq_error {resource : Resource.Id} {operations : OrderedMap OperationEntry}
    {entries : List (String × OperationEntry)} {failure : GenerationError}
    (distinct : operations.keys.Nodup)
    (failed : addEntries resource operations entries = .error failure) :
    ∃ before key entry after earlier, entries = before ++ (key, entry) :: after ∧
      (operations ++ before).keys.Nodup ∧ (key, earlier) ∈ operations ++ before ∧
        failure = .nameConflict resource.key key earlier.operation entry.operation := by
  induction entries generalizing operations with
  | nil => cases failed
  | cons entry rest inductionHypothesis =>
    obtain ⟨key, entry⟩ := entry
    rw [addEntries] at failed
    cases found : operations.get? key with
    | some earlier =>
      rw [found] at failed
      cases failed
      refine ⟨[], key, entry, rest, earlier, rfl, ?_, ?_, rfl⟩ <;> rw [List.append_nil]
      · exact distinct
      · exact OrderedMap.mem_of_get? found
    | none =>
      rw [found] at failed
      have more := OrderedMap.nodup_keys_insert distinct key entry
      rw [OrderedMap.insert_of_notMem entry (OrderedMap.get?_eq_none.mp found)] at failed more
      obtain ⟨before, name, held, after, earlier, rfl, unique, inside, same⟩ :=
        inductionHypothesis more failed
      rw [List.append_assoc] at unique inside
      exact ⟨(key, entry) :: before, name, held, after, earlier, rfl, unique, inside, same⟩

section Run

variable {specFile : String} {apiVersion : Option String} {operations : List Classified}
  {resources : OrderedMap ResourceEntry} {failure : GenerationError}

/-- An operation fails at the first of its entries with a key that its resource has. -/
theorem Gathers.addEntries_of_error
    (gathers : Gathers specFile apiVersion operations resources) {operation : Classified}
    (failed : addOperation specFile apiVersion resources operation = .error failure) :
    addEntries operation.resource
        ((ofResource operations operation.resource.key).flatMap Classified.entries)
        operation.entries = .error failure := by
  have held := gathers.resource operation.resource.key
  have present : ((resources.get? operation.resource.key).getD {
      specFile
      apiVersion := apiVersion.or (Resource.pathVersion? operation.placed.path) }).operations =
        (ofResource operations operation.resource.key).flatMap Classified.entries := by
    rw [held]
    cases ofResource operations operation.resource.key <;> rfl
  rcases bind_eq_error.mp failed with stopped | ⟨_, -, impossible⟩
  · rw [← present]
    exact stopped
  · cases impossible

/-- An operation that fails claims what is claimed before it. -/
theorem Gathers.conflict_of_step
    (gathers : Gathers specFile apiVersion operations resources) {operation : Classified}
    (failed : addOperation specFile apiVersion resources operation = .error failure)
    (more : List Contribution) :
    ∃ earlier later, FirstRepeats Contribution.slot
      (contributionsOf operations ++ contribute operation.resource operation.entries ++ more)
        earlier later ∧ failure = conflict earlier later := by
  obtain ⟨before, key, entry, after, earlier, split, distinct, inside, rfl⟩ :=
    addEntries_eq_error (gathers.keys _) (gathers.addEntries_of_error failed)
  have taken : ∃ other, other ∈ contributionsOf operations ++ contribute operation.resource before ∧
      other.resource.key = operation.resource.key ∧ other.key = key ∧ other.entry = earlier := by
    rcases List.mem_append.mp inside with old | own
    · obtain ⟨other, listed, held⟩ := List.mem_flatMap.mp old
      obtain ⟨listed, same⟩ := List.mem_filter.mp listed
      exact ⟨⟨other.resource, key, earlier⟩,
        List.mem_append_left _ (mem_contributionsOf.mpr ⟨other, listed, rfl, held⟩),
        of_decide_eq_true same, rfl, rfl⟩
    · exact ⟨⟨operation.resource, key, earlier⟩,
        List.mem_append_right _ (List.mem_map_of_mem own), rfl, rfl, rfl⟩
  obtain ⟨other, isOther, sameResource, sameKey, rfl⟩ := taken
  refine ⟨other, ⟨operation.resource, key, entry⟩,
    ⟨contributionsOf operations ++ contribute operation.resource before,
      contribute operation.resource after ++ more, ?_, ?_, isOther, ?_⟩, rfl⟩
  · rw [split]
    simp [contribute]
  · refine nodup_slots fun resource => ?_
    rw [keysClaimed_append, keysClaimed_contributionsOf, keysClaimed_contribute]
    split
    · next same =>
      subst same
      rw [OrderedMap.keys, List.map_append] at distinct
      exact distinct
    · rw [List.append_nil]
      exact gathers.keys resource
  · rw [Contribution.slot, Contribution.slot, sameResource, sameKey]

/-- A run that fails does so at the first contribution whose slot is taken. -/
theorem Gathers.conflict_of_run
    (gathers : Gathers specFile apiVersion operations resources) {more : List Classified}
    (failed : more.foldlM (addOperation specFile apiVersion) resources = .error failure) :
    ∃ earlier later,
      FirstRepeats Contribution.slot (contributionsOf (operations ++ more)) earlier later ∧
        failure = conflict earlier later := by
  induction more generalizing operations resources with
  | nil => cases failed
  | cons operation rest inductionHypothesis =>
    rw [List.foldlM_cons] at failed
    rcases bind_eq_error.mp failed with stopped | ⟨after, ran, later⟩
    · have whole : contributionsOf (operations ++ operation :: rest) =
          contributionsOf operations ++ contribute operation.resource operation.entries ++
            contributionsOf rest := by
        simp [contributionsOf]
      rw [whole]
      exact gathers.conflict_of_step stopped (contributionsOf rest)
    · have found := inductionHypothesis (gathers.step ran) later
      rwa [List.append_assoc] at found

end Run

/-! ### Resources of one service -/

/-- Resources of one service have different keys. -/
theorem eq_of_key {first second : Resource.Id} (service : first.service = second.service)
    (same : first.key = second.key) : first = second := by
  obtain ⟨owner, name⟩ := first
  obtain ⟨_, other⟩ := second
  subst service
  have names : (owner ++ ".").toList ++ name.toList = (owner ++ ".").toList ++ other.toList := by
    rw [← String.toList_append, ← String.toList_append]
    exact congrArg String.toList same
  rw [String.toList_injective (List.append_cancel_left names)]

variable {spec : Spec} {service specFile : String} {apiVersion : Option String}

theorem service_of_mem_contributions {contribution : Contribution}
    (member : contribution ∈ contributions spec service) :
    contribution.resource.service = service := by
  obtain ⟨operation, classified, same, -⟩ := mem_contributionsOf.mp member
  obtain ⟨placed, -, made⟩ := List.mem_filterMap.mp classified
  obtain ⟨-, -, -, -, named⟩ := classified?_eq_some.mp made
  rw [← same, named]

/-- What is first among the slots is first among the places. -/
theorem FirstRepeats.place {earlier later : Contribution}
    (repeats : FirstRepeats Contribution.slot (contributions spec service) earlier later) :
    FirstRepeats Contribution.place (contributions spec service) earlier later := by
  obtain ⟨before, after, whole, distinct, inside, same⟩ := repeats
  have listed {contribution : Contribution} (member : contribution ∈ before ++ later :: after) :
      contribution.resource.service = service := by
    rw [← whole] at member
    exact service_of_mem_contributions member
  obtain ⟨sameResource, sameKey⟩ := Prod.mk.inj same
  refine ⟨before, after, whole, ?_, inside, Prod.ext (eq_of_key ?_ sameResource) sameKey⟩
  · refine List.Nodup.of_map (fun place => (place.1.key, place.2)) ?_
    rw [List.map_map]
    exact distinct
  · exact (listed (List.mem_append_left _ inside)).trans
      (listed (List.mem_append_right _ List.mem_cons_self)).symm

/-- Synthesis fails only where a place is taken. -/
theorem conflict_of_synthesize {failure : GenerationError}
    (failed : synthesize spec service specFile apiVersion = .error failure) :
    ∃ earlier later, FirstRepeats Contribution.place (contributions spec service) earlier later ∧
      failure = conflict earlier later := by
  have start : Gathers specFile apiVersion [] [] := .nil
  rcases bind_eq_error.mp failed with stopped | ⟨_, -, impossible⟩
  · obtain ⟨earlier, later, repeats, same⟩ := start.conflict_of_run stopped
    exact ⟨earlier, later, FirstRepeats.place repeats, same⟩
  · cases impossible

/-- Where synthesis succeeds no place is claimed twice, and every entry is in its place. -/
theorem places_of_synthesize {metadata : Metadata}
    (synthesized : synthesize spec service specFile apiVersion = .ok metadata) :
    ((contributions spec service).map Contribution.place).Nodup ∧
      ∀ contribution ∈ contributions spec service,
        (metadata.resources.get? contribution.resource.key).bind
          (·.operations.get? contribution.key) = some contribution.entry := by
  obtain ⟨resources, same, gathers⟩ := gathers_of_synthesize synthesized
  constructor
  · refine List.Nodup.of_map (fun place => (place.1.key, place.2)) ?_
    rw [List.map_map]
    exact nodup_slots gathers.nodup_keysClaimed
  · intro contribution member
    obtain ⟨operation, classified, sameResource, inside⟩ := mem_contributionsOf.mp member
    have present : operation ∈
        ofResource (classifiedOperations spec service) contribution.resource.key :=
      List.mem_filter.mpr ⟨classified, decide_eq_true (congrArg Resource.Id.key sameResource)⟩
    obtain ⟨held, found⟩ : ∃ held, resourceOf? specFile apiVersion
        (ofResource (classifiedOperations spec service) contribution.resource.key) = some held :=
      Option.isSome_iff_exists.mp (isSome_resourceOf? present)
    have own : held.operations.get? contribution.key = some contribution.entry := by
      rw [(resourceOf?_eq_some found).2.1]
      exact OrderedMap.get?_of_mem (gathers.keys _) (List.mem_flatMap.mpr ⟨_, present, inside⟩)
    rw [same, OrderedMap.get?_mapValues, gathers.resource, found, Option.map_some,
      Option.bind_some, addFind_eq, OrderedMap.get?_append, own]
    rfl

/-- Synthesis fails exactly when an entry claims a key of a resource that an earlier one has. It
names the first such entry and the earlier one. Otherwise no entry is overwritten by another or
by a lookup. -/
theorem synthesize_conflicts (spec : Spec) (service specFile : String)
    (apiVersion : Option String) :
    (∀ failure, synthesize spec service specFile apiVersion = .error failure ↔
      ∃ earlier later, FirstRepeats Contribution.place (contributions spec service) earlier later ∧
        failure = .nameConflict later.resource.key later.key earlier.entry.operation
          later.entry.operation) ∧
    ((∃ failure, synthesize spec service specFile apiVersion = .error failure) ↔
      ¬ ((contributions spec service).map Contribution.place).Nodup) ∧
    (((contributions spec service).map Contribution.place).Nodup →
      ∃ metadata, synthesize spec service specFile apiVersion = .ok metadata ∧
        ∀ contribution ∈ contributions spec service,
          (metadata.resources.get? contribution.resource.key).bind
            (·.operations.get? contribution.key) = some contribution.entry) := by
  cases result : synthesize spec service specFile apiVersion with
  | error reason =>
    obtain ⟨earlier, later, repeats, rfl⟩ := conflict_of_synthesize result
    refine ⟨fun failure => ⟨?_, ?_⟩, ?_, fun distinct => absurd distinct repeats.not_nodup⟩
    · rintro ⟨⟩
      exact ⟨earlier, later, repeats, rfl⟩
    · rintro ⟨other, next, again, rfl⟩
      obtain ⟨rfl, rfl⟩ := repeats.unique again
      rfl
    · exact ⟨fun _ => repeats.not_nodup, fun _ => ⟨_, rfl⟩⟩
  | ok metadata =>
    obtain ⟨distinct, places⟩ := places_of_synthesize result
    refine ⟨fun failure => ⟨nofun, ?_⟩, ⟨nofun, fun repeated => absurd distinct repeated⟩,
      fun _ => ⟨metadata, rfl, places⟩⟩
    rintro ⟨earlier, later, repeats, -⟩
    exact absurd distinct repeats.not_nodup

/-- A server that can be changed in two ways. -/
def updateSpec : Spec where
  version := "3.1.0"
  paths := [("/v2/servers/\x7bid\x7d",
    (PathItem.setOperation {} .put { id := some "put" }).setOperation .patch
      { id := some "patch" })]

theorem synthesize_conflicts_update :
    synthesize updateSpec "compute" "v2.yaml" none =
      .error (.nameConflict "compute.servers" "update" "put" "patch") := by
  have claims : (contributions updateSpec "compute").map (fun contribution =>
      (contribution.resource, contribution.key, contribution.entry.operation)) =
        [(⟨"compute", "servers"⟩, "update", "put"), (⟨"compute", "servers"⟩, "update", "patch")] := by
    decide +kernel
  obtain ⟨put, rest, whole, isPut, others⟩ := List.map_eq_cons_iff.mp claims
  obtain ⟨patch, rest, rfl, isPatch, others⟩ := List.map_eq_cons_iff.mp others
  cases List.map_eq_nil_iff.mp others
  simp only [Prod.mk.injEq] at isPut isPatch
  refine ((synthesize_conflicts updateSpec "compute" "v2.yaml" none).1 _).mpr
    ⟨put, patch, ⟨[put], [], whole, List.nodup_singleton _, List.mem_singleton.mpr rfl, ?_⟩, ?_⟩
  · rw [Contribution.place, Contribution.place, isPut.1, isPut.2.1, isPatch.1, isPatch.2.1]
  · rw [isPut.2.2, isPatch.2.2, isPatch.1, isPatch.2.1]
    rfl

end ServiceForge.Metadata
