/-
This file cuts a node into its parts. A node that stands for a reference has none;
rewriting any other node is rewriting its parts one after another, and a reference is
mentioned in a node when the node stands for it or one of its parts mentions it. All
references that are mentioned in a document or in the target of one of its references
are among the references of the document, and a document without local references is
resolved to itself.
-/

import ServiceForge.Proofs.Reference.Resolution

namespace ServiceForge.OpenApi.Reference

/-! ### Nodes and their parts -/

/-- The parts of a node that are rewritten one after another. A node that stands for a reference
has none. -/
def parts : Json → List Json
  | .object members => if (ofMembers? members).isSome then [] else members.map Prod.snd
  | .array items => items
  | _ => []

/-- A node with other parts in the places of its own. -/
def rebuild (source : Json) (results : List Json) : Json :=
  match source with
  | .object members =>
    if (ofMembers? members).isSome then source
    else .object ((OrderedMap.keys members).zip results)
  | .array _ => .array results
  | _ => source

theorem parts_of_local? {source : Json} {reference : String}
    (named : local? source = some reference) : parts source = [] := by
  cases source with
  | object members => simp [parts, (local?_eq_some named).1]
  | _ => cases named

/-- The parts of a value are smaller than it. -/
theorem sizeOf_part_lt {source part : Json} (isPart : part ∈ parts source) :
    sizeOf part < sizeOf source := by
  cases source with
  | object members =>
    rw [parts] at isPart
    split at isPart
    · cases isPart
    · obtain ⟨member, held, rfl⟩ := List.mem_map.mp isPart
      have inside := List.sizeOf_lt_of_mem held
      have value : sizeOf member.2 < sizeOf member := by
        cases member
        simp only [Prod.mk.sizeOf_spec]
        omega
      simp only [Json.object.sizeOf_spec]
      omega
  | array items =>
    have isItem : part ∈ items := isPart
    have inside := List.sizeOf_lt_of_mem isItem
    simp only [Json.array.sizeOf_spec]
    omega
  | _ => cases isPart

/-- What holds of a node if it holds of its parts holds of every node. -/
theorem parts_induction {P : Json → Prop} (step : ∀ source, (∀ part ∈ parts source, P part) → P source)
    (source : Json) : P source :=
  step source fun part isPart =>
    have : sizeOf part < sizeOf source := sizeOf_part_lt isPart
    parts_induction step part
termination_by sizeOf source

section Substitution

variable (follow : String → Resolve Json)

theorem substituteItems_eq (items : List Json) :
    substituteItems follow items = items.mapM (substitute follow) := by
  induction items with
  | nil => rfl
  | cons item rest inductionHypothesis =>
    rw [substituteItems, List.mapM_cons, inductionHypothesis]

theorem substituteMembers_eq (members : List (String × Json)) :
    substituteMembers follow members =
      (OrderedMap.keys members).zip <$> (members.map Prod.snd).mapM (substitute follow) := by
  induction members with
  | nil => rfl
  | cons member rest inductionHypothesis =>
    rw [substituteMembers, inductionHypothesis, List.map_cons, List.mapM_cons]
    simp only [map_eq_pure_bind, bind_assoc, pure_bind]
    rfl

/-- A local reference is replaced by what it is followed to. -/
theorem substitute_of_local? {source : Json} {reference : String}
    (named : local? source = some reference) : substitute follow source = follow reference := by
  cases source with
  | object members =>
    obtain ⟨found, inside⟩ := local?_eq_some named
    simp only [substitute, found, inside, if_true]
  | _ => cases named

/-- A node that stands for no local reference is rewritten part by part. -/
theorem substitute_eq {source : Json} (noReference : local? source = none) :
    substitute follow source = rebuild source <$> (parts source).mapM (substitute follow) := by
  cases source with
  | object members =>
    cases named : ofMembers? members with
    | none =>
      simp only [substitute, named, substituteMembers_eq, parts, rebuild, Option.isSome_none,
        Bool.false_eq_true, if_false, map_eq_pure_bind, bind_assoc, pure_bind]
    | some reference =>
      have foreign : isLocal reference = false := by
        simpa [local?, named] using noReference
      simp only [substitute, named, foreign, parts, rebuild, Option.isSome_some, if_true,
        Bool.false_eq_true, if_false, List.mapM_nil, map_pure]
  | array items =>
    simp only [substitute, substituteItems_eq, parts, rebuild, map_eq_pure_bind]
  | _ => rfl

end Substitution

/-! ### References in parts -/

/-- A value mentions a reference if it is one or if one of its parts mentions it. -/
theorem mentions_iff {source : Json} {reference : String} :
    Mentions source reference ↔
      local? source = some reference ∨ ∃ part ∈ parts source, Mentions part reference := by
  constructor
  · intro mentions
    cases mentions with
    | here named => exact Or.inl named
    | @member members key _ value noMember held inside =>
      refine Or.inr ⟨value, ?_, inside⟩
      simp only [parts, noMember, Option.isSome_none, Bool.false_eq_true, if_false]
      exact List.mem_map.mpr ⟨(key, value), held, rfl⟩
    | item held inside => exact Or.inr ⟨_, held, inside⟩
  · rintro (named | ⟨part, isPart, inside⟩)
    · exact .here named
    · cases source with
      | object members =>
        cases named : ofMembers? members with
        | some other => simp [parts, named] at isPart
        | none =>
          simp only [parts, named, Option.isSome_none, Bool.false_eq_true, if_false] at isPart
          obtain ⟨⟨key, value⟩, held, rfl⟩ := List.mem_map.mp isPart
          exact .member named held inside
      | array items => exact .item isPart inside
      | _ => cases isPart

theorem Mentions.isLocal {source : Json} {reference : String}
    (mentions : Mentions source reference) : isLocal reference = true := by
  induction mentions with
  | here named => exact isLocal_of_local? named
  | member _ _ _ inductionHypothesis => exact inductionHypothesis
  | item _ _ inductionHypothesis => exact inductionHypothesis

theorem mem_allInMembers {members : List (String × Json)} {reference : String} :
    reference ∈ allInMembers members ↔ ∃ member ∈ members, reference ∈ all member.2 := by
  induction members with
  | nil => simp [allInMembers]
  | cons member rest inductionHypothesis => simp [allInMembers, inductionHypothesis]

theorem mem_allInItems {items : List Json} {reference : String} :
    reference ∈ allInItems items ↔ ∃ item ∈ items, reference ∈ all item := by
  induction items with
  | nil => simp [allInItems]
  | cons item rest inductionHypothesis => simp [allInItems, inductionHypothesis]

/-- A reference that is mentioned is among all references of a value. -/
theorem mem_all_of_mentions {source : Json} {reference : String}
    (mentions : Mentions source reference) : reference ∈ all source := by
  induction mentions with
  | @here source reference named =>
    cases source with
    | object members =>
      rw [all, (local?_eq_some named).1]
      exact List.mem_append_left _ List.mem_cons_self
    | _ => cases named
  | member _ held _ inductionHypothesis =>
    rw [all]
    exact List.mem_append_right _ (mem_allInMembers.mpr ⟨_, held, inductionHypothesis⟩)
  | item held _ inductionHypothesis =>
    rw [all]
    exact mem_allInItems.mpr ⟨_, held, inductionHypothesis⟩

/-- A step leads to no new references. -/
theorem all_subset_of_step {source value : Json} {step : String}
    (found : step? source step = some value) : all value ⊆ all source := by
  intro reference inside
  cases source with
  | object members =>
    rw [all]
    exact List.mem_append_right _
      (mem_allInMembers.mpr ⟨_, OrderedMap.mem_of_get? found, inside⟩)
  | array items =>
    obtain ⟨position, _, found⟩ := Option.bind_eq_some_iff.mp found
    rw [all]
    exact mem_allInItems.mpr ⟨value, List.mem_of_getElem? found, inside⟩
  | _ => cases found

/-- The target of a reference has no references that the document has not. -/
theorem all_subset_of_target {document target : Json} {reference : String}
    (found : target? document reference = some target) : all target ⊆ all document :=
  target?_induction (P := fun part => all part ⊆ all document)
    (fun inside next => List.Subset.trans (all_subset_of_step next) inside) (List.Subset.refl _) found

/-! ### Documents without local references -/

/-- Whether no reference in a document points into the document itself. -/
def Foreign (document : Json) : Prop := ∀ reference ∈ all document, isLocal reference = false

theorem Foreign.not_mentions {document : Json} (foreign : Foreign document) (reference : String) :
    ¬ Mentions document reference := fun mentions => by
  cases mentions.isLocal.symm.trans (foreign reference (mem_all_of_mentions mentions))

/-- An object is foreign if it is no local reference and all in it is foreign. -/
theorem foreign_object {members : List (String × Json)} :
    Foreign (.object members) ↔
      (∀ reference, ofMembers? members = some reference → isLocal reference = false) ∧
        ∀ member ∈ members, Foreign member.2 := by
  simp only [Foreign, all, List.mem_append, Option.mem_toList, or_imp, forall_and,
    mem_allInMembers, forall_exists_index, and_imp]
  exact and_congr_right fun _ => ⟨fun each member held reference => each reference member held,
    fun each reference member held => each member held reference⟩

theorem foreign_array {items : List Json} :
    Foreign (.array items) ↔ ∀ item ∈ items, Foreign item := by
  simp only [Foreign, all, mem_allInItems, forall_exists_index, and_imp]
  exact ⟨fun each item held reference => each reference item held,
    fun each reference item held => each item held reference⟩

/-- A value is rebuilt from its parts. -/
theorem rebuild_parts (source : Json) : rebuild source (parts source) = source := by
  cases source with
  | object members =>
    by_cases named : (ofMembers? members).isSome = true
    · simp only [rebuild, if_pos named]
    · simp only [rebuild, parts, if_neg named, OrderedMap.keys, List.zip_map', List.map_id']
  | _ => rfl

theorem mapM_eq_pure {convert : Json → Resolve Json} {items : List Json}
    (each : ∀ item ∈ items, convert item = pure item) : items.mapM convert = pure items := by
  induction items with
  | nil => rfl
  | cons item rest inductionHypothesis =>
    obtain ⟨first, others⟩ := List.forall_mem_cons.mp each
    rw [List.mapM_cons, first, inductionHypothesis others]
    simp only [pure_bind]

/-- A value that mentions no reference stays as it is. -/
theorem substitute_of_not_mentions (follow : String → Resolve Json) (source : Json)
    (nothing : ∀ reference, ¬ Mentions source reference) :
    substitute follow source = pure source := by
  induction source using parts_induction with
  | step source inductionHypothesis =>
    have noReference : local? source = none := Option.eq_none_iff_forall_ne_some.mpr
      fun reference named => nothing reference (mentions_iff.mpr (Or.inl named))
    have each : ∀ part ∈ parts source, substitute follow part = pure part :=
      fun part isPart => inductionHypothesis part isPart fun reference inside =>
        nothing reference (mentions_iff.mpr (Or.inr ⟨part, isPart, inside⟩))
    rw [substitute_eq follow noReference, mapM_eq_pure each, map_pure, rebuild_parts]

/-- A document without components and local references stays as it is. -/
theorem resolveRoot_of_foreign (document : Json) (budget : Nat) {members : List (String × Json)}
    (foreign : ∀ member ∈ members, Foreign member.2)
    (noComponents : "components" ∉ OrderedMap.keys members) :
    resolveRoot document budget members = pure members := by
  induction members with
  | nil => rfl
  | cons member rest inductionHypothesis =>
    obtain ⟨key, value⟩ := member
    obtain ⟨first, others⟩ := List.forall_mem_cons.mp foreign
    obtain ⟨apart, noOther⟩ := List.ne_and_not_mem_of_not_mem_cons noComponents
    rw [resolveRoot, if_neg (Ne.symm apart), substitute_of_not_mentions _ _ first.not_mentions,
      inductionHypothesis others noOther]
    simp only [pure_bind]

/-- Without local references and components there is nothing to resolve. -/
theorem resolve_of_foreign {members : List (String × Json)} (foreign : Foreign (.object members))
    (noComponents : "components" ∉ OrderedMap.keys members) :
    resolve (.object members) = .ok (.object members) := by
  unfold resolve
  simp only [resolveRoot_of_foreign _ _ (foreign_object.mp foreign).2 noComponents]
  rfl

end ServiceForge.OpenApi.Reference
