/-
This file proves that the resolution reports dangling references exactly. It fails if
and only if a reference without a target can be reached: by walking the members and
items of the document, and the target of each local reference that is met, or from an
entry of the components. Nothing that is reached is passed over, since a run that ends
with a document has a value for each reference at which it began and for each that the
targets of those mention.

The resolution comes to the entries of the components through the references to them.
These always have a target, the entry itself, whatever its name is.
-/

import ServiceForge.Proofs.Json
import ServiceForge.Proofs.Reference.Termination

namespace ServiceForge.OpenApi.Reference

/-! ### Reachable references -/

/-- A reference to an entry of the components that is resolved as references to it are. -/
def IsEntry (document : Json) (reference : String) : Prop :=
  ∃ section_ ∈ sections, ∃ entries, section? document section_ = some (.object entries) ∧
    ∃ name ∈ OrderedMap.keys entries, reference = ofComponent section_ name

/-- A reference is reachable when walking the document, and the targets of the local references
that are met, comes to it. The entries of the components are reachable too. -/
def Reachable (document : Json) (reference : String) : Prop :=
  ∃ first, (Mentions document first ∨ IsEntry document first) ∧
    Relation.ReflTransGen (Refers document) first reference

theorem Open.local?_root {document : Json} (isOpen : Open document) : local? document = none := by
  cases document with
  | object members => rw [local?, ofMembers?_of_get? isOpen.root, Option.filter_none]
  | _ => rfl

section Reached

variable {document : Json} {reference : String}

/-- The members of the components are walked as parts of the document. -/
theorem mentions_of_section {members content : List (String × Json)} {name : String} {value : Json}
    (isOpen : Open (.object members)) (keyed : Json.isKeyed (.object members))
    (held : ("components", .object content) ∈ members) (inside : (name, value) ∈ content)
    (mentions : Mentions value reference) : Mentions (.object members) reference := by
  have found : Json.get? (.object members) "components" = some (.object content) :=
    Json.get?_of_mem keyed held
  have noReference := isOpen.components
  rw [found, Option.bind_some] at noReference
  exact .member (ofMembers?_of_get? isOpen.root) held
    (.member (ofMembers?_of_get? noReference) inside mentions)

theorem isSection_of_mem {members content : List (String × Json)} {name : String} {value : Json}
    (keyed : Json.isKeyed (.object members)) (held : ("components", .object content) ∈ members)
    (inside : (name, value) ∈ content) : section? (.object members) name = some value := by
  have found : Json.get? (.object members) "components" = some (.object content) :=
    Json.get?_of_mem keyed held
  rw [section?, found, Option.bind_some]
  exact Json.get?_of_mem (Json.isKeyed_of_mem keyed held) inside

/-- Where the rewriting of a section begins is reachable. -/
theorem reachable_of_sectionBegins {members content : List (String × Json)} {name : String}
    {value : Json} (isOpen : Open (.object members)) (keyed : Json.isKeyed (.object members))
    (held : ("components", .object content) ∈ members) (inside : (name, value) ∈ content)
    (begins : SectionBegins name value reference) :
    Mentions (.object members) reference ∨ IsEntry (.object members) reference := by
  have walked : Mentions value reference → Mentions (.object members) reference :=
    mentions_of_section isOpen keyed held inside
  cases value with
  | object entries =>
    unfold SectionBegins at begins
    dsimp only at begins
    split at begins
    · next listed =>
      obtain ⟨entry, isEntry, rfl⟩ := begins
      exact Or.inr ⟨name, List.contains_iff_mem.mp listed, entries,
        isSection_of_mem keyed held inside, entry.1, List.mem_map_of_mem isEntry, rfl⟩
    · exact Or.inl (walked begins)
  | _ => exact Or.inl (walked begins)

/-- Where the resolution begins is reachable. -/
theorem reachable_of_begins (isOpen : Open document) (keyed : document.isKeyed)
    (begins : Begins document reference) :
    Mentions document reference ∨ IsEntry document reference := by
  cases document with
  | object members =>
    obtain ⟨⟨key, value⟩, held, begins⟩ := begins
    have walked (mentions : Mentions value reference) : Mentions (.object members) reference :=
      .member (ofMembers?_of_get? isOpen.root) held mentions
    unfold MemberBegins at begins
    split at begins
    · next isComponents =>
      obtain rfl : key = "components" := isComponents
      cases value with
      | object content =>
        obtain ⟨⟨name, value⟩, inside, begins⟩ := begins
        exact reachable_of_sectionBegins isOpen keyed held inside begins
      | _ => exact Or.inl (walked begins)
    · exact Or.inl (walked begins)
  | _ => exact Or.inl begins

/-- The resolution begins at each entry. -/
theorem IsEntry.begins (isEntry : IsEntry document reference) : Begins document reference := by
  obtain ⟨section_, listed, entries, held, name, isName, rfl⟩ := isEntry
  obtain ⟨components, found, inside⟩ := Option.bind_eq_some_iff.mp held
  obtain ⟨entry, isEntry, rfl⟩ := List.mem_map.mp isName
  cases components with
  | object content =>
    cases document with
    | object members =>
      refine ⟨("components", .object content), OrderedMap.mem_of_get? found, ?_⟩
      rw [MemberBegins, if_pos rfl]
      refine ⟨(section_, .object entries), OrderedMap.mem_of_get? inside, ?_⟩
      rw [SectionBegins, if_pos (List.contains_iff_mem.mpr listed)]
      exact ⟨entry, isEntry, rfl⟩
    | _ => cases found
  | _ => cases inside

theorem Begins.visited (begins : Begins document reference) : Visited document reference :=
  ⟨reference, begins, .refl⟩

/-- What a section mentions is met from where its rewriting begins: an entry mentions what the
target of the reference to it does. -/
theorem visited_of_section {members content : List (String × Json)} {name : String}
    {value : Json} (isOpen : Open (.object members)) (keyed : Json.isKeyed (.object members))
    (held : ("components", .object content) ∈ members) (inside : (name, value) ∈ content)
    (mentions : Mentions value reference) : Visited (.object members) reference := by
  have isSection := isSection_of_mem keyed held inside
  have met {first : String} (begins : SectionBegins name value first) :
      Begins (.object members) first := by
    refine ⟨_, held, ?_⟩
    rw [MemberBegins, if_pos rfl]
    exact ⟨_, inside, begins⟩
  cases value with
  | object entries =>
    by_cases listed : name ∈ sections
    · have noReference := isOpen.entries name listed
      rw [isSection, Option.bind_some] at noReference
      cases mentions with
      | here named =>
        rw [local?, ofMembers?_of_get? noReference] at named
        cases named
      | @member _ entry _ node _ isEntry mentions =>
        have begins : Begins (.object members) (ofComponent name entry) := met <| by
          rw [SectionBegins, if_pos (List.contains_iff_mem.mpr listed)]
          exact ⟨_, isEntry, rfl⟩
        have target : target? (.object members) (ofComponent name entry) = some node := by
          rw [target?_ofComponent listed isSection]
          exact Json.get?_of_mem (Json.isKeyed_of_mem
            (Json.isKeyed_of_mem keyed held) inside) isEntry
        exact ⟨_, begins, .single ⟨node, target, mentions⟩⟩
    · refine (met ?_).visited
      rw [SectionBegins, if_neg (by simpa using listed)]
      exact mentions
  | _ => exact (met mentions).visited

/-- What the document mentions is met. -/
theorem visited_of_mentions (isOpen : Open document) (keyed : document.isKeyed)
    (mentions : Mentions document reference) : Visited document reference := by
  cases document with
  | object members =>
    cases mentions with
    | here named =>
      rw [isOpen.local?_root] at named
      cases named
    | @member _ key _ value _ held mentions =>
      have met (begins : MemberBegins key value reference) : Visited (.object members) reference :=
        Begins.visited ⟨_, held, begins⟩
      by_cases isComponents : key = "components"
      · subst isComponents
        cases value with
        | object content =>
          have noReference := isOpen.components
          rw [show Json.get? (.object members) "components" = some (.object content) from
            Json.get?_of_mem keyed held, Option.bind_some] at noReference
          cases mentions with
          | here named =>
            rw [local?, ofMembers?_of_get? noReference] at named
            cases named
          | member _ inside mentions =>
            exact visited_of_section isOpen keyed held inside mentions
        | _ => exact met mentions
      · refine met ?_
        unfold MemberBegins
        rw [if_neg isComponents]
        exact mentions
  | _ => exact Begins.visited mentions

theorem reachable_iff_visited (isOpen : Open document) (keyed : document.isKeyed) :
    Reachable document reference ↔ Visited document reference := by
  constructor
  · rintro ⟨first, mentions | isEntry, leads⟩
    · obtain ⟨start, begins, earlier⟩ := visited_of_mentions isOpen keyed mentions
      exact ⟨start, begins, earlier.trans leads⟩
    · exact ⟨first, isEntry.begins, leads⟩
  · rintro ⟨first, begins, leads⟩
    exact ⟨first, reachable_of_begins isOpen keyed begins, leads⟩

end Reached

/-! ### Runs that end with a document -/

/-- A run that ends with a document has a value for each reference that is met. -/
theorem resolved_of_visited {document value : Json} {budget : Nat} {after : Progress}
    {reference : String} (large : (all document).length < budget)
    (ran : resolveDocument document budget {} = .ok (value, after))
    (visited : Visited document reference) : (after.resolved.get? reference).isSome := by
  have met := resolveDocument_visits large {}
  rw [ran] at met
  obtain ⟨passes, knows⟩ := met
  have kept {known : String} (isKnown : after.Knows known) :
      (after.resolved.get? known).isSome := by
    refine isKnown.resolve_left fun followed => ?_
    rw [passes.following] at followed
    cases followed
  obtain ⟨first, begins, leads⟩ := visited
  induction leads with
  | refl => exact kept (knows first begins)
  | tail _ refers inductionHypothesis =>
    obtain ⟨target, isTarget, known⟩ := passes.closed nofun _ inductionHypothesis
    obtain ⟨_, same, mentions⟩ := refers
    cases isTarget.symm.trans same
    exact kept (known _ mentions)

/-- A run that ends with a document met only references that have a target. -/
theorem isSome_target?_of_resolve {document resolved : Json} {reference : String}
    (ok : resolve document = .ok resolved) (visited : Visited document reference) :
    (target? document reference).isSome := by
  obtain ⟨after, ran⟩ := resolve_ok ok
  have held := resolved_of_visited (Nat.lt_succ_self _) ran visited
  obtain ⟨value, held⟩ := Option.isSome_iff_exists.mp held
  obtain ⟨target, isTarget, -⟩ := (resolveDocument_becomes ran).1.sound.represents _ value held
  exact Option.isSome_iff_exists.mpr ⟨target, isTarget⟩

/-- The resolution fails if and only if a local reference without a target is reachable, and
reports such a one. The entries of the components are reachable, and each is the target of the
reference to it. -/
theorem resolve_fails_iff {document : Json} (isOpen : Open document) (keyed : document.isKeyed) :
    ((∃ reference, resolve document = .error reference) ↔
      ∃ reference, Reachable document reference ∧ target? document reference = none) ∧
    (∀ reference, resolve document = .error reference →
      Reachable document reference ∧ isLocal reference = true ∧
        target? document reference = none) ∧
    ∀ section_ ∈ sections, ∀ entries, section? document section_ = some (.object entries) →
      ∀ name entry, OrderedMap.get? entries name = some entry →
        Reachable document (ofComponent section_ name) ∧
          target? document (ofComponent section_ name) = some entry := by
  have reported : ∀ reference, resolve document = .error reference →
      Reachable document reference ∧ isLocal reference = true ∧
        target? document reference = none := by
    intro reference failed
    obtain ⟨visited, absent⟩ := visited_of_error failed
    exact ⟨(reachable_iff_visited isOpen keyed).mpr visited, isLocal_of_visited visited, absent⟩
  refine ⟨⟨?_, ?_⟩, reported, ?_⟩
  · rintro ⟨reference, failed⟩
    obtain ⟨reachable, -, absent⟩ := reported reference failed
    exact ⟨reference, reachable, absent⟩
  · rintro ⟨reference, reachable, absent⟩
    cases ended : resolve document with
    | error last => exact ⟨last, rfl⟩
    | ok resolved =>
      have present := isSome_target?_of_resolve ended ((reachable_iff_visited isOpen keyed).mp reachable)
      rw [absent] at present
      cases present
  · intro section_ listed entries held name entry found
    have isName : name ∈ OrderedMap.keys entries := by
      rw [← OrderedMap.isSome_get?, found]
      rfl
    refine ⟨⟨_, Or.inr ⟨section_, listed, entries, held, name, isName, rfl⟩, .refl⟩, ?_⟩
    rw [target?_ofComponent listed held, found]

/-- A schema whose name has to be escaped refers to one that is not there. -/
def danglingDocument : Json :=
  .object
    [("components", .object
      [("schemas", .object
        [("a/b~c", .object [("$ref", .string "#/components/schemas/missing")])])])]

theorem resolve_fails_iff_missing :
    ∃ reference, resolve danglingDocument = .error reference ∧
      Reachable danglingDocument reference ∧ target? danglingDocument reference = none ∧
      target? danglingDocument "#/components/schemas/a~1b~0c" =
        some (.object [("$ref", .string "#/components/schemas/missing")]) := by
  have isOpen : Open danglingDocument := ⟨by decide, by decide, by decide⟩
  obtain ⟨fails, reported, entries⟩ := resolve_fails_iff isOpen (by decide)
  have mentions : Mentions danglingDocument "#/components/schemas/missing" :=
    .member rfl List.mem_cons_self (.member rfl List.mem_cons_self
      (.member rfl List.mem_cons_self (.here (by decide))))
  obtain ⟨reference, failed⟩ := fails.mpr ⟨_, ⟨_, Or.inl mentions, .refl⟩, by decide +kernel⟩
  obtain ⟨reachable, -, absent⟩ := reported reference failed
  exact ⟨reference, failed, reachable, absent, (entries "schemas" (by decide) _ rfl "a/b~c" _ rfl).2⟩

end ServiceForge.OpenApi.Reference
