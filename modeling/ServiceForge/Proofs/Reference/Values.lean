/-
This file proves what becomes of references. Only cycles leave references behind: a part of a
resolved document that stands for a local reference is the bare reference, and following the
references of the original document from it leads to it again, so a document whose references
form no cycle resolves to one without local references.

Every other reference has one value. The value is kept once, when the target has been rewritten,
and never changed, so all places that a reference is replaced in take the same one, and so does
the entry of the components that it refers to. The resolved document and each value are the
original with every local reference replaced by its value or left where it closes a cycle. Of the
values nothing is asked of the document: where one of its outer objects has a member `$ref`, the
object is rewritten member by member nevertheless.
-/

import ServiceForge.Proofs.Reference.Dangling
import ServiceForge.Proofs.Reference.Observation

namespace ServiceForge.OpenApi.Reference

/-! ### Cycles -/

/-- The text of a bare reference is its only part. -/
theorem local?_part?_node {reference : String} {step : Step} {path : List Step} {part : Json}
    (found : part? (node reference) (step :: path) = some part) : local? part = none := by
  obtain ⟨child, isChild, rest⟩ := Option.bind_eq_some_iff.mp found
  obtain rfl : child = .string reference := by
    cases step with
    | index position =>
      rw [node, child?_index_object] at isChild
      cases isChild
    | key name =>
      cases inside : isExternal (node reference) with
      | true =>
        rw [child?_of_isExternal inside] at isChild
        cases isChild
      | false =>
        rw [node, child?_key inside, OrderedMap.get?_cons] at isChild
        split at isChild
        · exact (Option.some.inj isChild).symm
        · cases isChild
  cases path with
  | nil =>
    cases rest
    rfl
  | cons next path => cases rest

section Represents

variable {document : Json} {progress : Progress}

/-- A value is a reference that closes a cycle, or stands for a node that stands for none. -/
theorem Represents.settle (plainDocument : plain document) {source value : Json}
    (isPlain : plain source) (represents : Represents document progress source value) :
    (∃ reference, local? (node reference) = some reference ∧ value = node reference ∧
        OnCycle document reference) ∨
      ∃ final, plain final ∧ local? final = none ∧ Represents document progress final value := by
  induction represents with
  | left named _ cycle =>
    exact Or.inl ⟨_, local?_node (isLocal_of_local? named), rfl, cycle⟩
  | kept _ _ found _ inductionHypothesis =>
    exact inductionHypothesis (plain_of_target plainDocument found)
  | @external source leaf =>
    refine Or.inr ⟨source, isPlain, ?_, .external leaf⟩
    cases named : local? source with
    | none => rfl
    | some reference =>
      rw [isExternal_of_local? named] at leaf
      cases leaf
  | @scalar source leaf =>
    refine Or.inr ⟨source, isPlain, ?_, .scalar leaf⟩
    cases source with
    | object members => cases leaf
    | _ => rfl
  | array length each => exact Or.inr ⟨_, isPlain, rfl, .array length each⟩
  | object noMember keys each =>
    refine Or.inr ⟨_, isPlain, ?_, .object noMember keys each⟩
    rw [local?, noMember, Option.filter_none]

/-- The local references in a value are bare and close cycles. -/
theorem Represents.onCycle (plainDocument : plain document) {source value part : Json}
    {path : List Step} {reference : String} (isPlain : plain source)
    (represents : Represents document progress source value)
    (found : part? value path = some part) (named : local? part = some reference) :
    part = node reference ∧ OnCycle document reference := by
  induction path generalizing source value with
  | nil =>
    cases found
    rcases represents.settle plainDocument isPlain with
      ⟨other, isNode, rfl, cycle⟩ | ⟨final, plainFinal, atEnd, stands⟩
    · obtain rfl := Option.some.inj (isNode.symm.trans named)
      exact ⟨rfl, cycle⟩
    · obtain ⟨noReference, -, -⟩ := stands.step plainFinal atEnd
      rw [noReference] at named
      cases named
  | cons step path inductionHypothesis =>
    rcases represents.settle plainDocument isPlain with
      ⟨other, -, rfl, -⟩ | ⟨final, plainFinal, atEnd, stands⟩
    · rw [local?_part?_node found] at named
      cases named
    · obtain ⟨result, isChild, rest⟩ := Option.bind_eq_some_iff.mp found
      obtain ⟨-, -, parts⟩ := stands.step plainFinal atEnd
      have related := parts step
      rw [isChild] at related
      generalize given : child? final step = child at related
      cases related with
      | some represents =>
        exact inductionHypothesis (plain_of_child plainFinal given) represents rest

end Represents

/-- What is left of the local references of a document is bare and closes cycles, so nothing is
left of references that form none. -/
theorem onCycle_of_resolve {document resolved : Json} (isOpen : Open document)
    (isPlain : plain document) (ok : resolve document = .ok resolved) :
    (∀ path part reference, part? resolved path = some part → local? part = some reference →
      part = node reference ∧ OnCycle document reference) ∧
    ((∀ reference, ¬ OnCycle document reference) →
      ∀ path part, part? resolved path = some part → local? part = none) := by
  obtain ⟨progress, -, represents⟩ := resolve_represents isOpen ok
  have left : ∀ path part reference, part? resolved path = some part →
      local? part = some reference → part = node reference ∧ OnCycle document reference :=
    fun _ _ _ found named => represents.onCycle isPlain isPlain found named
  refine ⟨left, fun acyclic path part found => ?_⟩
  cases named : local? part with
  | none => rfl
  | some reference => exact absurd (left path part reference found named).2 (acyclic reference)

theorem onCycle_of_resolve_mutual :
    ∃ resolved, resolve mutualDocument = .ok resolved ∧
      (∀ path part reference, part? resolved path = some part → local? part = some reference →
        part = node reference ∧ OnCycle mutualDocument reference) ∧
      ((∀ reference, ¬ OnCycle mutualDocument reference) →
        ∀ path part, part? resolved path = some part → local? part = none) := by
  obtain ⟨resolved, ok⟩ := mutualDocument_resolves
  exact ⟨resolved, ok, onCycle_of_resolve mutualDocument_open (by decide +kernel) ok⟩

/-! ### Values -/

/-- A node in which each local reference is replaced by its value, or left where it closes a
cycle. -/
inductive Replaces (document : Json) (value : String → Option Json) : Json → Json → Prop
  | left {source : Json} {reference : String} :
      local? source = some reference → OnCycle document reference →
        Replaces document value source (node reference)
  | replaced {source result : Json} {reference : String} :
      local? source = some reference → value reference = some result →
        Replaces document value source result
  | external {source : Json} : isExternal source → Replaces document value source source
  | scalar {source : Json} : isScalar source → Replaces document value source source
  | array {items results : List Json} :
      results.length = items.length →
        (∀ (position : Nat) (item result : Json), items[position]? = some item →
          results[position]? = some result → Replaces document value item result) →
          Replaces document value (.array items) (.array results)
  | object {members results : List (String × Json)} :
      ofMembers? members = none → OrderedMap.keys results = OrderedMap.keys members →
        (∀ (key : String) (member result : Json), OrderedMap.get? members key = some member →
          OrderedMap.get? results key = some result → Replaces document value member result) →
          Replaces document value (.object members) (.object results)

/-- What stands for a node has the kept values in the places of references. -/
theorem Represents.replaces {document source result : Json} {progress : Progress}
    (represents : Represents document progress source result) :
    Replaces document progress.resolved.get? source result := by
  induction represents with
  | left named _ cycle => exact .left named cycle
  | kept named held => exact .replaced named held
  | external leaf => exact .external leaf
  | scalar leaf => exact .scalar leaf
  | array length _ inductionHypothesis => exact .array length inductionHypothesis
  | object noMember keys _ inductionHypothesis => exact .object noMember keys inductionHypothesis

/-- Each reference that the resolution meets has one value, its target with references replaced.
The resolved document is the document with references replaced, and the entries of its components
are the values of the references to them. -/
theorem values_of_resolve {document resolved : Json} (ok : resolve document = .ok resolved) :
    ∃ value : String → Option Json,
      (∀ reference, Visited document reference → (value reference).isSome) ∧
      (∀ reference result, value reference = some result →
        ∃ target, target? document reference = some target ∧
          Replaces document value target result) ∧
      Becomes (Replaces document value) (fun reference result => value reference = some result)
        document resolved ∧
      ∀ section_ ∈ sections, ∀ entries, section? document section_ = some (.object entries) →
        ∃ results, section? resolved section_ = some (.object results) ∧
          OrderedMap.keys results = OrderedMap.keys entries ∧
          ∀ name ∈ OrderedMap.keys entries, ∃ result, OrderedMap.get? results name = some result ∧
            value (ofComponent section_ name) = some result := by
  obtain ⟨after, ran⟩ := resolve_ok ok
  obtain ⟨idle, becomes⟩ := resolveDocument_becomes ran
  refine ⟨after.resolved.get?,
    fun reference visited => resolved_of_visited (Nat.lt_succ_self _) ran visited,
    fun reference result held => ?_,
    becomes.mono (fun _ _ represents => represents.replaces) fun _ _ kept => kept,
    fun section_ listed entries held => ?_⟩
  · obtain ⟨target, isTarget, represents⟩ := idle.sound.represents reference result held
    exact ⟨target, isTarget, represents.replaces⟩
  · obtain ⟨result, given, becomesSection⟩ := becomes.ofSection held
    obtain ⟨results, rfl, values⟩ := (sectionBecomes_of_mem listed).mp becomesSection
    refine ⟨results, given, values.keys, fun name isName => ?_⟩
    obtain ⟨entry, found⟩ := Option.isSome_iff_exists.mp ((OrderedMap.isSome_get? _ _).mpr isName)
    exact values.get? found

theorem values_of_resolve_mutual :
    ∃ resolved, resolve mutualDocument = .ok resolved ∧ ∃ value : String → Option Json,
      (∀ reference, Visited mutualDocument reference → (value reference).isSome) ∧
      (∀ reference result, value reference = some result →
        ∃ target, target? mutualDocument reference = some target ∧
          Replaces mutualDocument value target result) ∧
      Becomes (Replaces mutualDocument value) (fun reference result => value reference = some result)
        mutualDocument resolved := by
  obtain ⟨resolved, ok⟩ := mutualDocument_resolves
  obtain ⟨value, known, targets, becomes, -⟩ := values_of_resolve ok
  exact ⟨resolved, ok, value, known, targets, becomes⟩

end ServiceForge.OpenApi.Reference
