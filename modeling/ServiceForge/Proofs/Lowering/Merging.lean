/-
This file proves that merging ends if no part is a reference. What the parts are merged
to is smaller than the schema and has no parts of an `allOf` left; the schemas inside it
stand in the schema itself. The bound on the depth plays no part: it is never less than
the size of the schema.
-/

import Mathlib.Tactic.Choose
import ServiceForge.Lowering.Merge
import ServiceForge.Proofs.Except
import ServiceForge.Proofs.Schema.Equality

namespace ServiceForge.Lowering

open ServiceForge.OpenApi (Schema Spec)
open ServiceForge.OpenApi.Schema (propertiesSize propertySize additionalSize branchesSize)

/-- No part of an `allOf` in a schema is a reference to a component. -/
def Inline (schema : Schema) : Prop :=
  ∀ inner, schema.Holds inner → ∀ part ∈ inner.allOf, part.referenceName? = none

theorem Inline.of_mem_parts {schema part : Schema} (inline : Inline schema)
    (isPart : part ∈ schema.parts) : Inline part :=
  (Schema.forall_holds_iff.mp inline).2 part isPart

theorem Inline.of_parts {schema : Schema} (own : ∀ part ∈ schema.allOf, part.referenceName? = none)
    (parts : ∀ part ∈ schema.parts, Inline part) : Inline schema :=
  Schema.forall_holds_iff.mpr ⟨own, parts⟩

theorem mem_parts_of_allOf {schema part : Schema} (isPart : part ∈ schema.allOf) :
    part ∈ schema.parts := List.mem_append_right _ isPart

/-! ### Sizes -/

/-- A property adds no more than its own size. -/
theorem propertiesSize_insert (properties : List (String × Schema)) (name : String)
    (schema : Schema) :
    propertiesSize (OrderedMap.insert properties name schema) ≤
      propertiesSize properties + schema.size := by
  induction properties with
  | nil => simp [OrderedMap.insert, propertiesSize, propertySize]
  | cons property rest inductionHypothesis =>
    obtain ⟨present, old⟩ := property
    unfold OrderedMap.insert
    split
    · simp only [propertiesSize, propertySize]
      omega
    · simp only [propertiesSize, propertySize]
      omega

theorem propertiesSize_mergeProperties (properties added : List (String × Schema)) :
    propertiesSize (mergeProperties properties added) ≤
      propertiesSize properties + propertiesSize added := by
  induction added generalizing properties with
  | nil => exact Nat.le_add_right _ _
  | cons property rest inductionHypothesis =>
    obtain ⟨name, schema⟩ := property
    have inserted := propertiesSize_insert properties name schema
    have others := inductionHypothesis (OrderedMap.insert properties name schema)
    rw [propertiesSize, propertySize]
    exact Nat.le_trans others (by omega)

/-- Merging a part gives less than the sizes of both. -/
theorem size_mergePart (merged part : Schema) :
    (mergePart merged part).size + 1 ≤ merged.size + part.size := by
  have properties := propertiesSize_mergeProperties merged.properties part.properties
  have additional : additionalSize (merged.additional.or part.additional) ≤
      additionalSize merged.additional + additionalSize part.additional := by
    cases merged.additional with
    | none => exact Nat.le_add_left _ _
    | some extra => exact Nat.le_add_right _ _
  rw [Schema.size_eq (mergePart merged part), Schema.size_eq merged, Schema.size_eq part]
  simp only [mergePart]
  omega

@[simp] theorem size_completeType (schema : Schema) : (completeType schema).size = schema.size := by
  unfold completeType
  split
  · rw [Schema.size_eq, Schema.size_eq schema]
  · rfl

/-- Each part that is merged leaves at least its own node behind. -/
theorem size_mergeParts (schema : Schema) (parts : List Schema) :
    (mergeParts schema parts).size + parts.length + branchesSize schema.allOf ≤
      schema.size + branchesSize parts := by
  have folded : ∀ start : Schema, (parts.foldl mergePart start).size + parts.length ≤
      start.size + branchesSize parts := by
    induction parts with
    | nil => exact fun start => Nat.le_refl _
    | cons part rest inductionHypothesis =>
      intro start
      have first := size_mergePart start part
      have others := inductionHypothesis (mergePart start part)
      rw [List.foldl_cons, List.length_cons, branchesSize]
      omega
  have own : ({ schema with allOf := [] } : Schema).size + branchesSize schema.allOf =
      schema.size := by
    rw [Schema.size_eq, Schema.size_eq schema]
    simp only [branchesSize]
    omega
  have whole := folded { schema with allOf := [] }
  rw [mergeParts, size_completeType]
  omega

/-! ### Merged schemas -/

/-- What a schema is merged to from its parts. -/
structure Merges (schema whole : Schema) : Prop where
  reference : whole.reference = schema.reference
  allOf : whole.allOf = []
  inside : ∀ inner ∈ whole.parts, ∃ outer, schema.Holds outer ∧ inner ∈ outer.parts
  size : whole.size + schema.allOf.length ≤ schema.size

/-- What a merged schema holds, the schema held before. -/
theorem Merges.holds {schema whole inner : Schema} (merges : Merges schema whole)
    (held : whole.Holds inner) : inner = whole ∨ schema.Holds inner := by
  rcases Relation.ReflTransGen.cases_head held with same | ⟨part, isPart, rest⟩
  · exact Or.inl same.symm
  · obtain ⟨outer, holds, inside⟩ := merges.inside part isPart
    exact Or.inr (holds.trans (.head inside rest))

/-- What an inline schema is merged to is inline. -/
theorem Merges.inline {schema whole : Schema} (merges : Merges schema whole)
    (inline : Inline schema) : Inline whole := by
  intro inner holds part isPart
  rcases merges.holds holds with rfl | held
  · rw [merges.allOf] at isPart
    cases isPart
  · exact inline inner held part isPart

theorem parts_completeType (schema : Schema) : (completeType schema).parts = schema.parts := by
  unfold completeType
  split <;> rfl

/-- Each part of merged schemas is a part of one of them. -/
theorem mem_parts_mergePart {merged part inner : Schema}
    (member : inner ∈ (mergePart merged part).parts) :
    inner ∈ merged.parts ∨ inner ∈ part.parts := by
  simp only [Schema.mem_parts] at member ⊢
  rcases member with isItems | ⟨property, isProperty, same⟩ | isEach | rest
  · exact Or.inl (Or.inl isItems)
  · rcases OrderedMap.mem_of_mem_insertAll isProperty with own | added
    · exact Or.inl (Or.inr (Or.inl ⟨property, own, same⟩))
    · exact Or.inr (Or.inr (Or.inl ⟨property, added, same⟩))
  · rcases Option.or_eq_some_iff.mp isEach with own | ⟨-, added⟩
    · exact Or.inl (Or.inr (Or.inr (Or.inl own)))
    · exact Or.inr (Or.inr (Or.inr (Or.inl added)))
  · exact Or.inl (Or.inr (Or.inr (Or.inr rest)))

/-- The schemas inside a merged schema stood in the schema or in one of the parts. -/
theorem mem_parts_mergeParts {schema inner : Schema} {parts : List Schema}
    (member : inner ∈ (mergeParts schema parts).parts) :
    inner ∈ schema.parts ∨ ∃ part ∈ parts, inner ∈ part.parts := by
  have folded : ∀ start : Schema, inner ∈ (parts.foldl mergePart start).parts →
      inner ∈ start.parts ∨ ∃ part ∈ parts, inner ∈ part.parts := by
    clear member
    induction parts with
    | nil => exact fun _ own => Or.inl own
    | cons part rest inductionHypothesis =>
      intro start inside
      rcases inductionHypothesis (mergePart start part) inside with first | ⟨other, later, held⟩
      · exact (mem_parts_mergePart first).imp_right fun held => ⟨part, List.mem_cons_self, held⟩
      · exact Or.inr ⟨other, List.mem_cons_of_mem _ later, held⟩
  rw [mergeParts, parts_completeType] at member
  refine (folded _ member).imp_left fun own => ?_
  rw [Schema.parts, List.append_nil] at own
  exact List.mem_append_left _ own

theorem foldl_mergePart_reference (parts : List Schema) (start : Schema) :
    (parts.foldl mergePart start).reference = start.reference := by
  induction parts generalizing start with
  | nil => rfl
  | cons part rest inductionHypothesis => exact inductionHypothesis (mergePart start part)

theorem foldl_mergePart_allOf (parts : List Schema) (start : Schema) :
    (parts.foldl mergePart start).allOf = start.allOf := by
  induction parts generalizing start with
  | nil => rfl
  | cons part rest inductionHypothesis => exact inductionHypothesis (mergePart start part)

/-- Merging what the parts of a schema give merges the schema. -/
theorem merges_mergeParts {schema : Schema} {give : Schema → Schema}
    (inside : ∀ part ∈ schema.allOf, ∀ inner ∈ (give part).parts,
      ∃ outer, part.Holds outer ∧ inner ∈ outer.parts)
    (size : ∀ part ∈ schema.allOf, (give part).size ≤ part.size) :
    Merges schema (mergeParts schema (schema.allOf.map give)) := by
  have keeps : ∀ {whole : Schema}, (completeType whole).reference = whole.reference ∧
      (completeType whole).allOf = whole.allOf := by
    intro whole
    unfold completeType
    split <;> exact ⟨rfl, rfl⟩
  refine ⟨keeps.1.trans (foldl_mergePart_reference _ _),
    keeps.2.trans (foldl_mergePart_allOf _ _), fun inner member => ?_, ?_⟩
  · rcases mem_parts_mergeParts member with own | ⟨given, isGiven, held⟩
    · exact ⟨schema, .refl, own⟩
    · obtain ⟨part, isPart, rfl⟩ := List.mem_map.mp isGiven
      obtain ⟨outer, holds, isInner⟩ := inside part isPart inner held
      exact ⟨outer, .head (mem_parts_of_allOf isPart) holds, isInner⟩
  · have smaller : ∀ parts : List Schema, (∀ part ∈ parts, (give part).size ≤ part.size) →
        branchesSize (parts.map give) ≤ branchesSize parts := by
      intro parts each
      induction parts with
      | nil => exact Nat.le_refl _
      | cons part rest inductionHypothesis =>
        obtain ⟨first, others⟩ := List.forall_mem_cons.mp each
        exact Nat.add_le_add first (inductionHypothesis others)
    have bound := size_mergeParts schema (schema.allOf.map give)
    have parts := smaller schema.allOf size
    rw [List.length_map] at bound
    omega

/-- What is required after a merge was required by one of both. -/
theorem mem_mergeRequired {names added : List String} {name : String} :
    name ∈ mergeRequired names added ↔ name ∈ names ∨ name ∈ added := by
  induction added generalizing names with
  | nil => simp [mergeRequired]
  | cons first rest inductionHypothesis =>
    have next : name ∈ mergeRequired names (first :: rest) ↔
        name ∈ (if names.contains first then names else names ++ [first]) ∨ name ∈ rest :=
      inductionHypothesis
    rw [next, List.mem_cons]
    by_cases present : first ∈ names
    · rw [if_pos (List.contains_iff_mem.mpr present)]
      constructor
      · exact fun held => held.imp_right Or.inr
      · rintro (own | rfl | later)
        · exact Or.inl own
        · exact Or.inl present
        · exact Or.inr later
    · rw [if_neg fun contains => present (List.contains_iff_mem.mp contains), List.mem_append,
        List.mem_singleton, or_assoc]

/-! ### Parts that are references -/

theorem resolvePart_of_unnamed {spec : Spec} {part : Schema}
    (unnamed : part.referenceName? = none) : resolvePart spec part = .ok part := by
  unfold resolvePart
  rw [unnamed]
  rfl

/-- A part stands for itself or for a component. -/
theorem holds_of_resolvePart {spec : Spec} {P : Schema → Prop} {part target : Schema}
    (component : ∀ name target, spec.schema? name = some target → P target) (own : P part)
    (resolved : resolvePart spec part = .ok target) : P target := by
  unfold resolvePart at resolved
  split at resolved
  · next name _ =>
    split at resolved
    · next found =>
      cases resolved
      exact component name _ found
    · cases resolved
  · cases resolved
    exact own

/-! ### Merging ends -/

/-- What a part of an `allOf` becomes before it is merged. -/
def givePart (spec : Spec) (limit : Nat) (part : Schema) : Except GenerationError Schema := do
  let part ← resolvePart spec part
  if part.allOf.isEmpty then return part else mergeWithin spec limit part

theorem mergeWithin_succ (spec : Spec) (limit : Nat) (schema : Schema) :
    mergeWithin spec (limit + 1) schema =
      schema.allOf.mapM (givePart spec limit) >>= fun parts => return mergeParts schema parts := rfl

/-- An inline part is given as it is, or as its own parts are merged. -/
theorem givePart_of_inline {spec : Spec} {part : Schema} (limit : Nat)
    (named : part.referenceName? = none) :
    givePart spec limit part =
      if part.allOf.isEmpty then .ok part else mergeWithin spec limit part := by
  rw [givePart, resolvePart_of_unnamed named]
  rfl

/-- What a part is merged as, at any depth from its size on. -/
structure Gives (spec : Spec) (part given : Schema) : Prop where
  inside : ∀ inner ∈ given.parts, ∃ outer, part.Holds outer ∧ inner ∈ outer.parts
  size : given.size ≤ part.size
  ends : ∀ limit, part.size ≤ limit → givePart spec limit part = .ok given

/-- An inline part gives something, to each depth that is enough for it. -/
theorem exists_gives {spec : Spec} {part whole : Schema} (named : part.referenceName? = none)
    (merges : Merges part whole)
    (ends : ∀ limit, part.size ≤ limit → mergeWithin spec limit part = .ok whole) :
    ∃ given, Gives spec part given := by
  by_cases single : part.allOf.isEmpty = true
  · refine ⟨part, fun inner member => ⟨part, .refl, member⟩, Nat.le_refl _, fun limit _ => ?_⟩
    rw [givePart_of_inline limit named, if_pos single]
  · have size := merges.size
    refine ⟨whole, merges.inside, by omega, fun limit enough => ?_⟩
    rw [givePart_of_inline limit named, if_neg single]
    exact ends limit enough

/-- Without references among the parts, merging ends at every depth from the size of the schema
on, and the depth does not matter. -/
theorem exists_merges (spec : Spec) (schema : Schema) (inline : Inline schema) :
    ∃ whole, Merges schema whole ∧
      ∀ limit, schema.size ≤ limit → mergeWithin spec limit schema = .ok whole := by
  induction schema using Schema.parts_induction with
  | step schema inductionHypothesis =>
    have each : ∀ part ∈ schema.allOf, ∃ given, Gives spec part given := by
      intro part isPart
      obtain ⟨whole, merges, ends⟩ := inductionHypothesis part (mem_parts_of_allOf isPart)
        (inline.of_mem_parts (mem_parts_of_allOf isPart))
      exact exists_gives (inline schema .refl part isPart) merges ends
    choose! give gives using each
    refine ⟨mergeParts schema (schema.allOf.map give),
      merges_mergeParts (fun part isPart => (gives part isPart).inside)
        (fun part isPart => (gives part isPart).size), fun limit enough => ?_⟩
    cases limit with
    | zero => exact absurd schema.size_pos (Nat.not_lt.mpr enough)
    | succ limit =>
      have given : ∀ part ∈ schema.allOf, givePart spec limit part = .ok (give part) := by
        intro part isPart
        have smaller := Schema.size_lt_of_mem_parts (mem_parts_of_allOf isPart)
        exact (gives part isPart).ends limit (by omega)
      rw [mergeWithin_succ, mapM_eq_ok_map given]
      rfl

/-- The parts of a schema without references among them are merged. -/
theorem mergeAllOf_of_inline (spec : Spec) {schema : Schema} (inline : Inline schema) :
    ∃ whole, Merges schema whole ∧ mergeAllOf spec schema = .ok whole := by
  obtain ⟨whole, merges, ended⟩ := exists_merges spec schema inline
  exact ⟨whole, merges, ended _ (by omega)⟩

/-! ### Merging with references -/

/-- What components have, what a schema passes on to its parts and what merging keeps, a merged
schema has. -/
theorem mergeWithin_keeps {spec : Spec} {P : Schema → Prop}
    (component : ∀ name target, spec.schema? name = some target → P target)
    (part : ∀ {schema part : Schema}, P schema → part ∈ schema.allOf → P part)
    (merges : ∀ {schema : Schema} {parts : List Schema}, P schema → (∀ part ∈ parts, P part) →
      P (mergeParts schema parts))
    {limit : Nat} {schema whole : Schema} (holds : P schema)
    (merged : mergeWithin spec limit schema = .ok whole) : P whole := by
  induction limit generalizing schema whole with
  | zero => cases merged
  | succ limit inductionHypothesis =>
    rw [mergeWithin_succ] at merged
    obtain ⟨parts, given, returned⟩ := bind_eq_ok.mp merged
    cases returned
    refine merges holds fun result member => ?_
    obtain ⟨inner, isPart, gave⟩ := (mem_mapM given).mp member
    obtain ⟨target, resolved, ended⟩ := bind_eq_ok.mp gave
    have holdsTarget : P target := holds_of_resolvePart component (part holds isPart) resolved
    split at ended
    · cases ended
      exact holdsTarget
    · exact inductionHypothesis holdsTarget ended

/-! ### Distinct keys -/

theorem keyedHere_mergePart {merged : Schema} (keyed : merged.KeyedHere) (part : Schema) :
    (mergePart merged part).KeyedHere :=
  ⟨OrderedMap.nodup_keys_insertAll keyed.properties part.properties, keyed.default, keyed.choices,
    keyed.rest⟩

/-- Merging parts keeps the keys of a schema distinct. -/
theorem keyedHere_mergeParts {schema : Schema} (keyed : schema.KeyedHere) (parts : List Schema) :
    (mergeParts schema parts).KeyedHere := by
  have folded : ∀ start : Schema, start.KeyedHere → (parts.foldl mergePart start).KeyedHere := by
    induction parts with
    | nil => exact fun _ own => own
    | cons part rest inductionHypothesis =>
      exact fun start own => inductionHypothesis _ (keyedHere_mergePart own part)
  have whole := folded { schema with allOf := [] }
    ⟨keyed.properties, keyed.default, keyed.choices, keyed.rest⟩
  unfold mergeParts completeType
  split
  · exact ⟨whole.properties, whole.default, whole.choices, whole.rest⟩
  · exact whole

/-- Merging keeps keys distinct. -/
theorem keyed_of_mergeAllOf {spec : Spec}
    (components : ∀ name target, spec.schema? name = some target → target.Keyed)
    {schema whole : Schema} (keyed : schema.Keyed) (merged : mergeAllOf spec schema = .ok whole) :
    whole.Keyed := by
  refine mergeWithin_keeps components
    (fun keyed isPart => keyed.of_mem_parts (mem_parts_of_allOf isPart)) ?_ keyed merged
  intro schema parts keyed each
  refine Schema.keyed_iff.mpr ⟨keyedHere_mergeParts (Schema.keyed_iff.mp keyed).1 parts, ?_⟩
  intro inner member
  rcases mem_parts_mergeParts member with own | ⟨part, isPart, held⟩
  · exact keyed.of_mem_parts own
  · exact (each part isPart).of_mem_parts held

end ServiceForge.Lowering
