/-
This file compares the two ways in which a schema with parts is merged. They agree on the
names of the properties and on the required names, both in order. For a property that is
defined more than once an attribute is derived from its first definition, and a type from
its last one.
-/

import ServiceForge.Descriptor.Derivation
import ServiceForge.Proofs.Lowering.Active
import ServiceForge.Proofs.Lowering.MergeOrder

namespace ServiceForge.Descriptor

open ServiceForge.Lowering (Combines Inline MergeOrder PartsOrder emptyContext firstDefinition?
  lastDefinition? mergeRequired resolvePart_of_unnamed wholeOf)
open ServiceForge.OpenApi (Schema Spec)

/-! ### Properties -/

theorem keys_mergeProperties (properties added : List (String × Schema)) :
    OrderedMap.keys (mergeProperties properties added) =
      mergeRequired (OrderedMap.keys properties) (OrderedMap.keys added) := by
  refine Lowering.keys_foldl (fun properties property => ?_) properties added
  rw [Lowering.mergeRequired_singleton]
  unfold OrderedMap.insertNew OrderedMap.contains
  by_cases old : property.1 ∈ OrderedMap.keys properties
  · rw [if_pos old, if_pos ((OrderedMap.isSome_get? _ _).mpr old)]
  · rw [if_neg old, if_neg (fun held => old ((OrderedMap.isSome_get? _ _).mp held)),
      OrderedMap.keys, List.map_append]
    rfl

theorem get?_insertNew (properties : List (String × Schema)) (property : String × Schema)
    (name : String) :
    OrderedMap.get? (OrderedMap.insertNew properties property.1 property.2) name =
      (OrderedMap.get? properties name).or (OrderedMap.get? [property] name) := by
  unfold OrderedMap.insertNew OrderedMap.contains
  by_cases old : (OrderedMap.get? properties property.1).isSome = true
  · rw [if_pos old, OrderedMap.get?_cons, OrderedMap.get?_nil]
    by_cases same : name = property.1
    · obtain ⟨schema, found⟩ := Option.isSome_iff_exists.mp old
      rw [same, found]
      rfl
    · rw [if_neg same, Option.or_none]
  · rw [if_neg old]
    exact OrderedMap.get?_append _ _ _

/-- What was there under a name goes before what is added. -/
theorem get?_mergeProperties (properties added : List (String × Schema)) (name : String) :
    OrderedMap.get? (mergeProperties properties added) name =
      (OrderedMap.get? properties name).or (OrderedMap.get? added name) := by
  induction added generalizing properties with
  | nil => exact Option.or_none.symm
  | cons property rest inductionHypothesis =>
    have next := inductionHypothesis (OrderedMap.insertNew properties property.1 property.2)
    rw [get?_insertNew, Option.or_assoc, ← OrderedMap.get?_append] at next
    exact next

/-! ### Schemas -/

/-- Deriving attributes lets the first definition win. -/
theorem combines_mergePart {schema merged part : Schema} {layers others : List Schema}
    (combines : Combines firstDefinition? (schema :: layers) merged)
    (more : Combines firstDefinition? others part) :
    Combines firstDefinition? (schema :: layers ++ others) (mergePart merged part) := by
  refine combines.append more (keys_mergeProperties _ _) (fun name => ?_) rfl
  show OrderedMap.get? (mergeProperties merged.properties part.properties) name = _
  rw [get?_mergeProperties, combines.picked, more.picked, firstDefinition?, firstDefinition?,
    firstDefinition?, Lowering.definitions_append, OrderedMap.get?_append]

theorem combines_mergeParts {spec : Spec} {parts others layers : List Schema}
    {schema merged : Schema}
    (each : ∀ part ∈ parts, ∀ own, MergeOrder spec part own →
      Combines firstDefinition? own (mergeAllOf part))
    (unnamed : ∀ part ∈ parts, part.referenceName? = none)
    (partLayers : PartsOrder spec parts others)
    (combines : Combines firstDefinition? (schema :: layers) merged) :
    Combines firstDefinition? (schema :: layers ++ others) (mergeParts merged parts) := by
  induction parts generalizing others layers merged with
  | nil =>
    cases partLayers
    rw [List.append_nil]
    exact combines
  | cons part rest inductionHypothesis =>
    obtain ⟨first, later⟩ := List.forall_mem_cons.mp each
    obtain ⟨own, unnamed⟩ := List.forall_mem_cons.mp unnamed
    cases partLayers with
    | @cons _ target _ ownLayers others resolved isOwn restLayers =>
      rw [resolvePart_of_unnamed own] at resolved
      cases resolved
      have whole := inductionHypothesis later unnamed restLayers
        (combines_mergePart combines (first ownLayers isOwn))
      have same : schema :: (layers ++ ownLayers) ++ others =
          schema :: layers ++ (ownLayers ++ others) := by simp
      exact same ▸ whole

theorem mergeAllOf_eq (schema : Schema) :
    mergeAllOf schema = mergeParts { schema with allOf := [] } schema.allOf := by
  cases schema
  rfl

/-- What attributes are derived from has the first definition of each property. -/
theorem combines_mergeAllOf {spec : Spec} {schema : Schema} {layers : List Schema}
    (inline : Inline schema) (keyed : schema.Keyed) (isLayers : MergeOrder spec schema layers) :
    Combines firstDefinition? layers (mergeAllOf schema) := by
  induction schema using Schema.parts_induction generalizing layers with
  | step schema inductionHypothesis =>
    cases isLayers with
    | @mk _ others partLayers =>
      have alone : Combines firstDefinition? [schema] schema :=
        Lowering.combines_singleton (Schema.keyed_iff.mp keyed).1.properties fun name => by
          rw [firstDefinition?, Lowering.definitions_singleton]
      have own : Combines firstDefinition? [schema] { schema with allOf := [] } :=
        ⟨alone.names, alone.picked, alone.required⟩
      rw [mergeAllOf_eq]
      refine combines_mergeParts (fun part isPart ownLayers isOwn => ?_)
        (inline schema .refl) partLayers own
      have inside := Lowering.mem_parts_of_allOf isPart
      exact inductionHypothesis part inside (inline.of_mem_parts inside)
        (keyed.of_mem_parts inside) isOwn

/-- A schema without references among its parts is merged both for types and for attributes. The
merged schemas have the same properties and the same required names, in the same order. A property
has its last definition in the one and its first in the other, so the two agree on all properties
exactly if the first and the last definition of each name are the same. -/
theorem merged_alike_iff (context : Lowering.Context) {schema : Schema} (inline : Inline schema)
    (keyed : schema.Keyed) :
    ∃ whole layers, wholeOf context schema = .ok whole ∧ MergeOrder context.spec schema layers ∧
      OrderedMap.keys whole.properties = OrderedMap.keys (mergeAllOf schema).properties ∧
      whole.required = (mergeAllOf schema).required ∧
      (∀ name, OrderedMap.get? whole.properties name = lastDefinition? layers name ∧
        OrderedMap.get? (mergeAllOf schema).properties name = firstDefinition? layers name) ∧
      ((∀ name, OrderedMap.get? whole.properties name =
          OrderedMap.get? (mergeAllOf schema).properties name) ↔
        ∀ name, firstDefinition? layers name = lastDefinition? layers name) := by
  obtain ⟨whole, merged⟩ : ∃ whole, wholeOf context schema = .ok whole := by
    unfold wholeOf
    split
    · exact ⟨schema, rfl⟩
    · obtain ⟨whole, -, merged⟩ := Lowering.mergeAllOf_of_inline context.spec inline
      exact ⟨whole, merged⟩
  obtain ⟨layers, isLayers, last⟩ :=
    (Lowering.partClosed_inline context.spec).exists_layers_of_wholeOf ⟨inline, keyed⟩ merged
  have first := combines_mergeAllOf inline keyed isLayers
  refine ⟨whole, layers, merged, isLayers, last.names.trans first.names.symm,
    last.required.trans first.required.symm, fun name => ⟨last.picked name, first.picked name⟩, ?_⟩
  refine forall_congr' fun name => ?_
  rw [last.picked, first.picked, eq_comm]

/-- A quota whose properties are told in parts of parts, some of them twice. -/
def quotaSchema : Schema where
  properties := [("limit", .ofType "integer")]
  required := ["limit"]
  allOf := [
    { properties := [("used", .ofType "integer")]
      required := ["used", "limit"]
      allOf := [
        { properties := [("unit", .ofType "string"), ("limit", .ofType "integer")]
          required := ["unit"] }] },
    { properties := [("unit", .ofType "string")] }]

theorem quotaSchema_inline_keyed : Inline quotaSchema ∧ quotaSchema.Keyed := by
  have step {schema : Schema} (own : schema.KeyedHere)
      (unnamed : ∀ part ∈ schema.allOf, part.referenceName? = none)
      (each : ∀ part ∈ schema.parts, Inline part ∧ part.Keyed) : Inline schema ∧ schema.Keyed :=
    ⟨.of_parts unnamed fun part isPart => (each part isPart).1,
      Schema.keyed_iff.mpr ⟨own, fun part isPart => (each part isPart).2⟩⟩
  have scalar (name : String) : Inline (.ofType name) ∧ (Schema.ofType name).Keyed :=
    step ⟨List.nodup_nil, nofun, nofun, rfl⟩ nofun nofun
  refine step ⟨by decide, nofun, nofun, rfl⟩ (by decide) (List.forall_mem_cons.mpr
    ⟨scalar _, List.forall_mem_cons.mpr ⟨?_, List.forall_mem_singleton.mpr ?_⟩⟩)
  · refine step ⟨by decide, nofun, nofun, rfl⟩ (by decide) (List.forall_mem_cons.mpr
      ⟨scalar _, List.forall_mem_singleton.mpr ?_⟩)
    exact step ⟨by decide, nofun, nofun, rfl⟩ nofun (List.forall_mem_cons.mpr
      ⟨scalar _, List.forall_mem_singleton.mpr (scalar _)⟩)
  · exact step ⟨by decide, nofun, nofun, rfl⟩ nofun (List.forall_mem_singleton.mpr (scalar _))

theorem merged_alike_iff_quota :
    ∃ whole, wholeOf emptyContext quotaSchema = .ok whole ∧
      OrderedMap.keys whole.properties = ["limit", "used", "unit"] ∧
      whole.required = ["limit", "used", "unit"] ∧
      ∀ name, OrderedMap.get? whole.properties name =
        OrderedMap.get? (mergeAllOf quotaSchema).properties name := by
  obtain ⟨whole, layers, merged, isLayers, names, required, -, alike⟩ :=
    merged_alike_iff emptyContext quotaSchema_inline_keyed.1 quotaSchema_inline_keyed.2
  cases isLayers.unique (.mk (.cons rfl (.mk (.cons rfl (.mk .nil) .nil))
    (.cons rfl (.mk .nil) .nil)))
  refine ⟨whole, merged, names.trans (by decide), required.trans (by decide),
    alike.mpr fun name => ?_⟩
  by_cases limit : name = "limit"
  · subst limit
    rfl
  by_cases used : name = "used"
  · subst used
    rfl
  · simp [firstDefinition?, lastDefinition?, Lowering.definitions, quotaSchema,
      OrderedMap.get?_cons, limit, used]

/-- A size that a part describes in another way than the schema itself. -/
def resizedSchema : Schema where
  properties := [("size", .ofType "integer")]
  allOf := [{ properties := [("size", .ofType "string")] }]

/-- The two merged schemas may disagree on a property. -/
theorem merged_not_alike :
    ∃ whole, wholeOf emptyContext resizedSchema = .ok whole ∧
      (OrderedMap.get? whole.properties "size").map Schema.types = some ["string"] ∧
      (OrderedMap.get? (mergeAllOf resizedSchema).properties "size").map Schema.types =
        some ["integer"] :=
  ⟨_, rfl, rfl, rfl⟩

end ServiceForge.Descriptor
