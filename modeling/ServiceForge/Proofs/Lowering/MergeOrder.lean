/-
This file says what a schema with parts defines: its own properties and required names
come first, then those of its parts, one after another and however deep; a reference to
a component stands for its schema. A merged schema has each property once, in the place
of its first definition and with its last one.
-/

import Mathlib.Data.List.Induction
import ServiceForge.Proofs.Lowering.Merging
import ServiceForge.Proofs.Lowering.Reachable
import ServiceForge.Proofs.Repetitions

namespace ServiceForge.Lowering

open ServiceForge.OpenApi (Schema Spec)

/-! ### The layers of a schema -/

mutual

/-- The schemas that are merged for a schema, in their order: the schema itself and then those of
its parts. -/
inductive MergeOrder (spec : Spec) : Schema → List Schema → Prop
  | mk {schema : Schema} {others : List Schema} :
      PartsOrder spec schema.allOf others → MergeOrder spec schema (schema :: others)

/-- The schemas that are merged for parts. -/
inductive PartsOrder (spec : Spec) : List Schema → List Schema → Prop
  | nil : PartsOrder spec [] []
  | cons {part target : Schema} {rest own others : List Schema} :
      resolvePart spec part = .ok target → MergeOrder spec target own →
        PartsOrder spec rest others → PartsOrder spec (part :: rest) (own ++ others)

end

mutual

/-- A schema has one list of layers at most. -/
theorem MergeOrder.unique {spec : Spec} {schema : Schema} {left right : List Schema} :
    MergeOrder spec schema left → MergeOrder spec schema right → left = right
  | .mk first, .mk second => congrArg (schema :: ·) (first.unique second)

theorem PartsOrder.unique {spec : Spec} {parts left right : List Schema} :
    PartsOrder spec parts left → PartsOrder spec parts right → left = right
  | .nil, .nil => rfl
  | .cons resolved own others, .cons resolvedToo ownToo othersToo => by
    cases resolved.symm.trans resolvedToo
    rw [own.unique ownToo, others.unique othersToo]

end

/-- All definitions of properties, a name perhaps several times. -/
def definitions (layers : List Schema) : List (String × Schema) :=
  layers.flatMap Schema.properties

/-- The first definition of a property in some layers. -/
def firstDefinition? (layers : List Schema) (name : String) : Option Schema :=
  OrderedMap.get? (definitions layers) name

/-- The last definition of a property in some layers. -/
def lastDefinition? (layers : List Schema) (name : String) : Option Schema :=
  OrderedMap.get? (definitions layers).reverse name

/-- The names of the properties in the order in which they are first defined. -/
def definedNames (layers : List Schema) : List String :=
  (OrderedMap.keys (definitions layers)).eraseDups

/-- The required names: those of the schema itself, then the new ones of its parts. -/
def requiredNames : List Schema → List String
  | [] => []
  | schema :: others =>
    schema.required ++ ((others.flatMap Schema.required).removeAll schema.required).eraseDups

theorem mem_requiredNames {layers : List Schema} {name : String} :
    name ∈ requiredNames layers ↔ ∃ layer ∈ layers, name ∈ layer.required := by
  cases layers with
  | nil => simp [requiredNames]
  | cons schema others =>
    by_cases own : name ∈ schema.required <;>
      simp [requiredNames, List.mem_eraseDups, List.removeAll, own]

/-! ### First occurrences -/

theorem mergeRequired_append (names added more : List String) :
    mergeRequired names (added ++ more) = mergeRequired (mergeRequired names added) more :=
  List.foldl_append

theorem mergeRequired_singleton (names : List String) (name : String) :
    mergeRequired names [name] = if name ∈ names then names else names ++ [name] := by
  by_cases present : name ∈ names <;> simp [mergeRequired, present]

/-- The new names come at the end, each once. -/
theorem mergeRequired_eq (names added : List String) :
    mergeRequired names added = names ++ (added.removeAll names).eraseDups := by
  induction added using List.reverseRecOn with
  | nil => exact (List.append_nil names).symm
  | append_singleton added name inductionHypothesis =>
    have split : (added ++ [name]).removeAll names =
        added.removeAll names ++ [name].removeAll names := by
      simp only [List.removeAll, List.filter_append]
    rw [mergeRequired_append, mergeRequired_singleton, inductionHypothesis, split,
      List.eraseDups_append, ← List.append_assoc]
    by_cases old : name ∈ names
    · rw [if_pos (List.mem_append_left _ old)]
      simp [List.removeAll, old]
    · by_cases again : name ∈ added
      · have held : name ∈ (added.removeAll names).eraseDups := by
          simp [List.mem_eraseDups, List.removeAll, again, old]
        rw [if_pos (List.mem_append_right _ held)]
        simp [List.removeAll, old, again]
      · have new : name ∉ names ++ (added.removeAll names).eraseDups := by
          simp [List.mem_eraseDups, List.removeAll, again, old]
        have single : [name].eraseDups = [name] := rfl
        rw [if_neg new]
        simp [List.removeAll, old, again, single]

theorem mergeRequired_nil (names : List String) : mergeRequired [] names = names.eraseDups := by
  rw [mergeRequired_eq, List.nil_append, List.removeAll_nil]

/-- Names that were merged before are merged as if they came one by one. -/
theorem mergeRequired_mergeRequired (names added more : List String) :
    mergeRequired names (mergeRequired added more) = mergeRequired names (added ++ more) := by
  induction more using List.reverseRecOn with
  | nil => rw [List.append_nil]; rfl
  | append_singleton more name inductionHypothesis =>
    rw [← List.append_assoc, mergeRequired_append, mergeRequired_append names,
      ← inductionHypothesis, mergeRequired_singleton, mergeRequired_singleton]
    by_cases old : name ∈ mergeRequired added more
    · rw [if_pos old, if_pos (mem_mergeRequired.mpr (Or.inr old))]
    · rw [if_neg old, mergeRequired_append, mergeRequired_singleton]

/-! ### Merged properties -/

/-- Properties are added one by one, each under its own name. -/
theorem keys_foldl {add : List (String × Schema) → String × Schema → List (String × Schema)}
    (adds : ∀ properties property, OrderedMap.keys (add properties property) =
      mergeRequired (OrderedMap.keys properties) [property.1])
    (properties added : List (String × Schema)) :
    OrderedMap.keys (added.foldl add properties) =
      mergeRequired (OrderedMap.keys properties) (OrderedMap.keys added) := by
  induction added generalizing properties with
  | nil => rfl
  | cons property rest inductionHypothesis =>
    have next := inductionHypothesis (add properties property)
    rw [adds, ← mergeRequired_append] at next
    exact next

theorem keys_mergeProperties (properties added : List (String × Schema)) :
    OrderedMap.keys (mergeProperties properties added) =
      mergeRequired (OrderedMap.keys properties) (OrderedMap.keys added) := by
  refine keys_foldl (fun properties property => ?_) properties added
  rw [mergeRequired_singleton]
  split
  · next old => exact OrderedMap.keys_insert_of_mem property.2 old
  · next new =>
    rw [OrderedMap.insert_of_notMem property.2 new, OrderedMap.keys, List.map_append]
    rfl

/-- What was added last under a name goes before what was there. -/
theorem get?_mergeProperties (properties added : List (String × Schema)) (name : String) :
    OrderedMap.get? (mergeProperties properties added) name =
      (OrderedMap.get? added.reverse name).or (OrderedMap.get? properties name) := by
  induction added generalizing properties with
  | nil => rfl
  | cons property rest inductionHypothesis =>
    have next := inductionHypothesis (OrderedMap.insert properties property.1 property.2)
    have last : OrderedMap.get? (property :: rest).reverse name =
        (OrderedMap.get? rest.reverse name).or (OrderedMap.get? [property] name) := by
      rw [List.reverse_cons]
      exact OrderedMap.get?_append _ _ _
    rw [OrderedMap.get?_insert] at next
    rw [last, Option.or_assoc]
    refine next.trans (congrArg _ ?_)
    rw [OrderedMap.get?_cons]
    split <;> rfl

/-- Among distinct names the last definition is the first. -/
theorem get?_reverse_of_nodup {properties : List (String × Schema)}
    (distinct : (OrderedMap.keys properties).Nodup) (name : String) :
    OrderedMap.get? properties.reverse name = OrderedMap.get? properties name := by
  refine OrderedMap.get?_perm (List.reverse_perm properties) ?_ name
  rw [OrderedMap.keys, List.map_reverse, List.nodup_reverse]
  exact distinct

/-! ### Merged schemas -/

/-- A way to choose one of the definitions of a name. -/
abbrev Pick := List Schema → String → Option Schema

/-- A schema that stands for layers: each property once, in the place of its first definition. -/
structure Combines (pick : Pick) (layers : List Schema) (whole : Schema) : Prop where
  names : OrderedMap.keys whole.properties = definedNames layers
  picked : ∀ name, OrderedMap.get? whole.properties name = pick layers name
  required : whole.required = requiredNames layers

section Combines

variable {pick : Pick} {layers others : List Schema} {merged part whole schema : Schema}

theorem definitions_append (layers others : List Schema) :
    definitions (layers ++ others) = definitions layers ++ definitions others :=
  List.flatMap_append

theorem definitions_singleton (schema : Schema) : definitions [schema] = schema.properties :=
  List.append_nil schema.properties

theorem Combines.nodup (combines : Combines pick layers whole) :
    (OrderedMap.keys whole.properties).Nodup := by
  rw [combines.names]
  exact nodup_eraseDups _

theorem Combines.pick_of_mem (combines : Combines pick layers whole)
    {property : String × Schema} (member : property ∈ whole.properties) :
    pick layers property.1 = some property.2 := by
  rw [← combines.picked]
  exact OrderedMap.get?_of_mem combines.nodup member

/-- A schema without parts stands for itself. -/
theorem combines_singleton (distinct : (OrderedMap.keys schema.properties).Nodup)
    (picked : ∀ name, pick [schema] name = OrderedMap.get? schema.properties name) :
    Combines pick [schema] schema where
  names := by rw [definedNames, definitions_singleton, eraseDups_of_nodup distinct]
  picked name := (picked name).symm
  required := by simp [requiredNames, List.removeAll]

/-- What layers are combined to, and then those of a part. -/
theorem Combines.append (combines : Combines pick (schema :: layers) merged)
    (more : Combines pick others part)
    (names : OrderedMap.keys whole.properties =
      mergeRequired (OrderedMap.keys merged.properties) (OrderedMap.keys part.properties))
    (picked : ∀ name, OrderedMap.get? whole.properties name = pick (schema :: layers ++ others) name)
    (required : whole.required = mergeRequired merged.required part.required) :
    Combines pick (schema :: layers ++ others) whole where
  names := by
    rw [names, combines.names, more.names, definedNames, definedNames, definedNames,
      definitions_append, ← mergeRequired_nil, ← mergeRequired_nil, ← mergeRequired_nil,
      mergeRequired_mergeRequired, List.nil_append, ← mergeRequired_append, OrderedMap.keys,
      OrderedMap.keys, OrderedMap.keys, List.map_append]
  picked := picked
  required := by
    rw [required, combines.required, more.required]
    cases others with
    | nil => simp [requiredNames, mergeRequired]
    | cons first rest =>
      simp only [requiredNames, List.cons_append, ← mergeRequired_eq, List.flatMap_append,
        List.flatMap_cons]
      rw [mergeRequired_mergeRequired, ← mergeRequired_append]

/-- Lowering lets the last definition win. -/
theorem Combines.mergePart (combines : Combines lastDefinition? (schema :: layers) merged)
    (more : Combines lastDefinition? others part) :
    Combines lastDefinition? (schema :: layers ++ others) (mergePart merged part) := by
  refine combines.append more (keys_mergeProperties _ _) (fun name => ?_) rfl
  have own := combines.picked name
  have added := more.picked name
  rw [lastDefinition?] at own added
  show OrderedMap.get? (mergeProperties merged.properties part.properties) name = _
  rw [get?_mergeProperties, get?_reverse_of_nodup more.nodup, own, added, lastDefinition?,
    definitions_append, List.reverse_append, OrderedMap.get?_append]

end Combines

/-! ### Merging -/

section Merging

variable {spec : Spec} {context : Context} {limit : Nat} {schema whole : Schema}

theorem combines_completeType {pick : Pick} {layers : List Schema}
    (combines : Combines pick layers whole) : Combines pick layers (completeType whole) := by
  unfold completeType
  split
  · exact ⟨combines.names, combines.picked, combines.required⟩
  · exact combines

/-- Schemas whose properties have distinct names, each with the schemas that its parts stand for. -/
structure PartClosed (spec : Spec) (P : Schema → Prop) : Prop where
  distinct : ∀ {schema}, P schema → (OrderedMap.keys schema.properties).Nodup
  part : ∀ {schema part target}, P schema → part ∈ schema.allOf →
    resolvePart spec part = .ok target → P target

theorem combines_of_nodup (distinct : (OrderedMap.keys schema.properties).Nodup) :
    Combines lastDefinition? [schema] schema := by
  refine combines_singleton distinct fun name => ?_
  rw [lastDefinition?, definitions_singleton, get?_reverse_of_nodup distinct]

/-- Parts are combined one after another. -/
theorem combines_foldl {parts results layers : List Schema}
    {start : Schema} {convert : Schema → Except GenerationError Schema}
    (each : ∀ part ∈ parts, ∀ result, convert part = .ok result →
      ∃ target own, resolvePart spec part = .ok target ∧ MergeOrder spec target own ∧
        Combines lastDefinition? own result)
    (converted : parts.mapM convert = .ok results)
    (combines : Combines lastDefinition? (schema :: layers) start) :
    ∃ others, PartsOrder spec parts others ∧
      Combines lastDefinition? (schema :: layers ++ others) (results.foldl mergePart start) := by
  induction parts generalizing results layers start with
  | nil =>
    cases converted
    exact ⟨[], .nil, by rwa [List.append_nil]⟩
  | cons part rest inductionHypothesis =>
    rw [List.mapM_cons] at converted
    obtain ⟨result, isResult, converted⟩ := bind_eq_ok.mp converted
    obtain ⟨remaining, convertedRest, returned⟩ := bind_eq_ok.mp converted
    cases returned
    obtain ⟨first, later⟩ := List.forall_mem_cons.mp each
    obtain ⟨target, own, resolved, ownLayers, more⟩ := first result isResult
    obtain ⟨others, restLayers, whole⟩ :=
      inductionHypothesis later convertedRest (combines.mergePart more)
    have same : schema :: (layers ++ own) ++ others = schema :: layers ++ (own ++ others) := by
      simp
    exact ⟨own ++ others, .cons resolved ownLayers restLayers, same ▸ whole⟩

/-- What a schema is merged to combines its layers. -/
theorem PartClosed.exists_layers {P : Schema → Prop} (closed : PartClosed spec P) (held : P schema)
    (merged : mergeWithin spec limit schema = .ok whole) :
    ∃ layers, MergeOrder spec schema layers ∧ Combines lastDefinition? layers whole := by
  induction limit generalizing schema whole with
  | zero => cases merged
  | succ limit inductionHypothesis =>
    rw [mergeWithin_succ] at merged
    obtain ⟨parts, given, returned⟩ := bind_eq_ok.mp merged
    cases returned
    have own : Combines lastDefinition? [schema] { schema with allOf := [] } := by
      have combines := combines_of_nodup (closed.distinct held)
      exact ⟨combines.names, combines.picked, combines.required⟩
    suffices each : ∀ part ∈ schema.allOf, ∀ result, givePart spec limit part = .ok result →
        ∃ target layers, resolvePart spec part = .ok target ∧ MergeOrder spec target layers ∧
          Combines lastDefinition? layers result by
      obtain ⟨others, partLayers, combines⟩ := combines_foldl each given own
      exact ⟨schema :: others, .mk partLayers, combines_completeType combines⟩
    intro part isPart result gave
    obtain ⟨target, resolved, ended⟩ := bind_eq_ok.mp gave
    have heldTarget := closed.part held isPart resolved
    split at ended
    · next single =>
      cases ended
      refine ⟨result, [result], resolved, .mk ?_, combines_of_nodup (closed.distinct heldTarget)⟩
      rw [List.isEmpty_iff.mp single]
      exact .nil
    · obtain ⟨layers, isLayers, combines⟩ := inductionHypothesis heldTarget ended
      exact ⟨target, layers, resolved, isLayers, combines⟩

theorem PartClosed.exists_layers_of_wholeOf {P : Schema → Prop} (closed : PartClosed context.spec P)
    (held : P schema) (merged : wholeOf context schema = .ok whole) :
    ∃ layers, MergeOrder context.spec schema layers ∧ Combines lastDefinition? layers whole := by
  unfold wholeOf at merged
  split at merged
  · next single =>
    cases merged
    refine ⟨[schema], .mk ?_, combines_of_nodup (closed.distinct held)⟩
    rw [List.isEmpty_iff.mp single]
    exact .nil
  · exact closed.exists_layers held merged

end Merging

/-! ### Classes of schemas -/

section Classes

variable {spec : Spec}

/-- In a document all maps have distinct keys. -/
theorem partClosed_keyed
    (components : ∀ name target, spec.schema? name = some target → target.Keyed) :
    PartClosed spec Schema.Keyed where
  distinct keyed := (Schema.keyed_iff.mp keyed).1.properties
  part keyed isPart resolved :=
    holds_of_resolvePart components (keyed.of_mem_parts (mem_parts_of_allOf isPart)) resolved

/-- Without references among the parts the components do not matter. -/
theorem partClosed_inline (spec : Spec) :
    PartClosed spec fun schema => Inline schema ∧ schema.Keyed where
  distinct held := (Schema.keyed_iff.mp held.2).1.properties
  part held isPart resolved := by
    rw [resolvePart_of_unnamed (held.1 _ .refl _ isPart)] at resolved
    cases resolved
    have inside := mem_parts_of_allOf isPart
    exact ⟨held.1.of_mem_parts inside, held.2.of_mem_parts inside⟩

end Classes

end ServiceForge.Lowering
