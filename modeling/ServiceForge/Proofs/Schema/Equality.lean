/-
This file proves what the equality of schemas says: equal schemas agree in what does not
depend on the order of their keys, and a schema is equal to itself if the keys of its maps
are distinct, since a property is looked up by its name.
-/

import ServiceForge.OpenApi.Spec.Equality
import ServiceForge.Proofs.Json
import ServiceForge.Proofs.Schema.Size

namespace ServiceForge

/-! ### Equal values -/

namespace Json

theorem isString_of_equal {left right : Json} (same : left.equal right = true) :
    left.isString = right.isString := by
  cases left <;> cases right <;> first | rfl | cases same

theorem isNull_of_equal {left right : Json} (same : left.equal right = true) :
    left.isNull = right.isNull := by
  cases left <;> cases right <;> first | rfl | cases same

/-- Whatever equal values agree in, lists of equal values agree in. -/
theorem map_of_equalItems {β : Type} (view : Json → β)
    (kept : ∀ left right : Json, left.equal right = true → view left = view right) :
    ∀ lefts rights : List Json, equalItems lefts rights = true → lefts.map view = rights.map view
  | [], [], _ => rfl
  | left :: lefts, right :: rights, same => by
    simp only [equalItems, Bool.and_eq_true] at same
    rw [List.map_cons, List.map_cons, kept left right same.1,
      map_of_equalItems view kept lefts rights same.2]
  | [], _ :: _, same => by cases same
  | _ :: _, [], same => by cases same

end Json

namespace OpenApi.Schema

/-! ### Equal schemas -/

theorem equal_eq (left right : Schema) :
    left.equal right =
      (equalKeywords left right && equalItems left.items right.items &&
        left.properties.length == right.properties.length &&
        equalProperties left.properties right.properties &&
        equalAdditional left.additional right.additional && equalBranches left.oneOf right.oneOf &&
        equalBranches left.anyOf right.anyOf && equalBranches left.allOf right.allOf) := by
  cases left
  rfl

theorem isEmpty_of_equalBranches {lefts rights : List Schema}
    (same : equalBranches lefts rights = true) : lefts.isEmpty = rights.isEmpty := by
  cases lefts <;> cases rights <;> first | rfl | cases same

theorem isSome_of_equalItems {left right : Option Schema} (same : equalItems left right = true) :
    left.isSome = right.isSome := by
  cases left <;> cases right <;> first | rfl | cases same

theorem isSome_of_equalAdditional {left right : Option (Additional Schema)}
    (same : equalAdditional left right = true) : left.isSome = right.isSome := by
  cases left <;> cases right <;> first | rfl | cases same

/-! ### Distinct keys -/

/-- The keys of each map that stands in a schema itself are distinct. -/
structure KeyedHere (schema : Schema) : Prop where
  properties : (OrderedMap.keys schema.properties).Nodup
  default : ∀ document, schema.default = some document → document.isKeyed = true
  choices : ∀ document ∈ schema.choices, document.isKeyed = true
  rest : Json.isKeyed (.object schema.rest) = true

/-- The keys of each map in a schema are distinct, however deep. -/
def Keyed (schema : Schema) : Prop := ∀ inner, schema.Holds inner → inner.KeyedHere

section Keyed

variable {schema part : Schema}

theorem keyed_iff : schema.Keyed ↔ schema.KeyedHere ∧ ∀ part ∈ schema.parts, part.Keyed :=
  forall_holds_iff

theorem Keyed.of_mem_parts (keyed : schema.Keyed) (isPart : part ∈ schema.parts) : part.Keyed :=
  (keyed_iff.mp keyed).2 part isPart

theorem Keyed.of_parts (own : schema.KeyedHere) (parts : ∀ part ∈ schema.parts, part.Keyed) :
    schema.Keyed := keyed_iff.mpr ⟨own, parts⟩

theorem keyed_ofType (name : String) : (ofType name).Keyed :=
  .of_parts ⟨List.nodup_nil, nofun, nofun, rfl⟩ nofun

/-! ### A schema equals itself -/

theorem equalKeywords_self (keyed : schema.KeyedHere) : equalKeywords schema schema = true := by
  have default : equalDefaults schema.default schema.default = true := by
    cases own : schema.default with
    | none => rfl
    | some document => exact document.equal_self (keyed.default document own)
  have choices := Json.equalItems_self fun document member =>
    document.equal_self (keyed.choices document member)
  have rest := Json.equal_self _ keyed.rest
  simp [equalKeywords, default, choices, rest]

theorem equalBranches_self {branches : List Schema}
    (each : ∀ branch ∈ branches, branch.equal branch = true) :
    equalBranches branches branches = true := by
  induction branches with
  | nil => rfl
  | cons branch rest inductionHypothesis =>
    obtain ⟨first, others⟩ := List.forall_mem_cons.mp each
    rw [equalBranches, first, inductionHypothesis others]
    rfl

theorem equalProperties_of_subset {properties whole : List (String × Schema)}
    (distinct : (OrderedMap.keys whole).Nodup) (inside : properties ⊆ whole)
    (each : ∀ property ∈ properties, property.2.equal property.2 = true) :
    equalProperties properties whole = true := by
  induction properties with
  | nil => rfl
  | cons property rest inductionHypothesis =>
    obtain ⟨name, schema⟩ := property
    obtain ⟨first, others⟩ := List.forall_mem_cons.mp each
    have found : List.lookup name whole = some schema :=
      OrderedMap.get?_of_mem distinct (inside List.mem_cons_self)
    have rest := inductionHypothesis (List.cons_subset.mp inside).2 others
    rw [equalProperties, equalProperty, found, rest, Bool.and_true]
    exact first

theorem equal_self (schema : Schema) (keyed : schema.Keyed) : schema.equal schema = true := by
  induction schema using parts_induction with
  | step schema inductionHypothesis =>
    have each : ∀ part ∈ schema.parts, part.equal part = true :=
      fun part isPart => inductionHypothesis part isPart (keyed.of_mem_parts isPart)
    have own := (keyed_iff.mp keyed).1
    have items : equalItems schema.items schema.items = true := by
      cases isItems : schema.items with
      | none => rfl
      | some items => exact each items (mem_parts.mpr (Or.inl isItems))
    have properties : equalProperties schema.properties schema.properties = true :=
      equalProperties_of_subset own.properties (List.Subset.refl _) fun property member =>
        each property.2 (mem_parts.mpr (Or.inr (Or.inl ⟨property, member, rfl⟩)))
    have additional : equalAdditional schema.additional schema.additional = true := by
      match further : schema.additional with
      | none => rfl
      | some (.allowed flag) => simp [equalAdditional, equalExtra]
      | some (.each values) => exact each values (mem_parts.mpr (Or.inr (Or.inr (Or.inl further))))
    have oneOf := equalBranches_self fun branch member =>
      each branch (mem_parts.mpr (Or.inr (Or.inr (Or.inr (Or.inl member)))))
    have anyOf := equalBranches_self fun branch member =>
      each branch (mem_parts.mpr (Or.inr (Or.inr (Or.inr (Or.inr (Or.inl member))))))
    have allOf := equalBranches_self fun branch member =>
      each branch (mem_parts.mpr (Or.inr (Or.inr (Or.inr (Or.inr (Or.inr member))))))
    rw [equal_eq, equalKeywords_self own, items, properties, additional, oneOf, anyOf, allOf,
      beq_self_eq_true]
    rfl

end Keyed

end OpenApi.Schema

end ServiceForge
