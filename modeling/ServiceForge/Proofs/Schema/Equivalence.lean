/-
This file proves that the equality of documents and of schemas is an equivalence if the keys
of their maps are distinct. What is proved by induction is that two values are equal if one
value is equal to both; symmetry and transitivity follow, since a value is equal to itself.
-/

import Mathlib.Data.List.Perm.Subperm
import Mathlib.Tactic.MkIffOfInductiveProp
import ServiceForge.Proofs.Schema.Equality

namespace ServiceForge

/-! ### Maps -/

/-- If the members of a map are related to members of two other maps, and the first of these has no
further members, then its members are related to those of the second. -/
theorem OrderedMap.exists_related {α : Type} (related : α → α → Prop)
    {first second third : OrderedMap α} (distinct : (keys first).Nodup)
    (distinctSecond : (keys second).Nodup) (length : first.length = second.length)
    (toSecond : ∀ member ∈ first, ∃ value, second.get? member.1 = some value ∧
      related member.2 value)
    (toThird : ∀ member ∈ first, ∃ value, third.get? member.1 = some value ∧
      related member.2 value)
    (euclidean : ∀ member ∈ first, ∀ other ∈ second, ∀ last ∈ third, related member.2 other.2 →
      related member.2 last.2 → related other.2 last.2) :
    ∀ member ∈ second, ∃ value, third.get? member.1 = some value ∧ related member.2 value := by
  have inside : keys first ⊆ keys second := by
    intro key listed
    obtain ⟨member, held, rfl⟩ := List.mem_map.mp listed
    obtain ⟨value, found, -⟩ := toSecond member held
    exact mem_keys_of_get? found
  have same : (keys first).Perm (keys second) :=
    (distinct.subperm inside).perm_of_length_le (by simp [keys, length])
  rintro ⟨key, value⟩ held
  obtain ⟨⟨_, source⟩, isSource, rfl⟩ :=
    List.mem_map.mp (same.mem_iff.mpr (List.mem_map_of_mem (f := Prod.fst) held))
  obtain ⟨other, found, toOther⟩ := toSecond _ isSource
  obtain ⟨last, lastFound, toLast⟩ := toThird _ isSource
  obtain rfl : value = other :=
    Option.some.inj ((get?_of_mem distinctSecond held).symm.trans found)
  exact ⟨last, lastFound, euclidean _ isSource _ held _ (mem_of_get? lastFound) toOther toLast⟩

/-! ### Numbers -/

theorem Binary64.equal_euclidean {first second third : Binary64} (same : first.equal second = true)
    (other : first.equal third = true) : second.equal third = true := by
  simp only [equal, isZero, Bool.or_eq_true, Bool.and_eq_true, beq_iff_eq] at *
  rcases same with ⟨zero, zeroSecond⟩ | rfl
  · rcases other with ⟨-, zeroThird⟩ | rfl
    · exact Or.inl ⟨zeroSecond, zeroThird⟩
    · exact Or.inl ⟨zeroSecond, zero⟩
  · exact other

theorem Number.equal_euclidean {first second third : Number} (same : first.equal second = true)
    (other : first.equal third = true) : second.equal third = true := by
  match first, second, third with
  | .integer _, .integer _, .integer _ =>
    simp only [equal, beq_iff_eq] at *
    rw [← same, other]
  | .float _, .float _, .float _ => exact Binary64.equal_euclidean same other

namespace Json

/-! ### Documents -/

section Inversion

variable {other : Json}

theorem null_equal_iff : null.equal other = true ↔ other = null := by
  cases other <;> simp [equal]

theorem bool_equal_iff {value : Bool} : (bool value).equal other = true ↔ bool value = other := by
  cases other <;> simp [equal]

theorem number_equal_iff {value : Number} :
    (number value).equal other = true ↔
      ∃ equalValue, other = number equalValue ∧ value.equal equalValue = true := by
  cases other <;> simp [equal]

theorem string_equal_iff {value : String} :
    (string value).equal other = true ↔ string value = other := by
  cases other <;> simp [equal]

theorem array_equal_iff {items : List Json} :
    (array items).equal other = true ↔
      ∃ others, other = array others ∧ equalItems items others = true := by
  cases other <;> simp [equal]

theorem equalMembers_iff {members whole : List (String × Json)} :
    equalMembers members whole = true ↔ ∀ member ∈ members,
      ∃ value, OrderedMap.get? whole member.1 = some value ∧ member.2.equal value = true := by
  induction members with
  | nil => simp [equalMembers]
  | cons member rest inductionHypothesis =>
    rw [equalMembers, Bool.and_eq_true, inductionHypothesis, List.forall_mem_cons]
    refine and_congr_left fun _ => ?_
    unfold OrderedMap.get?
    cases List.lookup member.1 whole <;> simp

/-- An object equals one that has as many members, each with an equal value under its key. -/
theorem object_equal_iff {members : List (String × Json)} :
    (object members).equal other = true ↔
      ∃ others, other = object others ∧ members.length = others.length ∧ ∀ member ∈ members,
        ∃ value, OrderedMap.get? others member.1 = some value ∧ member.2.equal value = true := by
  cases other <;> simp [equal, equalMembers_iff]

end Inversion

/-- Arrays that equal one array are equal, if their items are. -/
theorem equalItems_euclidean {first second third : List Json}
    (each : ∀ item ∈ first, ∀ other ∈ second, ∀ last ∈ third, item.equal other = true →
      item.equal last = true → other.equal last = true)
    (same : equalItems first second = true) (other : equalItems first third = true) :
    equalItems second third = true := by
  match first, second, third with
  | [], [], _ => exact other
  | item :: first, second :: seconds, third :: thirds =>
    simp only [equalItems, Bool.and_eq_true] at same other ⊢
    constructor
    · exact each _ List.mem_cons_self _ List.mem_cons_self _ List.mem_cons_self same.1 other.1
    · refine equalItems_euclidean (fun item member other isOther last isLast => ?_) same.2 other.2
      exact each item (List.mem_cons_of_mem _ member) other (List.mem_cons_of_mem _ isOther) last
        (List.mem_cons_of_mem _ isLast)

/-- Values with distinct keys that equal one value are equal. -/
theorem equal_euclidean {first second third : Json} (keyed : first.isKeyed = true)
    (keyedSecond : second.isKeyed = true) (keyedThird : third.isKeyed = true)
    (same : first.equal second = true) (other : first.equal third = true) :
    second.equal third = true := by
  induction first using inductionOn generalizing second third with
  | null => rwa [null_equal_iff.mp same]
  | bool value => rwa [← bool_equal_iff.mp same]
  | string value => rwa [← string_equal_iff.mp same]
  | number value =>
    obtain ⟨_, rfl, same⟩ := number_equal_iff.mp same
    obtain ⟨_, rfl, other⟩ := number_equal_iff.mp other
    exact Number.equal_euclidean same other
  | array items each =>
    obtain ⟨_, rfl, same⟩ := array_equal_iff.mp same
    obtain ⟨_, rfl, other⟩ := array_equal_iff.mp other
    refine equalItems_euclidean (fun item member other isOther last isLast => ?_) same other
    exact each item member ((everywhere_array.mp keyed).2 item member)
      ((everywhere_array.mp keyedSecond).2 other isOther)
      ((everywhere_array.mp keyedThird).2 last isLast)
  | object members each =>
    obtain ⟨_, rfl, length, same⟩ := object_equal_iff.mp same
    obtain ⟨_, rfl, otherLength, other⟩ := object_equal_iff.mp other
    obtain ⟨distinct, inside⟩ := isKeyed_object.mp keyed
    obtain ⟨distinctSecond, insideSecond⟩ := isKeyed_object.mp keyedSecond
    obtain ⟨-, insideThird⟩ := isKeyed_object.mp keyedThird
    refine object_equal_iff.mpr ⟨_, rfl, length.symm.trans otherLength, ?_⟩
    refine OrderedMap.exists_related (fun left right => left.equal right = true) distinct
      distinctSecond length same other fun member held other isOther last isLast => ?_
    exact each member held (inside member held) (insideSecond other isOther)
      (insideThird last isLast)

end Json

namespace OpenApi.Schema

/-! ### Schemas -/

theorem equalDefaults_euclidean {first second third : Option Json}
    (keyed : ∀ document, first = some document → document.isKeyed = true)
    (keyedSecond : ∀ document, second = some document → document.isKeyed = true)
    (keyedThird : ∀ document, third = some document → document.isKeyed = true)
    (same : equalDefaults first second = true) (other : equalDefaults first third = true) :
    equalDefaults second third = true := by
  match first, second, third with
  | none, none, _ => exact other
  | some first, some second, some third =>
    exact Json.equal_euclidean (keyed _ rfl) (keyedSecond _ rfl) (keyedThird _ rfl) same other

/-- Schemas whose keywords equal those of one schema have equal keywords. -/
theorem equalKeywords_euclidean {first second third : Schema} (keyed : first.KeyedHere)
    (keyedSecond : second.KeyedHere) (keyedThird : third.KeyedHere)
    (same : equalKeywords first second = true) (other : equalKeywords first third = true) :
    equalKeywords second third = true := by
  simp only [equalKeywords, Bool.and_eq_true, beq_iff_eq] at same other ⊢
  have default : equalDefaults second.default third.default = true :=
    equalDefaults_euclidean keyed.default keyedSecond.default keyedThird.default
      (by tauto) (by tauto)
  have choices : Json.equalItems second.choices third.choices = true :=
    Json.equalItems_euclidean (fun item member other isOther last isLast =>
      Json.equal_euclidean (keyed.choices item member) (keyedSecond.choices other isOther)
        (keyedThird.choices last isLast)) (by tauto) (by tauto)
  have rest : Json.equal (.object second.rest) (.object third.rest) = true :=
    Json.equal_euclidean keyed.rest keyedSecond.rest keyedThird.rest (by tauto) (by tauto)
  grind

/-- Whether something holds of each schema that stands in a schema itself. -/
structure PartsHave (P : Schema → Prop) (schema : Schema) : Prop where
  items : ∀ items, schema.items = some items → P items
  properties : ∀ property ∈ schema.properties, P property.2
  additional : ∀ values, schema.additional = some (.each values) → P values
  oneOf : ∀ branch ∈ schema.oneOf, P branch
  anyOf : ∀ branch ∈ schema.anyOf, P branch
  allOf : ∀ branch ∈ schema.allOf, P branch

theorem partsHave_of_forall {P : Schema → Prop} {schema : Schema}
    (each : ∀ part ∈ schema.parts, P part) : PartsHave P schema where
  items items isItems := each items (mem_parts.mpr (.inl isItems))
  properties property member := each _ (mem_parts.mpr (.inr (.inl ⟨property, member, rfl⟩)))
  additional values further := each values (mem_parts.mpr (.inr (.inr (.inl further))))
  oneOf branch member := each branch (mem_parts.mpr (.inr (.inr (.inr (.inl member)))))
  anyOf branch member := each branch (mem_parts.mpr (.inr (.inr (.inr (.inr (.inl member))))))
  allOf branch member := each branch (mem_parts.mpr (.inr (.inr (.inr (.inr (.inr member))))))

/-- Whether schemas agree keyword by keyword. -/
@[mk_iff]
structure Agrees (left right : Schema) : Prop where
  keywords : equalKeywords left right = true
  items : equalItems left.items right.items = true
  length : left.properties.length = right.properties.length
  properties : ∀ property ∈ left.properties, ∃ schema,
    OrderedMap.get? right.properties property.1 = some schema ∧ property.2.equal schema = true
  additional : equalAdditional left.additional right.additional = true
  oneOf : equalBranches left.oneOf right.oneOf = true
  anyOf : equalBranches left.anyOf right.anyOf = true
  allOf : equalBranches left.allOf right.allOf = true

section Equivalence

/-- Whether a schema that is equal to two others tells that these are equal. -/
def Euclidean (first : Schema) : Prop :=
  ∀ second third : Schema, second.Keyed → third.Keyed → first.equal second = true →
    first.equal third = true → second.equal third = true

theorem equalItems_euclidean {first second third : Option Schema}
    (each : ∀ items, first = some items → items.Euclidean)
    (keyedSecond : ∀ items, second = some items → items.Keyed)
    (keyedThird : ∀ items, third = some items → items.Keyed)
    (same : equalItems first second = true) (other : equalItems first third = true) :
    equalItems second third = true := by
  match first, second, third with
  | none, none, _ => exact other
  | some first, some second, some third =>
    exact each _ rfl _ _ (keyedSecond _ rfl) (keyedThird _ rfl) same other

theorem equalAdditional_euclidean {first second third : Option (Additional Schema)}
    (each : ∀ values, first = some (.each values) → values.Euclidean)
    (keyedSecond : ∀ values, second = some (.each values) → values.Keyed)
    (keyedThird : ∀ values, third = some (.each values) → values.Keyed)
    (same : equalAdditional first second = true) (other : equalAdditional first third = true) :
    equalAdditional second third = true := by
  match first, second, third with
  | none, none, _ => exact other
  | some (.allowed _), some (.allowed _), some (.allowed _) =>
    simp only [equalAdditional, equalExtra, beq_iff_eq] at *
    rw [← same, other]
  | some (.each first), some (.each second), some (.each third) =>
    exact each _ rfl _ _ (keyedSecond _ rfl) (keyedThird _ rfl) same other

theorem equalBranches_euclidean {first second third : List Schema}
    (each : ∀ branch ∈ first, branch.Euclidean) (keyedSecond : ∀ branch ∈ second, branch.Keyed)
    (keyedThird : ∀ branch ∈ third, branch.Keyed) (same : equalBranches first second = true)
    (other : equalBranches first third = true) : equalBranches second third = true := by
  match first, second, third with
  | [], [], _ => exact other
  | branch :: first, second :: seconds, third :: thirds =>
    simp only [equalBranches, Bool.and_eq_true, List.forall_mem_cons] at *
    exact ⟨each.1 _ _ keyedSecond.1 keyedThird.1 same.1 other.1,
      equalBranches_euclidean each.2 keyedSecond.2 keyedThird.2 same.2 other.2⟩

/-- Properties are among others exactly if each has an equal schema there under its name. -/
theorem equalProperties_iff {properties whole : List (String × Schema)} :
    equalProperties properties whole = true ↔ ∀ property ∈ properties,
      ∃ schema, OrderedMap.get? whole property.1 = some schema ∧
        property.2.equal schema = true := by
  induction properties with
  | nil => simp [equalProperties]
  | cons property rest inductionHypothesis =>
    obtain ⟨name, schema⟩ := property
    rw [equalProperties, equalProperty, Bool.and_eq_true, inductionHypothesis, List.forall_mem_cons]
    refine and_congr_left fun _ => ?_
    unfold OrderedMap.get?
    cases List.lookup name whole <;> simp

/-- Schemas are equal exactly if they agree in every keyword. -/
theorem equal_iff {left right : Schema} : left.equal right = true ↔ left.Agrees right := by
  simp only [equal_eq left right, agrees_iff, Bool.and_eq_true, beq_iff_eq, equalProperties_iff,
    and_assoc]

/-- Schemas with distinct keys that equal one schema are equal. -/
theorem equal_euclidean {first : Schema} (keyed : first.Keyed) : first.Euclidean := by
  induction first using parts_induction with
  | step first inductionHypothesis =>
    intro second third keyedSecond keyedThird same other
    obtain ⟨here, parts⟩ := keyed_iff.mp keyed
    obtain ⟨hereSecond, partsSecond⟩ := keyed_iff.mp keyedSecond
    obtain ⟨hereThird, partsThird⟩ := keyed_iff.mp keyedThird
    have each := partsHave_of_forall fun part isPart =>
      inductionHypothesis part isPart (parts part isPart)
    have inSecond := partsHave_of_forall partsSecond
    have inThird := partsHave_of_forall partsThird
    rw [equal_iff] at same other ⊢
    exact {
      keywords := equalKeywords_euclidean here hereSecond hereThird same.keywords other.keywords
      items := equalItems_euclidean each.items inSecond.items inThird.items same.items other.items
      length := same.length.symm.trans other.length
      properties :=
        OrderedMap.exists_related (fun left right => left.equal right = true)
          here.properties hereSecond.properties same.length same.properties other.properties
          fun property member other isOther last isLast => each.properties property member _ _
            (inSecond.properties other isOther) (inThird.properties last isLast)
      additional := equalAdditional_euclidean each.additional inSecond.additional
        inThird.additional same.additional other.additional
      oneOf := equalBranches_euclidean each.oneOf inSecond.oneOf inThird.oneOf same.oneOf
        other.oneOf
      anyOf := equalBranches_euclidean each.anyOf inSecond.anyOf inThird.anyOf same.anyOf
        other.anyOf
      allOf := equalBranches_euclidean each.allOf inSecond.allOf inThird.allOf same.allOf
        other.allOf }

variable {first second third : Schema}

/-- Equality of schemas with distinct keys is symmetric. -/
theorem equal_symm (keyed : first.Keyed) (keyedSecond : second.Keyed)
    (same : first.equal second = true) : second.equal first = true :=
  equal_euclidean keyed second first keyedSecond keyed same (equal_self first keyed)

/-- Equality of schemas with distinct keys is transitive. -/
theorem equal_trans (keyed : first.Keyed) (keyedSecond : second.Keyed) (keyedThird : third.Keyed)
    (same : first.equal second = true) (other : second.equal third = true) :
    first.equal third = true :=
  equal_euclidean keyedSecond first third keyed keyedThird (equal_symm keyed keyedSecond same) other

end Equivalence

end OpenApi.Schema

end ServiceForge
