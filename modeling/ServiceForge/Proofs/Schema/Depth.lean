/-
This file says how deep schemas stand in each other. Equal schemas are equally deep, so
a schema is never equal to one that stands in it.
-/

import ServiceForge.Proofs.Schema.Equality

namespace ServiceForge.OpenApi.Schema

/-- Schemas stand in a schema, each in the one before, down to a depth. -/
inductive Reaches : Schema → Nat → Prop
  | here {schema : Schema} : Reaches schema 0
  | inside {schema part : Schema} {depth : Nat} :
      part ∈ schema.parts → Reaches part depth → Reaches schema (depth + 1)

/-- A schema is deeper than another one. -/
def Deeper (schema inner : Schema) : Prop :=
  ∀ depth, inner.Reaches depth → schema.Reaches (depth + 1)

section Depth

variable {schema inner part left right : Schema} {depth : Nat}

theorem Reaches.lt_size (reaches : schema.Reaches depth) : depth < schema.size := by
  induction reaches with
  | here => exact size_pos _
  | inside isPart _ inductionHypothesis =>
    have smaller := size_lt_of_mem_parts isPart
    omega

theorem Reaches.shallower (reaches : schema.Reaches (depth + 1)) : schema.Reaches depth := by
  induction depth generalizing schema with
  | zero => exact .here
  | succ depth inductionHypothesis =>
    cases reaches with
    | inside isPart rest => exact .inside isPart (inductionHypothesis rest)

theorem Reaches.of_holds (holds : schema.Holds inner) (reaches : inner.Reaches depth) :
    schema.Reaches depth := by
  induction holds using Relation.ReflTransGen.head_induction_on with
  | refl => exact reaches
  | head isPart _ inductionHypothesis => exact (Reaches.inside isPart inductionHypothesis).shallower

/-! ### Equal schemas -/

theorem exists_equal_of_equalBranches {lefts rights : List Schema}
    (same : equalBranches lefts rights = true) (member : part ∈ lefts) :
    ∃ other ∈ rights, part.equal other = true := by
  induction lefts generalizing rights with
  | nil => cases member
  | cons left lefts inductionHypothesis =>
    cases rights with
    | nil => cases same
    | cons right rights =>
      rw [equalBranches, Bool.and_eq_true] at same
      rcases List.mem_cons.mp member with rfl | later
      · exact ⟨right, List.mem_cons_self, same.1⟩
      · obtain ⟨other, isOther, equal⟩ := inductionHypothesis same.2 later
        exact ⟨other, List.mem_cons_of_mem _ isOther, equal⟩

theorem exists_equal_of_equalProperties {lefts rights : List (String × Schema)}
    {property : String × Schema} (same : equalProperties lefts rights = true)
    (member : property ∈ lefts) :
    ∃ other ∈ rights, property.2.equal other.2 = true := by
  induction lefts with
  | nil => cases member
  | cons left lefts inductionHypothesis =>
    obtain ⟨name, schema⟩ := left
    rw [equalProperties, Bool.and_eq_true] at same
    rcases List.mem_cons.mp member with rfl | later
    · have first := same.1
      rw [equalProperty] at first
      cases found : List.lookup name rights with
      | none =>
        rw [found] at first
        cases first
      | some other =>
        rw [found] at first
        exact ⟨(name, other), OrderedMap.mem_of_get? found, first⟩
    · exact inductionHypothesis same.2 later

/-- A schema that stands in one of two equal schemas is equal to one that stands in the other. -/
theorem exists_equal_part (same : left.equal right = true) (isPart : part ∈ left.parts) :
    ∃ other ∈ right.parts, part.equal other = true := by
  rw [equal_eq] at same
  simp only [Bool.and_eq_true] at same
  obtain ⟨⟨⟨⟨⟨⟨⟨-, items⟩, -⟩, properties⟩, additional⟩, oneOf⟩, anyOf⟩, allOf⟩ := same
  simp only [mem_parts] at isPart ⊢
  rcases isPart with isItems | ⟨property, isProperty, rfl⟩ | isEach | isOne | isAny | isAll
  · rw [isItems] at items
    cases own : right.items with
    | none =>
      rw [own] at items
      cases items
    | some other =>
      rw [own] at items
      exact ⟨other, Or.inl rfl, items⟩
  · obtain ⟨other, isOther, equal⟩ := exists_equal_of_equalProperties properties isProperty
    exact ⟨other.2, Or.inr (Or.inl ⟨other, isOther, rfl⟩), equal⟩
  · rw [isEach] at additional
    match own : right.additional with
    | none =>
      rw [own] at additional
      cases additional
    | some (.allowed flag) =>
      rw [own] at additional
      cases additional
    | some (.each other) =>
      rw [own] at additional
      exact ⟨other, Or.inr (Or.inr (Or.inl rfl)), additional⟩
  · obtain ⟨other, isOther, equal⟩ := exists_equal_of_equalBranches oneOf isOne
    exact ⟨other, Or.inr (Or.inr (Or.inr (Or.inl isOther))), equal⟩
  · obtain ⟨other, isOther, equal⟩ := exists_equal_of_equalBranches anyOf isAny
    exact ⟨other, Or.inr (Or.inr (Or.inr (Or.inr (Or.inl isOther)))), equal⟩
  · obtain ⟨other, isOther, equal⟩ := exists_equal_of_equalBranches allOf isAll
    exact ⟨other, Or.inr (Or.inr (Or.inr (Or.inr (Or.inr isOther)))), equal⟩

theorem Reaches.of_equal (same : left.equal right = true) (reaches : left.Reaches depth) :
    right.Reaches depth := by
  induction depth generalizing left right with
  | zero => exact .here
  | succ depth inductionHypothesis =>
    cases reaches with
    | inside isPart rest =>
      obtain ⟨other, isOther, equal⟩ := exists_equal_part same isPart
      exact .inside isOther (inductionHypothesis equal rest)

/-! ### Deeper schemas -/

theorem deeper_of_mem_parts (isPart : part ∈ schema.parts) : schema.Deeper part :=
  fun _ reaches => .inside isPart reaches

theorem Deeper.mono (deeper : schema.Deeper inner)
    (shallower : ∀ depth, part.Reaches depth → inner.Reaches depth) : schema.Deeper part :=
  fun depth reaches => deeper depth (shallower depth reaches)

/-- A schema that was as deep as its own inside would have no end. -/
theorem Deeper.not_equal (deeper : schema.Deeper inner) : schema.equal inner = false := by
  rw [← Bool.not_eq_true]
  intro same
  have endless : ∀ depth, schema.Reaches depth := by
    intro depth
    induction depth with
    | zero => exact .here
    | succ depth inductionHypothesis => exact deeper depth (inductionHypothesis.of_equal same)
  exact Nat.lt_irrefl _ (endless schema.size).lt_size

end Depth

end ServiceForge.OpenApi.Schema
