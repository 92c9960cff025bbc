/-
This file says how the fields of an object are named: each after its property, with
marks at the end until no field before it has the name, so the names are distinct.
Without its marks the name is again that of the property, and the name without any marks
belongs to the first of the properties that are named alike.
-/

import ServiceForge.Proofs.Lowering.Names
import ServiceForge.Proofs.Lowering.Reachable
import ServiceForge.Proofs.Text.Marks

namespace ServiceForge.Lowering

open ServiceForge.OpenApi (Schema)
open ServiceForge.Text

/-- The fields of properties with the given wire names, as pairs of name and wire name. -/
def fieldNames (taken : List String) : List String → List (String × String)
  | [] => []
  | wireName :: rest =>
    let name := fresh taken "_" (Naming.fieldName wireName)
    (name, wireName) :: fieldNames (taken ++ [name]) rest

/-! ### Names of fields -/

theorem fieldsOf_names {schema : Schema} {fields : List Field} {properties : List (String × Schema)}
    {types : List ValueType} (same : types.length = properties.length) :
    (fieldsOf schema fields properties types).map (fun field => (field.name, field.wireName)) =
      fields.map (fun field => (field.name, field.wireName)) ++
        fieldNames (fields.map Field.name) (properties.map Prod.fst) := by
  induction properties generalizing fields types with
  | nil => simp [fieldsOf, fieldNames]
  | cons property rest inductionHypothesis =>
    cases types with
    | nil => cases same
    | cons type types =>
      rw [fieldsOf, inductionHypothesis (Nat.succ.inj same)]
      simp [fieldOf, fieldNames]

/-- The wire names of the properties that an object has fields for. -/
def propertyNames (context : Context) (schema : Schema) : List String :=
  match wholeOf context schema with
  | .ok whole => (settable context whole.properties).map Prod.fst
  | .error _ => []

/-- The names of the fields that an object is lowered to. -/
theorem lowerFields_names {context : Context} {schema : Schema} {owner : String}
    {state after : State} {fields : List Field}
    (ran : lowerFields context schema owner state = (.ok fields, after)) :
    fields.map (fun field => (field.name, field.wireName)) =
      fieldNames [] (propertyNames context schema) := by
  rcases lowerFields_calls ran with ⟨_, _, failed, _⟩ | ⟨whole, types, merged, called, returned⟩
  · cases failed
  cases types with
  | error failure => cases returned
  | ok types =>
    cases returned
    have length : types.length = (settable context whole.properties).length := by
      rw [called.length, propertyCalls, List.length_map]
    rw [propertyNames, merged]
    exact fieldsOf_names length

/-! ### Marks -/

section Marks

variable {taken wireNames : List String}

theorem fieldNames_wireNames (taken wireNames : List String) :
    (fieldNames taken wireNames).map Prod.snd = wireNames := by
  induction wireNames generalizing taken with
  | nil => rfl
  | cons wireName rest inductionHypothesis => exact congrArg (wireName :: ·) (inductionHypothesis _)

/-- A field has the name of its property with marks. -/
theorem exists_marks_of_mem_fieldNames {name wireName : String}
    (member : (name, wireName) ∈ fieldNames taken wireNames) :
    ∃ count, name = (· ++ "_")^[count] (Naming.fieldName wireName) := by
  induction wireNames generalizing taken with
  | nil => cases member
  | cons first rest inductionHypothesis =>
    rcases List.mem_cons.mp member with same | later
    · obtain ⟨rfl, rfl⟩ := Prod.mk.inj same
      obtain ⟨count, found, -, -⟩ := fresh_endsAt taken (by decide : "_" ≠ "")
        (Naming.fieldName wireName)
      exact ⟨count, found⟩
    · exact inductionHypothesis later

/-- The name of a field without its marks is that of its property. -/
theorem trimEnd_of_mem_fieldNames {name wireName : String}
    (member : (name, wireName) ∈ fieldNames taken wireNames) :
    trimEnd (· = '_') name = Naming.fieldName wireName := by
  obtain ⟨count, rfl⟩ := exists_marks_of_mem_fieldNames member
  exact trimEnd_marked (Naming.isUnmarked_fieldName wireName) count

theorem notMem_taken_of_mem_fieldNames {field : String × String}
    (member : field ∈ fieldNames taken wireNames) : field.1 ∉ taken := by
  induction wireNames generalizing taken with
  | nil => cases member
  | cons first rest inductionHypothesis =>
    rcases List.mem_cons.mp member with rfl | later
    · exact fresh_notMem taken (by decide) (Naming.fieldName first)
    · exact fun held => inductionHypothesis later (List.mem_append_left _ held)

theorem nodup_fieldNames (taken wireNames : List String) :
    ((fieldNames taken wireNames).map Prod.fst).Nodup := by
  induction wireNames generalizing taken with
  | nil => exact List.nodup_nil
  | cons first rest inductionHypothesis =>
    refine List.nodup_cons.mpr ⟨fun again => ?_, inductionHypothesis _⟩
    obtain ⟨field, later, same⟩ := List.mem_map.mp again
    refine notMem_taken_of_mem_fieldNames later (List.mem_append_right _ ?_)
    exact List.mem_singleton.mpr same

/-- The name of a property without any marks belongs to the first property with that name. -/
theorem mem_fieldNames {wireName : String} :
    (Naming.fieldName wireName, wireName) ∈ fieldNames taken wireNames ↔
      Naming.fieldName wireName ∉ taken ∧
        wireNames.find? (fun other => Naming.fieldName other = Naming.fieldName wireName) =
          some wireName := by
  induction wireNames generalizing taken with
  | nil => simp [fieldNames]
  | cons first rest inductionHypothesis =>
    have named : Naming.fieldName wireName = fresh taken "_" (Naming.fieldName first) ↔
        Naming.fieldName first = Naming.fieldName wireName ∧ Naming.fieldName wireName ∉ taken :=
      eq_comm.trans (fresh_eq_iff (by decide) fun base same =>
        not_isUnmarked_append_mark base (same ▸ Naming.isUnmarked_fieldName wireName))
    rw [fieldNames, List.mem_cons, Prod.mk.injEq, inductionHypothesis, List.mem_append,
      List.mem_singleton, not_or, named]
    by_cases alike : Naming.fieldName first = Naming.fieldName wireName
    · rw [List.find?_cons_of_pos (by simpa using alike), Option.some.injEq]
      constructor
      · rintro (⟨⟨-, free⟩, rfl⟩ | ⟨⟨free, taken⟩, -⟩)
        · exact ⟨free, rfl⟩
        · exact absurd ⟨alike, free⟩ taken
      · rintro ⟨free, rfl⟩
        exact Or.inl ⟨⟨alike, free⟩, rfl⟩
    · rw [List.find?_cons_of_neg (by simpa using alike)]
      constructor
      · rintro (⟨⟨same, -⟩, -⟩ | ⟨⟨free, -⟩, found⟩)
        · exact absurd same alike
        · exact ⟨free, found⟩
      · rintro ⟨free, found⟩
        exact Or.inr ⟨⟨free, fun both => alike both.1⟩, found⟩

end Marks

end ServiceForge.Lowering
