/-
This file proves which schemas are restored from what is written of them: of those that are read,
in whatever mode, the ones in which no default is null. Null is written as a default, but stands
for the absence of one where it is read.
-/

import ServiceForge.Proofs.Document.Restoring
import ServiceForge.Proofs.Schema.Depth
import ServiceForge.Proofs.Schema.Equivalence
import ServiceForge.Proofs.Schema.RoundTrip

namespace ServiceForge.OpenApi

open ServiceForge.Document

namespace Schema

/-! ### Schemas that are read -/

section Read

variable {P : Mode → Value → Prop} {mode : Mode} {value : Value} {schema : Schema}

theorem gathers_additional {read : Reader Schema} (inherits : Inherits P) :
    Gathers P (Additional.read read) Additional.schemas read := by
  intro mode value additional own ok
  have each (ok : (do return .each (← read .typed value)) = Except.ok additional) :
      ∀ part ∈ additional.schemas, Found P read part := by
    obtain ⟨schema, isRead, returned⟩ := bind_eq_ok.mp ok
    cases returned
    exact List.forall_mem_singleton.mpr ⟨_, value, inherits.typed own, isRead⟩
  cases value with
  | atom atom =>
    obtain ⟨flag, -, returned⟩ := bind_eq_ok.mp ok
    cases returned
    exact List.forall_mem_nil _
  | array tag items => exact each ok
  | object tag members => exact each ok

theorem gathers_parts (inherits : Inherits P) (limit : Nat) :
    Gathers P (readWithin (limit + 1)) parts (readWithin limit) := by
  rw [readWithin_succ]
  refine Gathers.of_open inherits fun {fields schema} owned isRead => ?_
  simp only [ofFields, bind_eq_ok] at isRead
  obtain ⟨reference, -, type, -, format, -, title, -, description, -, default, -, items, isItems,
    properties, areProperties, required, -, nullable, -, additional, isAdditional, oneOf, isOneOf,
    anyOf, isAnyOf, allOf, isAllOf, choices, -, pattern, -, maxLength, -, minLength, -, readOnly, -,
    returned⟩ := isRead
  cases returned
  have self := Gathers.self P (readWithin limit)
  have items := self.optional.withDefault owned rfl isItems
  have properties := (self.map inherits).withDefault owned rfl areProperties
  have additional := (gathers_additional inherits).optional.withDefault owned rfl isAdditional
  have oneOf := (self.list inherits).withDefault owned rfl isOneOf
  have anyOf := (self.list inherits).withDefault owned rfl isAnyOf
  have allOf := (self.list inherits).withDefault owned rfl isAllOf
  simp only [List.flatMap_singleton'] at items properties oneOf anyOf allOf
  simp only [parts, List.forall_mem_append]
  exact ⟨⟨⟨⟨⟨items, properties⟩, additional⟩, oneOf⟩, anyOf⟩, allOf⟩

/-- The schemas in a schema that is read are read themselves. -/
theorem found_of_holds (inherits : Inherits P) {limit : Nat} {inner : Schema}
    (found : Found P (readWithin limit) schema) (holds : schema.Holds inner) :
    ∃ limit, Found P (readWithin limit) inner := by
  induction holds using Relation.ReflTransGen.head_induction_on generalizing limit with
  | refl => exact ⟨limit, found⟩
  | head isPart _ inductionHypothesis =>
    obtain ⟨mode, value, own, ok⟩ := found
    cases limit with
    | zero => cases ok
    | succ limit =>
      exact inductionHypothesis (gathers_parts inherits limit mode value _ own ok _ isPart)

end Read

/-! ### Schemas that can be written -/

/-- Whether the keys of the maps in a schema itself are distinct and no keyword is declared
twice. -/
structure TidyHere (schema : Schema) : Prop where
  keyed : schema.KeyedHere
  apart : ∀ name ∈ OrderedMap.keys schema.rest, name ∉ keywords

/-- Whether the keys of the maps in a schema are distinct and no keyword is declared twice, however
deep. -/
def Tidy (schema : Schema) : Prop := ∀ inner, schema.Holds inner → inner.TidyHere

/-- Whether the default of a schema or of one in it is null. -/
def DefaultsToNull (schema : Schema) : Prop :=
  ∃ inner, schema.Holds inner ∧ inner.default = some .null

theorem Tidy.keyed {schema : Schema} (tidy : schema.Tidy) : schema.Keyed :=
  fun inner holds => (tidy inner holds).keyed

theorem tidyHere_of_read {mode : Mode} {value : Value} {schema : Schema} {limit : Nat}
    (ok : readWithin limit mode value = .ok schema) : schema.TidyHere := by
  cases limit with
  | zero => cases ok
  | succ limit =>
    obtain ⟨fields, areFields, isRead⟩ := bind_eq_ok.mp ok
    have owned := owned_of_ofOpen inherits_any trivial areFields
    have isRest := isRest_of_ofOpen areFields
    have ok : ofFields (readWithin limit) fields = .ok schema := isRead
    simp only [ofFields, bind_eq_ok] at ok
    obtain ⟨reference, -, type, -, format, -, title, -, description, -, default, isDefault, items,
      -, properties, areProperties, required, -, nullable, -, additional, -, oneOf, -, anyOf, -,
      allOf, -, choices, areChoices, pattern, -, maxLength, -, minLength, -, readOnly, -,
      returned⟩ := ok
    cases returned
    have self := Gathers.self (fun _ _ => True) Reader.json
    have distinct : (OrderedMap.keys properties).Nodup := by
      rcases read_of_withDefault owned areProperties with rfl | ⟨mode, source, -, isRead⟩
      · exact List.nodup_nil
      · exact nodup_of_map isRead
    have defaults := self.optional.withDefault owned rfl isDefault
    have choices := (self.list inherits_any).withDefault owned rfl areChoices
    simp only [List.flatMap_singleton'] at defaults choices
    have keyed {document : Json} (found : Found (fun _ _ => True) Reader.json document) :
        document.isKeyed = true := by
      obtain ⟨mode, source, -, isRead⟩ := found
      exact isKeyed_of_read source isRead
    exact ⟨⟨distinct,
      fun document given => keyed (defaults document (Option.mem_toList.mpr given)),
      fun document member => keyed (choices document member), isRest.keyed⟩, isRest.apart⟩

theorem tidy_of_read {mode : Mode} {value : Value} {schema : Schema}
    (ok : read mode value = .ok schema) : schema.Tidy := by
  intro inner holds
  obtain ⟨limit, mode, value, -, isRead⟩ :=
    found_of_holds inherits_any ⟨mode, value, trivial, ok⟩ holds
  exact tidyHere_of_read isRead

/-- Null is read as no default. -/
theorem default_ne_null {json : Json} {schema : Schema} {limit : Nat}
    (ok : ofJson (readWithin limit) json = .ok schema) : schema.default ≠ some .null := by
  cases limit with
  | zero => cases ok
  | succ limit =>
    obtain ⟨fields, areFields, isRead⟩ := bind_eq_ok.mp ok
    have owned := owned_of_ofOpen inherits_isJson (isJson_ofJson json) areFields
    have ok : ofFields (readWithin limit) fields = .ok schema := isRead
    simp only [ofFields, bind_eq_ok] at ok
    obtain ⟨reference, -, type, -, format, -, title, -, description, -, default, isDefault, items,
      -, properties, -, required, -, nullable, -, additional, -, oneOf, -, anyOf, -, allOf, -,
      choices, -, pattern, -, maxLength, -, minLength, -, readOnly, -, returned⟩ := ok
    cases returned
    rcases read_of_withDefault owned isDefault with rfl | ⟨_, _, ⟨rfl, source, rfl⟩, isRead⟩
    · exact (Option.some_ne_none _).symm
    · rcases optional_ofJson.mp isRead with ⟨-, rfl⟩ | ⟨present, result, given, rfl⟩
      · exact (Option.some_ne_none _).symm
      · intro null
        cases null
        cases solid_json present given

theorem not_defaultsToNull_of_ofJson {json : Json} {schema : Schema}
    (ok : ofJson read json = .ok schema) : ¬ schema.DefaultsToNull := by
  rintro ⟨inner, holds, null⟩
  obtain ⟨limit, _, _, ⟨rfl, source, rfl⟩, isRead⟩ :=
    found_of_holds inherits_isJson ⟨_, _, isJson_ofJson json, ok⟩ holds
  exact default_ne_null isRead null

/-! ### Null as a default -/

theorem defaultsToNull_iff {schema : Schema} :
    schema.DefaultsToNull ↔
      schema.default = some .null ∨ ∃ part ∈ schema.parts, part.DefaultsToNull := by
  constructor
  · rintro ⟨inner, holds, null⟩
    rcases Relation.ReflTransGen.cases_head holds with rfl | ⟨part, isPart, inside⟩
    · exact Or.inl null
    · exact Or.inr ⟨part, isPart, inner, inside, null⟩
  · rintro (null | ⟨part, isPart, inner, inside, null⟩)
    · exact ⟨schema, .refl, null⟩
    · exact ⟨inner, .head isPart inside, null⟩

theorem default_of_equal {left right : Schema} (same : left.equal right = true)
    (null : left.default = some .null) : right.default = some .null := by
  have keywords := (equal_iff.mp same).keywords
  simp only [equalKeywords, Bool.and_eq_true] at keywords
  have defaults : equalDefaults left.default right.default = true := by tauto
  rw [null] at defaults
  cases other : right.default with
  | none =>
    rw [other] at defaults
    cases defaults
  | some document =>
    rw [other] at defaults
    rw [Json.null_equal_iff.mp defaults]

/-- Equal schemas agree on whether a default in them is null. -/
theorem defaultsToNull_of_equal {left right : Schema} (same : left.equal right = true)
    (null : left.DefaultsToNull) : right.DefaultsToNull := by
  induction left using parts_induction generalizing right with
  | step left inductionHypothesis =>
    rcases defaultsToNull_iff.mp null with here | ⟨part, isPart, inside⟩
    · exact defaultsToNull_iff.mpr (Or.inl (default_of_equal same here))
    · obtain ⟨other, isOther, equal⟩ := exists_equal_part same isPart
      exact defaultsToNull_iff.mpr
        (Or.inr ⟨other, isOther, inductionHypothesis part isPart equal inside⟩)

/-! ### Schemas that are restored -/

theorem restores_typeNames (type : TypeNames) : Restores TypeNames.read TypeNames.toJson type := by
  cases type with
  | single name => rfl
  | multiple names =>
    have each := restores_list fun name (_ : name ∈ names) => restores_text name
    exact bind_eq_ok.mpr ⟨names, each, rfl⟩

theorem restores_additional {additional : Additional Schema}
    (each : ∀ schema, additional = .each schema → Restores read toJson schema) :
    Restores (Additional.read read) extraToJson additional := by
  cases additional with
  | allowed flag => rfl
  | each schema =>
    have again := each schema rfl
    rw [Restores, toJson_eq] at again
    rw [Restores, extraToJson, toJson_eq]
    exact bind_eq_ok.mpr ⟨schema, again, rfl⟩

theorem nodup_keywords : keywords.Nodup := by decide

theorem restores_of_parts {schema : Schema} (tidy : schema.TidyHere)
    (default : schema.default ≠ some .null)
    (each : ∀ part ∈ schema.parts, Restores read toJson part) : Restores read toJson schema := by
  have parts := partsHave_of_forall each
  rw [read_eq]
  refine .of_open nodup_keywords (toJson_eq schema) rfl ⟨tidy.keyed.rest, tidy.apart⟩
    fun {fields} stored rest => ?_
  have reference : fields.optional "$ref" Reader.text = .ok schema.reference := stored.text rfl
  have type : fields.optional "type" TypeNames.read = .ok schema.type :=
    stored.optional rfl fun type _ => ⟨by cases type <;> rfl, restores_typeNames type⟩
  have format : fields.optional "format" Reader.text = .ok schema.format := stored.text rfl
  have title : fields.optional "title" Reader.text = .ok schema.title := stored.text rfl
  have description : fields.optional "description" Reader.text = .ok schema.description :=
    stored.text rfl
  have default : fields.optional "default" Reader.json = .ok schema.default :=
    stored.optional rfl fun document given => by
      refine ⟨?_, restores_json (tidy.keyed.default document given)⟩
      cases document with
      | null => exact absurd given default
      | _ => rfl
  have items : fields.optional "items" read = .ok schema.items :=
    stored.optional rfl fun items given => ⟨isNull_toJson items, parts.items items given⟩
  have properties : fields.map "properties" read = .ok schema.properties :=
    stored.map rfl tidy.keyed.properties parts.properties
  have required : fields.list "required" Reader.text = .ok schema.required :=
    stored.list rfl fun name _ => restores_text name
  have nullable : fields.optional "nullable" Reader.flag = .ok schema.nullable :=
    stored.optional rfl fun flag _ => ⟨rfl, restores_flag flag⟩
  have additional : fields.optional "additionalProperties" (Additional.read read) =
      .ok schema.additional := by
    refine stored.optional rfl fun additional given =>
      ⟨?_, restores_additional fun inner same => ?_⟩
    · cases additional with
      | allowed flag => rfl
      | each inner => exact isNull_toJson inner
    · exact parts.additional inner (same ▸ given)
  have oneOf : fields.list "oneOf" read = .ok schema.oneOf := stored.list rfl parts.oneOf
  have anyOf : fields.list "anyOf" read = .ok schema.anyOf := stored.list rfl parts.anyOf
  have allOf : fields.list "allOf" read = .ok schema.allOf := stored.list rfl parts.allOf
  have choices : fields.list "enum" Reader.json = .ok schema.choices :=
    stored.list rfl fun document member => restores_json (tidy.keyed.choices document member)
  have pattern : fields.optional "pattern" Reader.text = .ok schema.pattern := stored.text rfl
  have maxLength : fields.optional "maxLength" Reader.natural = .ok schema.maxLength :=
    stored.optional rfl fun length _ => ⟨rfl, restores_natural length⟩
  have minLength : fields.optional "minLength" Reader.natural = .ok schema.minLength :=
    stored.optional rfl fun length _ => ⟨rfl, restores_natural length⟩
  have readOnly : fields.optional "readOnly" Reader.flag = .ok schema.readOnly :=
    stored.optional rfl fun flag _ => ⟨rfl, restores_flag flag⟩
  simp only [ofFields, reference, type, format, title, description, default, items, properties,
    required, nullable, additional, oneOf, anyOf, allOf, choices, pattern, maxLength, minLength,
    readOnly, rest]
  cases schema
  rfl

/-- A tidy schema is restored if no default in it is null. -/
theorem restores_iff {schema : Schema} (tidy : schema.Tidy) :
    Restores read toJson schema ↔ ¬ schema.DefaultsToNull := by
  refine ⟨not_defaultsToNull_of_ofJson, fun apart => ?_⟩
  induction schema using parts_induction with
  | step schema inductionHypothesis =>
    refine restores_of_parts (tidy schema .refl) (fun null => apart ⟨schema, .refl, null⟩)
      fun part isPart => inductionHypothesis part isPart
        (fun inner holds => tidy inner (.head isPart holds)) ?_
    exact fun ⟨inner, holds, null⟩ => apart ⟨inner, .head isPart holds, null⟩

end Schema

end ServiceForge.OpenApi
