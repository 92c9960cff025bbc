/-
This file proves that what is written of a schema is read as the same schema again and keeps
the keywords that are not declared. A schema is read to any depth of its document, so the
depth to which it is read does not matter, and the proof is by induction on that depth.
-/

import ServiceForge.Proofs.Document.RoundTrip

namespace ServiceForge.OpenApi

open ServiceForge.Document

/-! ### Depth -/

section Depth

variable {mode : Mode} {value : Value} {limit : Nat}

/-- No item is deeper than the deepest. -/
theorem depth_le_itemsDepth {items : List Value} {item : Value} (member : item ∈ items) :
    item.depth ≤ Value.itemsDepth items := by
  induction items with
  | nil => cases member
  | cons first rest inductionHypothesis =>
    rw [Value.itemsDepth]
    rcases List.mem_cons.mp member with rfl | later
    · exact Nat.le_max_left _ _
    · exact Nat.le_trans (inductionHypothesis later) (Nat.le_max_right _ _)

/-- No value of a member is deeper than the deepest. -/
theorem depth_le_membersDepth {members : List (Key × Value)} {member : Key × Value}
    (held : member ∈ members) : member.2.depth ≤ Value.membersDepth members := by
  induction members with
  | nil => cases held
  | cons first rest inductionHypothesis =>
    rw [Value.membersDepth]
    rcases List.mem_cons.mp held with rfl | later
    · exact Nat.le_max_left _ _
    · exact Nat.le_trans (inductionHypothesis later) (Nat.le_max_right _ _)

/-- The items of a value are nested less deep. -/
theorem depth_lt_of_items {items : List Value} (ok : Reader.items mode value = .ok items)
    {item : Value} (member : item ∈ items) : item.depth < value.depth := by
  unfold Reader.items at ok
  split at ok
  · obtain ⟨_, -, returned⟩ := bind_eq_ok.mp ok
    cases returned
    exact Nat.lt_succ_of_le (depth_le_itemsDepth member)
  · split at ok
    · cases ok
      cases member
    · cases ok

/-- The members of a value are nested less deep. -/
theorem depth_lt_of_members {members : List (String × Value)}
    (ok : Reader.members mode value = .ok members) {member : String × Value}
    (held : member ∈ members) : member.2.depth < value.depth := by
  unfold Reader.members at ok
  split at ok
  · obtain ⟨_, -, ok⟩ := bind_eq_ok.mp ok
    obtain ⟨source, isSource, converted⟩ := (mem_mapM ok).mp held
    obtain ⟨name, -, same⟩ := bind_eq_ok.mp converted
    cases same
    exact Nat.lt_succ_of_le (depth_le_membersDepth isSource)
  · split at ok
    · cases ok
      cases held
    · cases ok

/-- Whether two readers agree on values that are nested less deep than a limit. -/
def AgreeBelow {α : Type} (limit : Nat) (first second : Reader α) : Prop :=
  ∀ mode value, value.depth < limit → first mode value = second mode value

section Readers

variable {α : Type} {first second : Reader α} (agree : AgreeBelow limit first second)

include agree

theorem AgreeBelow.optional : AgreeBelow limit (Reader.optional first) (Reader.optional second) := by
  intro mode value below
  rw [Reader.optional, Reader.optional, agree mode value below]

/-- Readers of lists agree to a depth if the readers of their items do. -/
theorem AgreeBelow.list : AgreeBelow limit (Reader.list first) (Reader.list second) := by
  intro mode value below
  refine bind_congr_of_ok fun items ok => mapM_congr fun item member => ?_
  exact agree mode item (Nat.lt_trans (depth_lt_of_items ok member) below)

/-- Readers of maps agree to a depth if the readers of their values do. -/
theorem AgreeBelow.map : AgreeBelow limit (Reader.map first) (Reader.map second) := by
  intro mode value below
  refine bind_congr_of_ok fun members ok => ?_
  refine congrArg (· >>= fun entries => pure (OrderedMap.ofEntries entries)) ?_
  refine mapM_congr fun member held => ?_
  rw [agree mode member.2 (Nat.lt_trans (depth_lt_of_members ok held) below)]

theorem AgreeBelow.additional :
    AgreeBelow limit (Additional.read first) (Additional.read second) := by
  intro mode value below
  have same := congrArg (· >>= fun schema => pure (Additional.each schema))
    (agree .typed value below)
  cases value with
  | atom _ => rfl
  | array tag items => exact same
  | object tag members => exact same

end Readers

/-- A field is read alike by readers that agree on it. -/
theorem AgreeBelow.withDefault {α : Type} {first second : Reader α}
    (agree : AgreeBelow limit first second) {fields : Fields}
    (below : ∀ member ∈ fields.declared, member.2.depth < limit) (name : String) (fallback : α) :
    fields.withDefault name fallback first = fields.withDefault name fallback second := by
  unfold Fields.withDefault
  split
  · next value found =>
    exact agree fields.mode value (below (name, value) (OrderedMap.mem_of_get? found))
  · rfl

/-- The fields of a value are nested less deep. -/
theorem depth_lt_of_ofOpen {names : List String} {fields : Fields}
    (ok : Fields.ofOpen names mode value = .ok fields) :
    ∀ member ∈ fields.declared, member.2.depth < value.depth := by
  obtain ⟨members, areMembers, ok⟩ := bind_eq_ok.mp ok
  obtain ⟨_, -, ok⟩ := bind_eq_ok.mp ok
  obtain ⟨rest, -, returned⟩ := bind_eq_ok.mp ok
  cases returned
  exact fun member held => depth_lt_of_members areMembers (List.mem_filter.mp held).1

end Depth

namespace Schema

/-! ### Reading -/

/-- Reads a schema from its fields, and the schemas in it by the given reader. -/
def ofFields (schema : Reader Schema) (fields : Fields) : Except Document.Error Schema := do
  return {
    reference := ← fields.optional "$ref" Reader.text
    type := ← fields.optional "type" TypeNames.read
    format := ← fields.optional "format" Reader.text
    title := ← fields.optional "title" Reader.text
    description := ← fields.optional "description" Reader.text
    default := ← fields.optional "default" Reader.json
    items := ← fields.optional "items" schema
    properties := ← fields.map "properties" schema
    required := ← fields.list "required" Reader.text
    nullable := ← fields.optional "nullable" Reader.flag
    additional := ← fields.optional "additionalProperties" (Additional.read schema)
    oneOf := ← fields.list "oneOf" schema
    anyOf := ← fields.list "anyOf" schema
    allOf := ← fields.list "allOf" schema
    choices := ← fields.list "enum" Reader.json
    pattern := ← fields.optional "pattern" Reader.text
    maxLength := ← fields.optional "maxLength" Reader.natural
    minLength := ← fields.optional "minLength" Reader.natural
    readOnly := ← fields.optional "readOnly" Reader.flag
    rest := fields.rest }

theorem readWithin_succ (limit : Nat) :
    readWithin (limit + 1) =
      fun mode value => (do ofFields (readWithin limit) (← Fields.ofOpen keywords mode value)) :=
  rfl

/-- A schema is read alike from its fields by readers that agree to their depth. -/
theorem ofFields_congr {limit : Nat} {first second : Reader Schema}
    (agree : AgreeBelow limit first second) {fields : Fields}
    (below : ∀ member ∈ fields.declared, member.2.depth < limit) :
    ofFields first fields = ofFields second fields := by
  have items : fields.optional "items" first = fields.optional "items" second :=
    agree.optional.withDefault below "items" none
  have properties : fields.map "properties" first = fields.map "properties" second :=
    agree.map.withDefault below "properties" []
  have additional : fields.optional "additionalProperties" (Additional.read first) =
      fields.optional "additionalProperties" (Additional.read second) :=
    agree.additional.optional.withDefault below "additionalProperties" none
  have branches (name : String) : fields.list name first = fields.list name second :=
    agree.list.withDefault below name []
  simp only [ofFields, items, properties, additional, branches]

/-- It does not matter how much deeper than its document a schema may be. -/
theorem readWithin_agree (limit more : Nat) :
    AgreeBelow (min limit more) (readWithin limit) (readWithin more) := by
  induction limit generalizing more with
  | zero =>
    intro mode value below
    simp at below
  | succ limit inductionHypothesis =>
    intro mode value below
    cases more with
    | zero => simp at below
    | succ more =>
      rw [readWithin_succ, readWithin_succ]
      refine bind_congr_of_ok fun fields ok => ?_
      refine ofFields_congr (inductionHypothesis more) fun member held => ?_
      have inside := depth_lt_of_ofOpen ok member held
      omega

/-- A schema is read from its fields. -/
theorem read_eq :
    read = fun mode value => (do ofFields read (← Fields.ofOpen keywords mode value)) := by
  funext mode value
  rw [read, readWithin_succ]
  refine bind_congr_of_ok fun fields ok => ?_
  have agree : AgreeBelow value.depth (readWithin value.depth) read := fun mode inner below =>
    readWithin_agree value.depth (inner.depth + 1) mode inner (by omega)
  exact ofFields_congr agree (depth_lt_of_ofOpen ok)

/-! ### Writing -/

/-- The members that a schema may be written with. -/
def slots (schema : Schema) : Slots :=
  [("$ref", schema.reference.map .string), ("type", schema.type.map TypeNames.toJson),
    ("format", schema.format.map .string), ("title", schema.title.map .string),
    ("description", schema.description.map .string), ("default", schema.default.map id),
    ("items", schema.items.map toJson),
    ("properties", Slots.filledMap (Writer.map toJson schema.properties)),
    ("required", Slots.filled (schema.required.map .string)),
    ("nullable", schema.nullable.map .bool),
    ("additionalProperties", schema.additional.map extraToJson),
    ("oneOf", Slots.filled (schema.oneOf.map toJson)),
    ("anyOf", Slots.filled (schema.anyOf.map toJson)),
    ("allOf", Slots.filled (schema.allOf.map toJson)), ("enum", Slots.filled (schema.choices.map id)),
    ("pattern", schema.pattern.map .string), ("maxLength", schema.maxLength.map Writer.natural),
    ("minLength", schema.minLength.map Writer.natural), ("readOnly", schema.readOnly.map .bool)]

theorem propertiesToJson_eq (properties : List (String × Schema)) :
    propertiesToJson properties = Writer.map toJson properties := by
  induction properties with
  | nil => rfl
  | cons property rest inductionHypothesis =>
    rw [propertiesToJson, propertyToJson, inductionHypothesis]
    rfl

theorem branchesToJson_eq (branches : List Schema) :
    branchesToJson branches = branches.map toJson := by
  induction branches with
  | nil => rfl
  | cons branch rest inductionHypothesis =>
    rw [branchesToJson, inductionHypothesis, List.map_cons]

theorem itemsToJson_eq (items : Option Schema) :
    itemsToJson items = Slots.members [("items", items.map toJson)] := by
  cases items <;> rfl

theorem additionalToJson_eq (additional : Option (Additional Schema)) :
    additionalToJson additional =
      Slots.members [("additionalProperties", additional.map extraToJson)] := by
  cases additional <;> rfl

/-- A schema is written with its keywords and its other members. -/
theorem toJson_eq (schema : Schema) :
    schema.toJson = .object (schema.slots.members ++ schema.rest) := by
  cases schema
  rw [toJson]
  simp only [Writer.text, Slots.present_eq, Slots.filled_eq, Slots.filledMap_eq, itemsToJson_eq,
    additionalToJson_eq, propertiesToJson_eq, branchesToJson_eq, ← Slots.members_append,
    List.cons_append, List.nil_append, List.map_id, slots]

/-! ### Reading again -/

theorem verbatim_typeNames : Verbatim TypeNames.read TypeNames.toJson := by
  intro json value ok
  have single (ok : (do return .single (← ofJson Reader.text json)) = Except.ok value) :
      value.toJson = json := by
    obtain ⟨name, isName, returned⟩ := bind_eq_ok.mp ok
    cases returned
    exact (text_ofJson.mp isName).symm
  cases json with
  | array items =>
    have ok : (do return .multiple (← ofJson (Reader.list Reader.text) (.array items))) =
      Except.ok value := ok
    obtain ⟨names, areNames, returned⟩ := bind_eq_ok.mp ok
    cases returned
    obtain ⟨_, same, each⟩ := list_ofJson.mp areNames
    cases same
    exact congrArg Json.array (map_of_mapM verbatim_text each)
  | _ => exact single ok

theorem solid_typeNames : Solid TypeNames.read TypeNames.toJson := by
  intro json value _ _
  cases value <;> rfl

theorem isNull_toJson (schema : Schema) : schema.toJson.isNull = false := by
  rw [toJson_eq]
  rfl

theorem solid_toJson {source : Reader Schema} : Solid source toJson := fun _ _ => isNull_toJson _

/-- A flag is a truth value, and a schema a collection. -/
theorem additional_ofJson {source : Reader Schema} {json : Json} {value : Additional Schema}
    (ok : ofJson (Additional.read source) json = .ok value) :
    (∃ flag, json = .bool flag ∧ value = .allowed flag) ∨
      ∃ schema, ofJson source json = .ok schema ∧ value = .each schema := by
  have allowed (ok : (do return .allowed (← ofJson Reader.flag json)) = Except.ok value) :
      ∃ flag, json = .bool flag ∧ value = .allowed flag := by
    obtain ⟨flag, isFlag, returned⟩ := bind_eq_ok.mp ok
    cases returned
    exact ⟨flag, flag_ofJson.mp isFlag, rfl⟩
  have each (ok : (do return .each (← ofJson source json)) = Except.ok value) :
      ∃ schema, ofJson source json = .ok schema ∧ value = .each schema := by
    obtain ⟨schema, isSchema, returned⟩ := bind_eq_ok.mp ok
    cases returned
    exact ⟨schema, isSchema, rfl⟩
  cases json with
  | array _ | object _ => exact Or.inr (each ok)
  | _ => exact Or.inl (allowed ok)

/-- What is allowed beside the properties is read faithfully if its schema is. -/
theorem faithful_additional {source target : Reader Schema}
    (faithful : Faithful source target toJson (.record .schema)) :
    Faithful (Additional.read source) (Additional.read target) extraToJson (.record .schema) where
  again {json value} ok := by
    rcases additional_ofJson ok with ⟨flag, rfl, rfl⟩ | ⟨schema, isSchema, rfl⟩
    · rfl
    · have again := faithful.again isSchema
      rw [toJson_eq] at again
      rw [extraToJson, toJson_eq]
      exact bind_eq_ok.mpr ⟨schema, again, rfl⟩
  kept {json value} keyed ok := by
    rcases additional_ofJson ok with ⟨flag, rfl, rfl⟩ | ⟨schema, isSchema, rfl⟩
    · exact .of_isBare rfl
    · exact faithful.kept keyed isSchema

theorem solid_additional {source : Reader Schema} : Solid (Additional.read source) extraToJson := by
  intro json value _ _
  cases value with
  | allowed flag => rfl
  | each schema => exact isNull_toJson schema

/-- Schemas are read faithfully to any depth. -/
theorem faithful_readWithin (limit : Nat) :
    Faithful (readWithin limit) read toJson (.record .schema) := by
  -- The schemas inside are read within a lower limit, and again without one.
  induction limit with
  | zero =>
    constructor
    · intro json schema impossible
      cases impossible
    · intro json schema _ impossible
      cases impossible
  | succ limit inductionHypothesis =>
    rw [readWithin_succ, read_eq]
    refine .of_open .schema slots (fun _ => rfl) fun isRead => ?_
    simp only [ofFields, bind_eq_ok] at isRead
    obtain ⟨reference, isReference, type, isType, format, isFormat, title, isTitle, description,
      isDescription, default, isDefault, items, isItems, properties, areProperties, required,
      areRequired, nullable, isNullable, additional, isAdditional, oneOf, isOneOf, anyOf, isAnyOf,
      allOf, isAllOf, choices, areChoices, pattern, isPattern, maxLength, isMaxLength, minLength,
      isMinLength, readOnly, isReadOnly, returned⟩ := isRead
    cases returned
    refine ⟨toJson_eq _, fun rereads rest => ?_⟩
    have reference := rereads.text isReference rfl
    have type := rereads.optional verbatim_typeNames.faithful solid_typeNames isType rfl
    have format := rereads.text isFormat rfl
    have title := rereads.text isTitle rfl
    have description := rereads.text isDescription rfl
    have default := rereads.optional faithful_json solid_json isDefault rfl
    have items := rereads.optional inductionHypothesis solid_toJson isItems rfl
    have properties := rereads.map inductionHypothesis areProperties rfl
    have required := rereads.list verbatim_text.faithful areRequired rfl
    have nullable := rereads.optional verbatim_flag.faithful (fun _ _ => rfl) isNullable rfl
    have additional :=
      rereads.optional (faithful_additional inductionHypothesis) solid_additional isAdditional rfl
    have oneOf := rereads.list inductionHypothesis isOneOf rfl
    have anyOf := rereads.list inductionHypothesis isAnyOf rfl
    have allOf := rereads.list inductionHypothesis isAllOf rfl
    have choices := rereads.list faithful_json areChoices rfl
    have pattern := rereads.text isPattern rfl
    have maxLength := rereads.optional verbatim_natural.faithful (fun _ _ => rfl) isMaxLength rfl
    have minLength := rereads.optional verbatim_natural.faithful (fun _ _ => rfl) isMinLength rfl
    have readOnly := rereads.optional verbatim_flag.faithful (fun _ _ => rfl) isReadOnly rfl
    constructor
    · simp only [ofFields, bind_eq_ok]
      exact ⟨_, reference.1, _, type.1, _, format.1, _, title.1, _, description.1, _, default.1, _,
        items.1, _, properties.1, _, required.1, _, nullable.1, _, additional.1, _, oneOf.1, _,
        anyOf.1, _, allOf.1, _, choices.1, _, pattern.1, _, maxLength.1, _, minLength.1, _,
        readOnly.1, by rw [rest]; rfl⟩
    · simp only [Model.fields, List.forall_mem_cons]
      exact ⟨reference.2, type.2, format.2, title.2, description.2, default.2, items.2,
        properties.2, required.2, nullable.2, additional.2, oneOf.2, anyOf.2, allOf.2, choices.2,
        pattern.2, maxLength.2, minLength.2, readOnly.2, List.forall_mem_nil _⟩

/-- A schema is read to the depth of its value. -/
theorem ofJson_read (json : Json) :
    ofJson read json = ofJson (readWithin ((Value.ofJson json).depth + 1)) json := by
  simp only [ofJson, read]

/-- Schemas are read faithfully. -/
theorem faithful_read : Faithful read read toJson (.record .schema) where
  again {json schema} ok := by
    rw [ofJson_read json] at ok
    exact (faithful_readWithin _).again ok
  kept {json schema} keyed ok := by
    rw [ofJson_read json] at ok
    exact (faithful_readWithin _).kept keyed ok

end Schema

end ServiceForge.OpenApi
