/-
This file proves what the lowering gives for a schema that consists of one part. Merging
copies the type, the description, the properties and what there is to say of them, and
whether null is allowed; the other keywords of the part are lost. The type is that of the
part if nothing that is lost matters to it. An object is then declared with the same
members, whatever else of it was lost.
-/

import ServiceForge.Proofs.Lowering.Active
import ServiceForge.Proofs.Lowering.Evaluation
import ServiceForge.Proofs.Lowering.Unreferring

namespace ServiceForge.Lowering

open ServiceForge.OpenApi (Schema Spec)

/-! ### The only part -/

/-- The schema that consists of one part. -/
def wrapped (part : Schema) : Schema := { allOf := [part] }

/-- What is left of a part that is merged alone. -/
def carried (part : Schema) : Schema := completeType (mergePart {} part)

section Merged

variable {context : Context} {schema whole : Schema}

/-- A schema with a single part is merged to what is carried over from the part. -/
theorem mergeAllOf_wrapped {spec : Spec}
    (given : givePart spec (spec.schemasSize + (wrapped schema).size) schema = .ok whole) :
    mergeAllOf spec (wrapped schema) = .ok (carried whole) := by
  have parts : (wrapped schema).allOf.mapM
      (givePart spec (spec.schemasSize + (wrapped schema).size)) = .ok [whole] := by
    rw [wrapped, List.mapM_cons, ← wrapped, given]
    rfl
  unfold mergeAllOf
  rw [mergeWithin_succ, parts]
  rfl

/-- A schema is merged to one without parts, of which a part is left when it is merged alone. -/
theorem exists_wholeOf (context : Context) (unreferring : Unreferring schema) :
    ∃ whole, wholeOf context schema = .ok whole ∧ whole.allOf = [] ∧ Unreferring whole ∧
      mergeAllOf context.spec (wrapped schema) = .ok (carried whole) := by
  by_cases single : schema.allOf.isEmpty = true
  · refine ⟨schema, if_pos single, List.isEmpty_iff.mp single, unreferring,
      mergeAllOf_wrapped ?_⟩
    rw [givePart_of_inline _ unreferring.referenceName?, if_pos single]
  · obtain ⟨whole, merges, ends⟩ := exists_merges context.spec schema unreferring.inline
    have smaller : schema.size < (wrapped schema).size :=
      Schema.size_lt_of_mem_parts (mem_parts_of_allOf List.mem_cons_self)
    refine ⟨whole, ?_, merges.allOf, unreferring.of_merges merges, mergeAllOf_wrapped ?_⟩
    · rw [wholeOf, if_neg single]
      exact ends _ (by omega)
    · rw [givePart_of_inline _ unreferring.referenceName?, if_neg single]
      exact ends _ (by omega)

theorem unreferring_wrapped (unreferring : Unreferring schema) : Unreferring (wrapped schema) :=
  .of_parts rfl fun _ isPart => List.mem_singleton.mp isPart ▸ unreferring

/-- What is carried over from a part has no other parts in it. -/
theorem mem_parts_of_carried {part inner : Schema} (isPart : inner ∈ (carried part).parts) :
    inner ∈ part.parts := by
  rw [carried, parts_completeType] at isPart
  exact (mem_parts_mergePart isPart).resolve_left List.not_mem_nil

theorem unreferring_carried (unreferring : Unreferring whole) : Unreferring (carried whole) := by
  refine .of_parts ?_ fun part isPart => unreferring.of_mem_parts (mem_parts_of_carried isPart)
  unfold carried completeType
  split <;> rfl

/-- The lowering of a schema is that of what it is merged to. -/
theorem lower_wholeOf (unreferring : Unreferring schema)
    (merged : wholeOf context schema = .ok whole) (hint : String) (state : State) :
    lower context schema hint state = lower context whole hint state := by
  unfold wholeOf at merged
  split at merged
  · cases merged
    rfl
  · next several =>
    rw [(sealed_unreferring context.spec).lower_eq unreferring,
      lowerStep_merged (unreferring schema .refl) (by simpa using several) merged]

/-- A part that is merged alone is lowered as what is left of it. -/
theorem lower_wrapped (unreferring : Unreferring schema)
    (merged : mergeAllOf context.spec (wrapped schema) = .ok (carried whole)) (hint : String)
    (state : State) :
    lower context (wrapped schema) hint state = lower context (carried whole) hint state := by
  rw [(sealed_unreferring context.spec).lower_eq (unreferring_wrapped unreferring),
    lowerStep_merged rfl (List.cons_ne_nil _ _) merged]

end Merged

/-! ### What is left of a part -/

section Carried

variable {context : Context} {part : Schema}

theorem isEmpty_mergeProperties (properties : List (String × Schema)) :
    (mergeProperties [] properties).isEmpty = properties.isEmpty := by
  cases properties with
  | nil => rfl
  | cons property rest =>
    have held : property.1 ∈ OrderedMap.keys (mergeProperties [] (property :: rest)) :=
      OrderedMap.mem_keys_ofEntries (List.mem_map_of_mem List.mem_cons_self)
    cases empty : mergeProperties [] (property :: rest) with
    | nil =>
      rw [empty] at held
      cases held
    | cons => rfl

theorem carried_eq (part : Schema) :
    carried part = {
      type := if part.type.isNone && !part.properties.isEmpty then some (.single "object")
        else part.type
      description := part.description
      nullable := if part.nullable = some true then some true else none
      properties := mergeProperties [] part.properties
      required := mergeRequired [] part.required
      additional := part.additional } := by
  have properties : (mergePart {} part).properties.isEmpty = part.properties.isEmpty :=
    isEmpty_mergeProperties part.properties
  have type : (mergePart {} part).type = part.type := rfl
  unfold carried completeType
  rw [properties, type]
  split <;> rfl

@[simp] theorem carried_format (part : Schema) : (carried part).format = none := by
  rw [carried_eq]

@[simp] theorem carried_additional (part : Schema) :
    (carried part).additional = part.additional := by
  rw [carried_eq]

@[simp] theorem carried_allOf (part : Schema) : (carried part).allOf = [] := by
  rw [carried_eq]

theorem isNullable_carried (part : Schema) : (carried part).isNullable = part.isNullable := by
  have types : (carried part).types.contains "null" = part.types.contains "null" := by
    rw [carried_eq]
    unfold Schema.types
    split
    · next completed =>
      have untyped : part.type = none := by simp_all
      rw [untyped]
      rfl
    · rfl
  have nullable : ((carried part).nullable == some true) = (part.nullable == some true) := by
    rw [carried_eq]
    by_cases isNull : part.nullable = some true <;> simp [isNull]
  rw [Schema.isNullable, Schema.isNullable, nullable, types]

/-- The form of a schema that is neither a union nor a choice of texts. -/
theorem form_of_plain (oneOf : part.oneOf = []) (anyOf : part.anyOf = [])
    (choices : isTextChoice part = false) :
    form part = match part.nonNullTypes with
      | [] =>
        if !part.properties.isEmpty || part.additional.isSome then .object
        else if part.items.isSome then .array
        else .free
      | [type] => formOfType type
      | _ => .free := by
  unfold form
  rw [oneOf, anyOf, choices]
  rfl

/-- A choice of texts has the form of one, whatever its type. -/
theorem form_of_choice (oneOf : part.oneOf = []) (anyOf : part.anyOf = [])
    (isChoice : isTextChoice part = true) : form part = .textChoice := by
  unfold form
  rw [oneOf, anyOf, isChoice]
  rfl

/-- What is left of a part is neither a union nor a choice of texts, and has no items. -/
theorem form_of_carried (part : Schema) :
    form (carried part) = match (carried part).nonNullTypes with
      | [] => if !part.properties.isEmpty || part.additional.isSome then .object else .free
      | [type] => formOfType type
      | _ => .free := by
  have noChoice : isTextChoice (carried part) = false := by
    rw [carried_eq]
    simp [isTextChoice]
  rw [form_of_plain (by rw [carried_eq]) (by rw [carried_eq]) noChoice, carried_eq,
    isEmpty_mergeProperties]
  rfl

theorem formOfType_ne (type : String) :
    formOfType type ≠ .union ∧ formOfType type ≠ .textChoice := by
  unfold formOfType
  split <;> exact ⟨nofun, nofun⟩

/-- A schema that is no union and no choice of texts has the form of neither. -/
theorem form_ne_of_plain (oneOf : part.oneOf = []) (anyOf : part.anyOf = [])
    (choices : isTextChoice part = false) :
    form part ≠ .union ∧ form part ≠ .textChoice := by
  rw [form_of_plain oneOf anyOf choices]
  match part.nonNullTypes with
  | [] =>
    simp only
    split
    · exact ⟨nofun, nofun⟩
    · split <;> exact ⟨nofun, nofun⟩
  | [type] => exact formOfType_ne type
  | _ :: _ :: _ => exact ⟨nofun, nofun⟩

/-- What is left of a part that is neither a union nor a choice of texts has the form of the part,
except if only its items tell that it is an array. -/
theorem form_carried (oneOf : part.oneOf = []) (anyOf : part.anyOf = [])
    (choices : isTextChoice part = false) :
    form (carried part) = form part ∨
      form (carried part) = .free ∧ form part = .array ∧ part.items ≠ none := by
  rw [form_of_carried, form_of_plain oneOf anyOf choices]
  by_cases completed : (part.type.isNone && !part.properties.isEmpty) = true
  · have untyped : part.nonNullTypes = [] := by
      simp_all [Schema.nonNullTypes, Schema.types]
    have isObject : (carried part).nonNullTypes = ["object"] := by
      rw [carried_eq, if_pos completed]
      rfl
    rw [untyped, isObject]
    simp_all [formOfType]
  · have types : (carried part).nonNullTypes = part.nonNullTypes := by
      rw [carried_eq, if_neg completed]
      rfl
    rw [types]
    match part.nonNullTypes with
    | [] =>
      simp only
      split
      · exact Or.inl rfl
      · split
        · next isSome => exact Or.inr ⟨rfl, rfl, fun none => by simp [none] at isSome⟩
        · exact Or.inl rfl
    | [type] => exact Or.inl rfl
    | _ :: _ :: _ => exact Or.inl rfl

/-! ### Objects -/

/-- Two outcomes are the same but for the schemas that the declared types stand for. -/
structure SameOutcome (first second : Except GenerationError ValueType × State) : Prop where
  result : first.1 = second.1
  imports : first.2.imports = second.2.imports
  subtypes : first.2.subtypes = second.2.subtypes

theorem SameOutcome.of_eq {first second : Except GenerationError ValueType × State}
    (same : first = second) : SameOutcome first second :=
  ⟨by rw [same], by rw [same], by rw [same]⟩

theorem isRequired_carried (part : Schema) (name : String) :
    (carried part).isRequired name = part.isRequired name := by
  rw [Schema.isRequired, Schema.isRequired, carried_eq, Bool.eq_iff_iff, List.contains_iff_mem,
    List.contains_iff_mem, mem_mergeRequired]
  exact or_iff_right List.not_mem_nil

theorem lowerProperties_congr {left right : Schema}
    (required : ∀ name, left.isRequired name = right.isRequired name) (recur : Recur)
    (owner : String) (fields : List Field) (properties : List (String × Schema)) :
    lowerProperties context recur left owner fields properties =
      lowerProperties context recur right owner fields properties := by
  induction properties generalizing fields with
  | nil => rfl
  | cons property rest inductionHypothesis =>
    unfold lowerProperties
    simp only [required, inductionHypothesis]

/-- What stands in an object is left of it. -/
theorem lowerContent_carried (properties : (OrderedMap.keys part.properties).Nodup)
    (single : part.allOf = []) (recur : Recur) (name : String) :
    lowerContent context recur (carried part) name = lowerContent context recur part name := by
  have fields : lowerFieldsWith context recur (carried part) "" =
      lowerFieldsWith context recur part "" := by
    have left : wholeOf context (carried part) = .ok (carried part) := if_pos (by simp)
    have own : wholeOf context part = .ok part := if_pos (List.isEmpty_iff.mpr single)
    have same : (carried part).properties = part.properties := by
      rw [carried_eq]
      exact OrderedMap.ofEntries_eq_self properties
    rw [lowerFieldsWith_eq, lowerFieldsWith_eq, left, own]
    show lowerProperties context recur _ "" [] _ = lowerProperties context recur _ "" [] _
    rw [same]
    exact lowerProperties_congr (isRequired_carried part) recur "" [] part.properties
  have additional : lowerAdditional recur (carried part) name =
      lowerAdditional recur part name := by
    unfold lowerAdditional
    rw [carried_additional]
  unfold lowerContent
  rw [fields, additional]

/-- The schemas that stand in what is left of an object. -/
theorem beneath_carried (unreferring : Unreferring part) {inner : Schema}
    (isPart : inner ∈ (carried part).parts) : Beneath part (carried part) inner :=
  have held := mem_parts_of_carried isPart
  ⟨unreferring.of_mem_parts held, Schema.deeper_of_mem_parts held,
    Schema.deeper_of_mem_parts isPart⟩

theorem subtypes_declare_same (state : State) (first second : Schema) (subtype : Subtype) :
    (state.declare first subtype).subtypes = (state.declare second subtype).subtypes := by
  simp [State.subtypes, State.declare]

theorem declareStructure_same {first second : Schema}
    (same : first.description = second.description) (name : String)
    (content : Except GenerationError (List Field) × Except GenerationError (Option ValueType))
    (state : State) :
    SameOutcome (declareStructure first name content state)
      (declareStructure second name content state) := by
  unfold declareStructure
  rw [same]
  rcases content with ⟨error | fields, error | additional⟩
  · exact .of_eq rfl
  · exact .of_eq rfl
  · exact .of_eq rfl
  · cases additional with
    | none => exact ⟨rfl, rfl, subtypes_declare_same state first second _⟩
    | some values => exact ⟨rfl, rfl, subtypes_declare_same (state.addImport _) first second _⟩

/-- A structure is declared with the same members for what is left of an object. -/
theorem lowerStructure_carried (unreferring : Unreferring part)
    (properties : (OrderedMap.keys part.properties).Nodup) (single : part.allOf = [])
    {name : String} {state : State} (new : name ∉ OrderedMap.keys state.inProgress) :
    SameOutcome (lowerStructure context (lower context) (carried part) name state)
      (lowerStructure context (lower context) part name state) := by
  have inside := within_restating context
    (fun inner isPart => beneath_carried unreferring isPart) (carried_allOf part) new
  rw [lowerContent_carried properties single] at inside
  rw [lowerStructure_eq, lowerStructure_eq, bind_run, bind_run,
    lowerContent_carried properties single, inside]
  rcases within (beginType name part) endType (lowerContent context (lower context) part name) state
    with ⟨error | pair, after⟩
  · exact .of_eq rfl
  · exact declareStructure_same (by rw [carried_eq]) name pair after

/-- No name in use stands for only one of two schemas. -/
def Indifferent (state : State) (first second : Schema) : Prop :=
  ∀ name origin, state.origin? name = some origin → origin.equal first = origin.equal second

theorem Indifferent.claim_eq {state : State} {first second : Schema}
    (indifferent : Indifferent state first second) (hint : String) :
    claim state hint first = claim state hint second := by
  refine claim_congr (fun name => ?_) fun _ => rfl
  cases found : state.origin? name with
  | none => rfl
  | some origin => exact congrArg some (indifferent name origin found)

/-- An object is lowered like what its merging carries, if a new type takes the same name. -/
theorem lowerObject_carried (unreferring : Unreferring part)
    (properties : (OrderedMap.keys part.properties).Nodup) (single : part.allOf = [])
    {state : State}
    (indifferent : context.dialect = .sdk → part.properties ≠ [] →
      Indifferent state (carried part) part) (hint : String) :
    SameOutcome (lowerObject context (lower context) (carried part) hint state)
      (lowerObject context (lower context) part hint state) := by
  have filled : (carried part).properties.isEmpty = part.properties.isEmpty := by
    rw [carried_eq]
    exact isEmpty_mergeProperties part.properties
  unfold lowerObject
  rw [filled]
  by_cases empty : part.properties.isEmpty = true
  · rw [if_pos empty, if_pos empty, lowerMap, lowerMap, carried_additional]
    exact .of_eq rfl
  rw [if_neg empty, if_neg empty]
  by_cases sdk : context.dialect = .sdk
  · have claimed := (indifferent sdk (by simpa using empty)).claim_eq hint
    rw [if_neg (not_not_intro sdk), if_neg (not_not_intro sdk), bind_run_of_ok (get_run state),
      bind_run_of_ok (get_run state), claimed]
    cases isNew : claim state hint part with
    | existing | forward => exact .of_eq rfl
    | new name =>
      exact lowerStructure_carried unreferring properties single
        (notMem_inProgress_of_claim isNew)
  · rw [if_pos sdk, if_pos sdk]
    exact .of_eq rfl

/-! ### Parts of any form -/

/-- What the lowering reads of a part is left of it when it is merged alone. An object loses nothing
that is read; outside the client library a choice of texts is as good as text, and a list is not
looked into for commands. -/
structure Carries (context : Context) (part : Schema) : Prop where
  text : form part = .text → part.format ≠ some "date-time"
  integer : form part = .integer → part.format ≠ some "int64"
  number : form part = .number → part.format ≠ some "double"
  array : form part = .array → part.items = none ∨ context.dialect = .cli
  choices : isTextChoice part = true → part.nonNullTypes = ["string"] ∧ context.dialect ≠ .sdk
  oneOf : part.oneOf = []
  anyOf : part.anyOf = []
  properties : (OrderedMap.keys part.properties).Nodup

/-- An array of free items, or one that is shown as free JSON. -/
theorem lowerArray_carried (shown : part.items = none ∨ context.dialect = .cli)
    (recur : Recur) (hint : String) (state : State) :
    lowerArray context recur (carried part) hint state =
      lowerArray context recur part hint state := by
  have items : (carried part).items = none := by rw [carried_eq]
  unfold lowerArray
  rcases shown with none | cli
  · rw [items, none]
  · rw [if_pos cli, if_pos cli]

/-- A choice of texts that is left as text. -/
theorem lowerPlain_carried_choice (carries : Carries context part)
    (isChoice : isTextChoice part = true) (recur : Recur) (hint : String) (state : State) :
    lowerPlain context recur (carried part) hint state =
      lowerPlain context recur part hint state := by
  obtain ⟨texts, other⟩ := carries.choices isChoice
  have typed : ¬ (part.type.isNone && !part.properties.isEmpty) = true := by
    intro untyped
    simp_all [Schema.nonNullTypes, Schema.types]
  have left : form (carried part) = .text := by
    rw [form_of_carried, carried_eq, if_neg typed]
    show (match part.nonNullTypes with
      | [] => _
      | [type] => formOfType type
      | _ => _) = Form.text
    rw [texts]
    rfl
  have isForm := form_of_choice carries.oneOf carries.anyOf isChoice
  have none : importsIn context [.sdk] [Import.borrowedText] = [] := if_neg (by simpa using other)
  rw [(Leaf.text left (by simp)).run, (Leaf.choice isForm other).run, none]

/-- A part that is no object is lowered as what is left of it. -/
theorem lowerPlain_carried_of_ne (carries : Carries context part) (other : form part ≠ .object)
    (recur : Recur) (hint : String) (state : State) :
    lowerPlain context recur (carried part) hint state =
      lowerPlain context recur part hint state := by
  by_cases isChoice : isTextChoice part = true
  · exact lowerPlain_carried_choice carries isChoice recur hint state
  have noChoice : isTextChoice part = false := Bool.not_eq_true _ ▸ isChoice
  have same (other : form part ≠ .array) : form (carried part) = form part :=
    (form_carried carries.oneOf carries.anyOf noChoice).resolve_right fun lost => other lost.2.1
  have plain := form_ne_of_plain carries.oneOf carries.anyOf noChoice
  cases isForm : form part with
  | union => exact absurd isForm plain.1
  | textChoice => exact absurd isForm plain.2
  | object => exact absurd isForm other
  | array =>
    rcases form_carried carries.oneOf carries.anyOf noChoice with isArray | ⟨isFree, -, filled⟩
    · rw [lowerPlain_eq, lowerPlain_eq, isArray, isForm]
      exact lowerArray_carried (carries.array isForm) recur hint state
    · have shown := (carries.array isForm).resolve_left filled
      rw [(Leaf.free isFree).run, (Leaf.shownArray isForm shown).run]
  | text =>
    have left : form (carried part) = .text := (same (by simp [isForm])).trans isForm
    rw [(Leaf.text left (by simp)).run, (Leaf.text isForm (carries.text isForm)).run]
  | integer =>
    have left : form (carried part) = .integer := (same (by simp [isForm])).trans isForm
    rw [(Leaf.integer left).run, (Leaf.integer isForm).run, carried_format, if_neg (by simp),
      if_neg (carries.integer isForm)]
  | number =>
    have left : form (carried part) = .number := (same (by simp [isForm])).trans isForm
    rw [(Leaf.number left).run, (Leaf.number isForm).run, carried_format, if_neg (by simp),
      if_neg (carries.number isForm)]
  | boolean =>
    have left : form (carried part) = .boolean := (same (by simp [isForm])).trans isForm
    rw [(Leaf.boolean left).run, (Leaf.boolean isForm).run]
  | unknown type =>
    have left : form (carried part) = .unknown type := (same (by simp [isForm])).trans isForm
    rw [lowerPlain_eq, lowerPlain_eq, left, isForm]
    rfl
  | free =>
    have left : form (carried part) = .free := (same (by simp [isForm])).trans isForm
    rw [(Leaf.free left).run, (Leaf.free isForm).run]

/-- A part is lowered like what its merging carries, if nothing it needs is dropped. -/
theorem lowerPlain_carried (carries : Carries context part) (unreferring : Unreferring part)
    (single : part.allOf = []) {state : State}
    (indifferent : Declares context part → Indifferent state (carried part) part)
    (hint : String) :
    SameOutcome (lowerPlain context (lower context) (carried part) hint state)
      (lowerPlain context (lower context) part hint state) := by
  by_cases isForm : form part = .object
  · have noChoice : isTextChoice part = false := by
      rw [← Bool.not_eq_true]
      intro isChoice
      cases isForm.symm.trans (form_of_choice carries.oneOf carries.anyOf isChoice)
    have left : form (carried part) = .object :=
      (form_carried carries.oneOf carries.anyOf noChoice).elim (fun same => same.trans isForm)
        fun lost => by cases isForm.symm.trans lost.2.1
    rw [lowerPlain_eq, lowerPlain_eq, left, isForm]
    exact lowerObject_carried unreferring carries.properties single
      (fun sdk filled => indifferent ⟨sdk, Or.inr (Or.inl ⟨isForm, filled⟩)⟩) hint
  · exact .of_eq (lowerPlain_carried_of_ne carries isForm _ hint state)

end Carried

/-- If no reference stands in a schema, the schema that consists of it as its only part is lowered
as what merging leaves of it, from every state. Its outcome is that of the schema itself, with the
same imports and the same declared types, if nothing is lost that the lowering reads: no format that
gives the type, no items, choices or branches. Where a type may be declared, no name in use must
stand for only one of the schema and what is left of it. -/
theorem lower_singlePart (context : Context) {schema : Schema}
    (unreferring : Unreferring schema) :
    ∃ whole, wholeOf context schema = .ok whole ∧
      ∀ hint state,
        lower context (wrapped schema) hint state = lower context (carried whole) hint state ∧
        (Carries context whole →
          (Declares context whole → Indifferent state (carried whole) whole) →
            SameOutcome (lower context (wrapped schema) hint state)
              (lower context schema hint state)) := by
  obtain ⟨whole, merged, single, unreferringWhole, alone⟩ := exists_wholeOf context unreferring
  refine ⟨whole, merged, fun hint state => ⟨lower_wrapped unreferring alone hint state, ?_⟩⟩
  intro carries indifferent
  have left := unreferring_carried unreferringWhole
  have rules := sealed_unreferring context.spec
  have plain := lowerPlain_carried carries unreferringWhole single indifferent hint
  rw [lower_wrapped unreferring alone, lower_wholeOf unreferring merged, rules.lower_eq left,
    rules.lower_eq unreferringWhole, lowerStep_plain (left _ .refl) (carried_allOf whole),
    lowerStep_plain (unreferringWhole _ .refl) single, isNullable_carried]
  exact ⟨congrArg (Except.map (optionalIf whole.isNullable)) plain.result, plain.imports,
    plain.subtypes⟩

/-- An object with a title that may be null. -/
def limitsSchema : Schema where
  type := some (.single "object")
  title := some "Limits of a project"
  nullable := some true
  properties := [("count", .ofType "integer")]
  required := ["count"]

theorem limitsSchema_unreferring : Unreferring limitsSchema :=
  .of_parts rfl fun _ isPart => by
    rw [List.mem_singleton.mp isPart]
    exact .of_parts rfl nofun

theorem limitsSchema_carries : Carries emptyContext limitsSchema where
  text isText := by cases isText
  integer isInteger := by cases isInteger
  number isNumber := by cases isNumber
  array isArray := by cases isArray
  choices isChoice := by cases isChoice
  oneOf := rfl
  anyOf := rfl
  properties := List.nodup_singleton _

theorem lower_singlePart_limits :
    SameOutcome (lower emptyContext (wrapped limitsSchema) "limits" {})
        (lower emptyContext limitsSchema "limits" {}) ∧
      (lower emptyContext limitsSchema "limits" {}).1.toOption =
        some (.optional (.named "Limits")) := by
  obtain ⟨whole, merged, alike⟩ := lower_singlePart emptyContext limitsSchema_unreferring
  cases merged
  refine ⟨(alike "limits" {}).2 limitsSchema_carries fun _ name origin found => ?_, by
    decide +kernel⟩
  cases found

/-- An integer of eight bytes. -/
def wideSchema : Schema := { type := some (.single "integer"), format := some "int64" }

/-- The only part of a schema is not always lowered as it is alone. -/
theorem lower_singlePart_not_same :
    (lower emptyContext wideSchema "size" {}).1.toOption = some .int64 ∧
      (lower emptyContext (wrapped wideSchema) "size" {}).1.toOption = some .int32 := by
  decide +kernel

end ServiceForge.Lowering
