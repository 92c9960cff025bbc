/-
This file says when the names of generated types and variants can be used. If the names of the API
are in ASCII, each name in the types is made of letters, digits and marks after an uppercase letter.
The only keyword among such names is `Self`, and no number, digit or mark is appended to get it or
the name of an item of the source. So it stands for a type exactly if a type was asked for under it,
and for a variant exactly if the text or the payload of the variant is named so.
-/

import ServiceForge.Proofs.Lowering.AskedNames
import ServiceForge.Proofs.Lowering.Denotation
import ServiceForge.Proofs.Lowering.GivenNames
import ServiceForge.Proofs.Text.TypeNames

namespace ServiceForge.Lowering

open ServiceForge.Naming (IsCapitalized IsIdentifier)
open ServiceForge.OpenApi (Parameter Schema)
open ServiceForge.Text (IsAscii isAlphanum_of_mem_toString)

/-! ### Schemas with names in ASCII -/

/-- The names and texts of a schema are in ASCII. -/
structure AsciiHere (schema : Schema) : Prop where
  component : ∀ component ∈ schema.referenceName?, IsAscii component
  title : ∀ title ∈ schema.title, IsAscii title
  properties : ∀ property ∈ schema.properties, IsAscii property.1
  texts : ∀ text ∈ schema.choices.filterMap Json.string?, IsAscii text

/-- The names and texts of all schemas in a schema are in ASCII. -/
def AsciiNames (schema : Schema) : Prop := ∀ inner, schema.Holds inner → AsciiHere inner

/-- The names and texts of all components are in ASCII. -/
def AsciiComponents (context : Context) : Prop :=
  ∀ name target, context.spec.schema? name = some target → AsciiNames target

section Ascii

variable {context : Context} {schema part : Schema} {hint name : String}

theorem AsciiNames.here (ascii : AsciiNames schema) : AsciiHere schema := ascii schema .refl

theorem AsciiNames.of_mem_parts (ascii : AsciiNames schema) (isPart : part ∈ schema.parts) :
    AsciiNames part :=
  (Schema.forall_holds_iff.mp ascii).2 part isPart

theorem asciiHere_mergeParts (ascii : AsciiHere schema) {parts : List Schema}
    (each : ∀ part ∈ parts, AsciiHere part) : AsciiHere (mergeParts schema parts) := by
  have folded : ∀ start : Schema, AsciiHere start → AsciiHere (parts.foldl mergePart start) := by
    induction parts with
    | nil => exact fun _ own => own
    | cons part rest inductionHypothesis =>
      obtain ⟨first, others⟩ := List.forall_mem_cons.mp each
      intro start own
      refine inductionHypothesis others _ ⟨own.component, own.title, fun property member => ?_,
        own.texts⟩
      rcases OrderedMap.mem_of_mem_insertAll member with before | added
      · exact own.properties property before
      · exact first.properties property added
  have whole := folded { schema with allOf := [] }
    ⟨ascii.component, ascii.title, ascii.properties, ascii.texts⟩
  unfold mergeParts completeType
  split
  · exact ⟨whole.component, whole.title, whole.properties, whole.texts⟩
  · exact whole

/-- Merging adds no other names. -/
theorem asciiNames_of_mergeAllOf (components : AsciiComponents context) {whole : Schema}
    (ascii : AsciiNames schema) (merged : mergeAllOf context.spec schema = .ok whole) :
    AsciiNames whole := by
  refine mergeWithin_keeps components
    (fun ascii isPart => ascii.of_mem_parts (mem_parts_of_allOf isPart)) ?_ ascii merged
  intro schema parts ascii each
  refine Schema.forall_holds_iff.mpr ⟨asciiHere_mergeParts ascii.here fun part member =>
    (each part member).here, fun inner member => ?_⟩
  rcases mem_parts_mergeParts member with own | ⟨part, isPart, held⟩
  · exact ascii.of_mem_parts own
  · exact (each part isPart).of_mem_parts held

/-- What the parts of a schema are merged to has names in ASCII if they have. -/
theorem asciiNames_of_wholeOf (components : AsciiComponents context) {whole : Schema}
    (ascii : AsciiNames schema) (merged : wholeOf context schema = .ok whole) :
    AsciiNames whole := by
  unfold wholeOf at merged
  split at merged
  · cases merged
    exact ascii
  · exact asciiNames_of_mergeAllOf components ascii merged

/-! ### Hints in ASCII -/

theorem isAscii_propertyHint (owner : IsAscii hint) (own : IsAscii name) :
    IsAscii (propertyHint hint name) := by
  unfold propertyHint
  split
  · exact own
  · exact (owner.append (by decide)).append own

theorem isAscii_of_mem_versionCalls (own : IsAscii name) {branches : List Schema} {index : Nat}
    {call : Schema × String} (member : call ∈ versionCalls name index branches) :
    IsAscii call.2 := by
  induction branches generalizing index with
  | nil => cases member
  | cons branch rest inductionHypothesis =>
    rcases List.mem_cons.mp member with rfl | later
    · exact (own.append (by decide)).append (Naming.isAscii_versionSuffix _)
    · exact inductionHypothesis later

theorem isAscii_of_mem_payloadCalls (own : IsAscii name) {branches : List Schema} {index : Nat}
    (titles : ∀ branch ∈ branches, ∀ title ∈ branch.title, IsAscii title)
    {call : Schema × String} (member : call ∈ payloadCalls name index branches) :
    IsAscii call.2 := by
  induction branches generalizing index with
  | nil => cases member
  | cons branch rest inductionHypothesis =>
    obtain ⟨first, others⟩ := List.forall_mem_cons.mp titles
    rcases List.mem_cons.mp member with rfl | later
    · cases titled : branch.title with
      | none => exact (own.append (by decide)).append (Naming.isAscii_toString index)
      | some title => exact first title titled
    · exact inductionHypothesis others later

/-- The branches of a union are lowered under hints in ASCII. -/
theorem ascii_of_mem_variantCalls (ascii : AsciiNames schema) (own : IsAscii name)
    {call : Schema × String} (member : call ∈ variantCalls schema name) :
    AsciiNames call.1 ∧ IsAscii call.2 := by
  have branches (branch : Schema) (held : branch ∈ schema.nonNullBranches) : AsciiNames branch :=
    ascii.of_mem_parts (mem_parts_of_nonNullBranches held)
  refine ⟨branches call.1 ?_, ?_⟩
  · rw [← variantCalls_schemas schema name]
    exact List.mem_map_of_mem member
  · unfold variantCalls at member
    split at member
    · exact isAscii_of_mem_versionCalls own member
    · exact isAscii_of_mem_payloadCalls own (fun branch held => (branches branch held).here.title)
        member

/-- Every candidate for a hint in ASCII is a capitalized name. -/
theorem isCapitalized_candidate (ascii : IsAscii hint) (index : Nat) :
    IsCapitalized (candidate (Naming.typeName hint) index) := by
  have base := Naming.isCapitalized_typeName ascii
  unfold candidate
  split
  · exact base
  · exact base.append_toString _

/-- Schemas in ASCII under hints in ASCII give capitalized names. -/
theorem supplies_isCapitalized (components : AsciiComponents context) :
    Supplies context (fun schema hint => AsciiNames schema ∧ IsAscii hint) IsCapitalized where
  forward given named := Naming.isCapitalized_typeName (given.1.here.component _ named)
  candidate given index := isCapitalized_candidate given.2 index
  leads := by
    rintro schema part hint partHint ⟨ascii, own⟩ leads
    cases leads with
    | component named found => exact ⟨components _ _ found, ascii.here.component _ named⟩
    | whole merged => exact ⟨asciiNames_of_mergeAllOf components ascii merged, own⟩
    | inner inner =>
      refine ⟨ascii.of_mem_parts inner.mem_parts, ?_⟩
      cases inner with
      | branch => exact own
      | items => exact Naming.isAscii_singularize own
      | values => exact own
    | property held =>
      have isPart := Schema.mem_parts.mpr (Or.inr (Or.inl ⟨_, held, rfl⟩))
      exact ⟨ascii.of_mem_parts isPart, ascii.here.properties _ held⟩
    | further index isEach =>
      have isPart := Schema.mem_parts.mpr (Or.inr (Or.inr (Or.inl isEach)))
      exact ⟨ascii.of_mem_parts isPart, (isCapitalized_candidate own index).ascii⟩
    | variant index member =>
      exact ascii_of_mem_variantCalls ascii (isCapitalized_candidate own index).ascii member

end Ascii

/-! ### Names of variants -/

namespace Subtype

/-- The names of the variants, of which a structure has none. -/
def variantNames (subtype : Subtype) : List String :=
  match subtype.shape with
  | .structure _ _ => []
  | .enumeration variants => variants.names

end Subtype

section Capitalized

variable {context : Context} {declared : Declared}

/-- A capitalized name stays one when it is made new. -/
theorem isCapitalized_fresh {suffix name : String} (taken : List String) (visible : suffix ≠ "")
    (plain : ∀ character ∈ suffix.toList, character.isAlphanum = true ∨ character = '_')
    (own : IsCapitalized name) : IsCapitalized (fresh taken suffix name) := by
  obtain ⟨count, found, -, -⟩ := fresh_endsAt taken visible name
  rw [found]
  exact own.iterate plain count

theorem isCapitalized_textVariantName {text : String} (ascii : IsAscii text) :
    IsCapitalized (textVariantName text) := by
  unfold textVariantName
  split
  · decide
  · exact Naming.isCapitalized_typeName ascii

/-- The variants for texts in ASCII are capitalized names. -/
theorem isCapitalized_textVariants {texts : List String} (ascii : ∀ text ∈ texts, IsAscii text)
    (variants : List (String × String)) (before : ∀ variant ∈ variants, IsCapitalized variant.1) :
    ∀ variant ∈ textVariants variants texts, IsCapitalized variant.1 := by
  induction texts generalizing variants with
  | nil => exact before
  | cons text rest inductionHypothesis =>
    obtain ⟨first, others⟩ := List.forall_mem_cons.mp ascii
    refine inductionHypothesis others _ fun variant member => ?_
    rcases List.mem_append.mp member with held | new
    · exact before variant held
    · rw [List.mem_singleton.mp new]
      exact isCapitalized_fresh _ (by decide) (fun _ member => Or.inr (List.mem_singleton.mp member))
        (isCapitalized_textVariantName first)

theorem isCapitalized_payloadName {type : ValueType} (named : type.Names IsCapitalized)
    (index : Nat) : IsCapitalized (payloadName index type) := by
  fun_induction payloadName index type with
  | case12 name => exact named name List.mem_cons_self
  | case13 inner inductionHypothesis => exact inductionHypothesis named
  | case14 inner _ inductionHypothesis => exact inductionHypothesis named
  | case15 => exact IsCapitalized.append_toString (by decide : IsCapitalized "F") index
  | _ => decide

/-- The variants for types with capitalized names are capitalized names. -/
theorem isCapitalized_payloadsOf {types : List ValueType}
    (named : ∀ type ∈ types, type.Names IsCapitalized) (variants : List (String × ValueType))
    (before : ∀ variant ∈ variants, IsCapitalized variant.1) :
    ∀ variant ∈ payloadsOf variants types, IsCapitalized variant.1 := by
  induction types generalizing variants with
  | nil => exact before
  | cons type rest inductionHypothesis =>
    obtain ⟨first, others⟩ := List.forall_mem_cons.mp named
    refine inductionHypothesis others _ fun variant member => ?_
    rcases List.mem_append.mp member with held | new
    · exact before variant held
    · rw [List.mem_singleton.mp new]
      exact isCapitalized_fresh _ Nat.repr_ne_empty
        (fun _ member => Or.inl (isAlphanum_of_mem_toString member))
        (isCapitalized_payloadName (first.congr (ValueType.names_withoutOption type)) _)

/-- The variants by version are capitalized names. -/
theorem isCapitalized_versionsOf {branches : List Schema} {types : List ValueType} {index : Nat} :
    ∀ variant ∈ versionsOf index branches types, IsCapitalized variant.1 := by
  intro variant member
  induction branches generalizing index types with
  | nil => cases member
  | cons branch rest inductionHypothesis =>
    cases types with
    | nil => cases member
    | cons type types =>
      rcases List.mem_cons.mp member with rfl | later
      · refine IsCapitalized.append (by decide : IsCapitalized "V") fun character held => Or.inl ?_
        rw [Naming.versionSuffix, String.toList_ofList] at held
        exact (List.mem_filter.mp held).2
      · exact inductionHypothesis later

/-- The variants of a type that is declared for a schema in ASCII have capitalized names. -/
theorem isCapitalized_variantNames (made : Made context declared)
    (ascii : AsciiHere declared.origin)
    (members : ∀ type ∈ declared.subtype.memberTypes, type.Names IsCapitalized) :
    ∀ name ∈ declared.subtype.variantNames, IsCapitalized name := by
  intro name member
  cases made with
  | choice =>
    obtain ⟨variant, held, rfl⟩ := List.mem_map.mp member
    exact isCapitalized_textVariants ascii.texts [] nofun variant held
  | «structure» => cases member
  | @union schema own types _ _ branches =>
    rw [memberTypes_unionType own branches] at members
    change name ∈ (variantsOf schema types).names at member
    unfold variantsOf at member
    split at member
    · obtain ⟨variant, held, rfl⟩ := List.mem_map.mp member
      exact isCapitalized_versionsOf variant held
    · obtain ⟨variant, held, rfl⟩ := List.mem_map.mp member
      exact isCapitalized_payloadsOf members [] nofun variant held

end Capitalized

/-! ### Variants with a given name -/

/-- A variant of a declared type whose text or payload has a name. -/
inductive NamesVariant (name : String) : Shape → Prop
  | text {variants : List (String × String)} {variant wire : String} :
      (variant, wire) ∈ variants → Naming.typeName wire = name →
        NamesVariant name (.enumeration (.texts variants))
  | payload {variants : List (String × ValueType)} {variant : String} {type : ValueType} :
      (variant, type) ∈ variants → type.withoutOption.name? = some name →
        NamesVariant name (.enumeration (.untagged variants))

section Variants

variable {context : Context} {entries : List (String × Schema)} {schema : Schema}
  {type : ValueType} {name : String} {declared : Declared}

/-- A name without marks is that of a variant exactly if a text is named so. -/
theorem mem_textVariants_iff (bare : ∀ base, base ++ "_" ≠ name)
    (variants : List (String × String)) (texts : List String) :
    name ∈ (textVariants variants texts).map Prod.fst ↔
      name ∈ variants.map Prod.fst ∨ ∃ text ∈ texts, textVariantName text = name := by
  induction texts generalizing variants with
  | nil => simp [textVariants]
  | cons text rest inductionHypothesis =>
    have next : name ∈ (textVariants variants (text :: rest)).map Prod.fst ↔
        name ∈ (variants ++ [(fresh (variants.map Prod.fst) "_" (textVariantName text),
          text)]).map Prod.fst ∨ ∃ text ∈ rest, textVariantName text = name :=
      inductionHypothesis _
    have found : fresh (variants.map Prod.fst) "_" (textVariantName text) = name ↔
        textVariantName text = name ∧ name ∉ variants.map Prod.fst :=
      fresh_eq_iff (by decide) bare
    rw [next, List.map_append, List.mem_append, List.map_singleton, List.mem_singleton,
      eq_comm (a := name), found, List.exists_mem_cons_iff]
    tauto

theorem wires_textVariants (variants : List (String × String)) (texts : List String) :
    (textVariants variants texts).map Prod.snd = variants.map Prod.snd ++ texts := by
  induction texts generalizing variants with
  | nil => exact (List.append_nil _).symm
  | cons text rest inductionHypothesis =>
    refine (inductionHypothesis _).trans ?_
    rw [List.map_append, List.append_assoc]
    rfl

/-- The names of payloads that are no types of their own. -/
def payloadKinds : List String :=
  ["String", "DateTime", "Integer", "Number", "Bool", "Array", "Object"]

theorem payloadName_of_name? (named : type.name? = some name) (index : Nat) :
    payloadName index type = name := by
  induction type with
  | named own => exact Option.some.inj named
  | boxed inner inductionHypothesis =>
    cases inner with
    | optional => cases named
    | _ => exact inductionHypothesis named
  | _ => cases named

/-- A payload that has no type of its own is named after its kind. -/
theorem Lowered.payloadName_mem (lowered : Lowered context entries schema type)
    (unnamed : type.name? = none) (index : Nat) : payloadName index type ∈ payloadKinds := by
  induction lowered with
  | forward => cases unnamed
  | unwrapped _ _ inductionHypothesis => exact inductionHypothesis unnamed
  | foreign | list | map => simp [payloadName, payloadKinds]
  | @leaf _ type _ _ leaf =>
    rcases leaf.shape with scalar | rfl | rfl
    · cases type <;> simp [payloadName, payloadKinds, ValueType.isScalar] at scalar ⊢
    · simp [payloadName, payloadKinds]
    · simp [payloadName, payloadKinds]
  | named _ _ _ named => cases named.symm.trans unnamed

/-- A name without digits that is not the name of a kind is that of a payload exactly if the payload
has the type with this name. -/
theorem Lowered.payloadName_eq_iff (lowered : Lowered context entries schema type)
    (special : name ∉ payloadKinds) (index : Nat) :
    payloadName index type = name ↔ type.name? = some name := by
  refine ⟨?_, fun named => payloadName_of_name? named index⟩
  rintro rfl
  cases own : type.name? with
  | none => exact absurd (lowered.payloadName_mem own index) special
  | some other => rw [payloadName_of_name? own]

theorem mem_payloadsOf_iff (bare : ∀ (base : String) (number : Nat), base ++ toString number ≠ name)
    (variants : List (String × ValueType)) {types : List ValueType}
    (payloads : ∀ type ∈ types, ∀ index,
      payloadName index type.withoutOption = name ↔ type.withoutOption.name? = some name) :
    name ∈ (payloadsOf variants types).map Prod.fst ↔
      name ∈ variants.map Prod.fst ∨ ∃ type ∈ types, type.withoutOption.name? = some name := by
  induction types generalizing variants with
  | nil => simp [payloadsOf]
  | cons type rest inductionHypothesis =>
    obtain ⟨own, others⟩ := List.forall_mem_cons.mp payloads
    have found : (payloadOf variants type).1 = name ↔
        payloadName variants.length type.withoutOption = name ∧ name ∉ variants.map Prod.fst :=
      fresh_eq_iff Nat.repr_ne_empty fun base => bare base variants.length
    rw [payloadsOf, inductionHypothesis _ others, List.map_append, List.mem_append,
      List.map_singleton, List.mem_singleton, eq_comm (a := name), found, own,
      List.exists_mem_cons_iff]
    tauto

end Variants

/-! ### The name `Self` among variants -/

section SelfNames

variable {context : Context} {entries : List (String × Schema)} {declared : Declared}

theorem textVariantName_eq_self_iff {text : String} :
    textVariantName text = "Self" ↔ Naming.typeName text = "Self" := by
  unfold textVariantName
  split
  · next empty =>
    rw [String.isEmpty_iff.mp empty]
    decide
  · rfl

/-- No variant by version is called Self. -/
theorem self_notMem_versionsOf {branches : List Schema} {types : List ValueType} {index : Nat} :
    "Self" ∉ (versionsOf index branches types).map Prod.fst := by
  induction branches generalizing index types with
  | nil => exact nofun
  | cons branch rest inductionHypothesis =>
    cases types with
    | nil => exact nofun
    | cons type types =>
      rw [versionsOf, List.map_cons, List.mem_cons]
      rintro (same | later)
      · have first := congrArg (fun name => name.toList.head?) same
        rw [String.toList_append] at first
        cases first
      · exact inductionHypothesis later

/-- A variant for a text is called Self exactly if one of the texts gives that name. -/
theorem self_mem_textVariants_iff (texts : List String) :
    "Self" ∈ (textVariants [] texts).map Prod.fst ↔
      NamesVariant "Self" (.enumeration (.texts (textVariants [] texts))) := by
  have unmarked (base : String) (same : base ++ "_" = "Self") : False :=
    Text.not_isUnmarked_append_mark base (same ▸ (by decide : Text.IsUnmarked "Self"))
  have wires : (textVariants [] texts).map Prod.snd = texts := wires_textVariants [] texts
  rw [mem_textVariants_iff unmarked]
  constructor
  · rintro (member | ⟨text, held, named⟩)
    · cases member
    · rw [← wires] at held
      obtain ⟨⟨variant, wire⟩, inside, rfl⟩ := List.mem_map.mp held
      exact .text inside (textVariantName_eq_self_iff.mp named)
  · rintro (⟨inside, named⟩ | _)
    refine Or.inr ⟨_, ?_, textVariantName_eq_self_iff.mpr named⟩
    rw [← wires]
    exact List.mem_map_of_mem inside

/-- A variant for a type is called Self exactly if one of the types is. -/
theorem self_mem_payloadsOf_iff {types : List ValueType}
    (payloads : ∀ type ∈ types, ∀ index,
      payloadName index type.withoutOption = "Self" ↔ type.withoutOption.name? = some "Self") :
    "Self" ∈ (payloadsOf [] types).map Prod.fst ↔
      NamesVariant "Self" (.enumeration (.untagged (payloadsOf [] types))) := by
  have whole : (payloadsOf [] types).map Prod.snd = types := payloadsOf_types [] types
  refine (mem_payloadsOf_iff (append_toString_ne (by decide)) [] payloads).trans ?_
  constructor
  · rintro (member | ⟨type, held, named⟩)
    · cases member
    · rw [← whole] at held
      obtain ⟨⟨variant, other⟩, inside, rfl⟩ := List.mem_map.mp held
      exact .payload inside named
  · rintro (_ | ⟨inside, named⟩)
    refine Or.inr ⟨_, ?_, named⟩
    rw [← whole]
    exact List.mem_map_of_mem inside

/-- A variant is named `Self` exactly if its text or payload is. -/
theorem self_mem_variantNames_iff (made : Made context declared)
    (parts : ∀ part type, (part, type) ∈ declared.parts context →
      Lowered context entries part type.withoutOption) :
    "Self" ∈ declared.subtype.variantNames ↔ NamesVariant "Self" declared.subtype.shape := by
  cases made with
  | choice => exact self_mem_textVariants_iff _
  | «structure» => exact iff_of_false nofun nofun
  | @union schema own types _ _ branches =>
    have payloads : ∀ type ∈ types, ∀ index, payloadName index type.withoutOption = "Self" ↔
        type.withoutOption.name? = some "Self" := by
      intro type member index
      obtain ⟨part, paired⟩ := exists_mem_zip (Nat.le_of_eq branches) member
      refine (parts part type ?_).payloadName_eq_iff (by decide) index
      show (part, type) ∈ schema.nonNullBranches.zip (variantsOf schema types).types
      rw [variantsOf_types branches]
      exact paired
    show "Self" ∈ (variantsOf schema types).names ↔
      NamesVariant "Self" (.enumeration (variantsOf schema types))
    unfold variantsOf
    split
    · exact iff_of_false self_notMem_versionsOf nofun
    · exact self_mem_payloadsOf_iff payloads

end SelfNames

/-! ### Names that can be used -/

/-- The items that the generated source of a request has besides its types: its own and those that
it imports. -/
def moduleItems : List String :=
  ["Request", "RequestBuilder", "Value", "Cow", "BTreeMap", "DateTime", "Utc", "CommaSeparatedList"]

/-- A declared type whose names the generated source can use. -/
structure Usable (subtype : Subtype) : Prop where
  identifier : IsIdentifier subtype.name
  variants : ∀ name ∈ subtype.variantNames, IsIdentifier name
  free : subtype.name ∉ moduleItems

/-- Capitalized names can be used unless one of them is `Self` or that of an item. -/
theorem usable_iff {subtype : Subtype}
    (capitalized : ∀ name ∈ subtype.name :: subtype.variantNames, IsCapitalized name) :
    Usable subtype ↔ subtype.name ∉ "Self" :: moduleItems ∧ "Self" ∉ subtype.variantNames := by
  obtain ⟨own, variants⟩ := List.forall_mem_cons.mp capitalized
  rw [List.mem_cons, not_or]
  constructor
  · intro usable
    refine ⟨⟨own.isIdentifier_iff.mp usable.identifier, usable.free⟩, fun member => ?_⟩
    exact (variants _ member).isIdentifier_iff.mp (usable.variants _ member) rfl
  · rintro ⟨⟨other, free⟩, absent⟩
    refine ⟨own.isIdentifier_iff.mpr other, fun name member => ?_, free⟩
    refine (variants name member).isIdentifier_iff.mpr ?_
    rintro rfl
    exact absent member

/-- Whether the names that a call begins with are in ASCII. -/
def Call.Ascii : Call → Prop
  | single schema hint => AsciiNames schema ∧ IsAscii hint
  | fields schema owner => AsciiNames schema ∧ IsAscii owner
  | binding parameter _ => AsciiNames (parameterSchema parameter) ∧ IsAscii parameter.name

section Usable

variable {context : Context} {state after : State} {calls : List Call}

theorem Call.Ascii.isGiven {call : Call} (components : AsciiComponents context)
    (ascii : call.Ascii) :
    call.IsGiven context fun schema hint => AsciiNames schema ∧ IsAscii hint := by
  cases call with
  | single => exact ascii
  | binding => exact ascii
  | fields schema owner =>
    obtain ⟨own, ownerAscii⟩ := ascii
    intro whole merged property held
    have wholeAscii := asciiNames_of_wholeOf components own merged
    have isPart := Schema.mem_parts.mpr (Or.inr (Or.inl ⟨property, held, rfl⟩))
    exact ⟨wholeAscii.of_mem_parts isPart,
      isAscii_propertyHint ownerAscii (wholeAscii.here.properties property held)⟩

/-- After calls that all succeed and begin with ASCII, all names are capitalized. -/
theorem Completes.allGiven (components : AsciiComponents context)
    (ascii : ∀ call ∈ calls, call.Ascii)
    (all : AllGiven (fun schema hint => AsciiNames schema ∧ IsAscii hint) IsCapitalized state)
    (completes : Completes context state calls after) :
    AllGiven (fun schema hint => AsciiNames schema ∧ IsAscii hint) IsCapitalized after := by
  induction completes with
  | nil => exact all
  | cons _ _ inductionHypothesis =>
    obtain ⟨first, others⟩ := List.forall_mem_cons.mp ascii
    exact inductionHypothesis others
      (all.call (supplies_isCapitalized components) (first.isGiven components))

theorem Call.Succeeds.extend {roots : List (Schema × ValueType)} {call : Call}
    (run : Lowering.Succeeds context roots state) (succeeds : call.Succeeds context state) :
    ∃ more, Lowering.Succeeds context more (call.after context state) := by
  cases call with
  | single schema hint =>
    obtain ⟨type, returned⟩ := succeeds
    exact ⟨_, run.single (Prod.ext returned rfl)⟩
  | fields schema owner =>
    obtain ⟨fields, returned⟩ := succeeds
    have ran : lowerFields context schema owner state =
        (.ok fields, (Call.fields schema owner).after context state) := Prod.ext returned rfl
    rcases lowerFields_calls ran with ⟨_, _, failed, _⟩ | ⟨whole, _, merged, _, _⟩
    · cases failed
    · exact ⟨_, run.fields ran merged⟩
  | binding parameter scope =>
    obtain ⟨binding, returned⟩ := succeeds
    exact ⟨_, run.binding (Prod.ext returned rfl)⟩

/-- Calls that all succeed make a run that succeeds. -/
theorem Completes.succeeds {roots : List (Schema × ValueType)}
    (run : Lowering.Succeeds context roots state) (completes : Completes context state calls after) :
    ∃ more, Lowering.Succeeds context more after := by
  induction completes generalizing roots with
  | nil => exact ⟨roots, run⟩
  | cons succeeds _ inductionHypothesis =>
    obtain ⟨more, further⟩ := succeeds.extend run
    exact inductionHypothesis further

/-- After calls that all succeed, a name without a number is that of a declared type exactly if it
was asked for. -/
theorem Completes.exists_subtype_iff {name : String} (unnumbered : Unnumbered name)
    (completes : Completes context {} calls state) :
    (∃ subtype ∈ state.subtypes, subtype.name = name) ↔ CallsAskFor context name {} calls := by
  obtain ⟨_, run⟩ := completes.succeeds .initial
  have used := completes.mem_names_iff unnumbered .initial
  rw [State.names_eq, run.settled.idle] at used
  simpa [State.subtypes, State.names_eq] using used

/-- The names that cannot be used have no number at the end. -/
theorem unnumbered_of_mem {name : String} (member : name ∈ "Self" :: moduleItems) :
    Unnumbered name := by
  have each : ∀ name ∈ "Self" :: moduleItems,
      name.toList.getLast?.all (fun character => !character.isDigit) = true := by decide
  exact unnumbered_of_getLast? (each name member)

/-- The names in generated types are made of letters, digits and marks after an uppercase letter if
the names of the API are in ASCII. They can be used if and only if no type was asked for under
`Self` or the name of an item of the source, and no text or payload of a variant is named `Self`. -/
theorem names_usable_iff (components : AsciiComponents context)
    (ascii : ∀ call ∈ calls, call.Ascii) (completes : Completes context {} calls state) :
    (∀ subtype ∈ state.subtypes, ∀ name ∈ subtype.name :: subtype.variantNames,
        IsCapitalized name) ∧
      ((∀ subtype ∈ state.subtypes, Usable subtype) ↔
        (∀ name ∈ "Self" :: moduleItems, ¬ CallsAskFor context name {} calls) ∧
          ∀ subtype ∈ state.subtypes, ¬ NamesVariant "Self" subtype.shape) := by
  obtain ⟨_, run⟩ := completes.succeeds .initial
  have sound := run.settled.sound
  have given := completes.allGiven components ascii fun _ member => absurd member List.not_mem_nil
  have capitalized : ∀ declared ∈ state.declared,
      ∀ name ∈ declared.subtype.name :: declared.subtype.variantNames, IsCapitalized name := by
    intro declared member
    obtain ⟨own, ⟨_, origin, -⟩, members⟩ := given declared member
    exact List.forall_mem_cons.mpr
      ⟨own, isCapitalized_variantNames (sound declared member).1 origin.here members⟩
  have usable : ∀ declared ∈ state.declared, Usable declared.subtype ↔
      declared.subtype.name ∉ "Self" :: moduleItems ∧
        ¬ NamesVariant "Self" declared.subtype.shape := by
    intro declared member
    obtain ⟨made, parts⟩ := sound declared member
    rw [usable_iff (capitalized declared member), self_mem_variantNames_iff made parts]
  unfold State.subtypes
  simp only [List.forall_mem_map]
  refine ⟨capitalized, fun all => ⟨fun name isItem asked => ?_, fun declared member => ?_⟩, ?_⟩
  · obtain ⟨_, held, rfl⟩ := (completes.exists_subtype_iff (unnumbered_of_mem isItem)).mpr asked
    obtain ⟨declared, member, rfl⟩ := List.mem_map.mp held
    exact ((usable declared member).mp (all declared member)).1 isItem
  · exact ((usable declared member).mp (all declared member)).2
  · rintro ⟨unasked, bare⟩ declared member
    refine (usable declared member).mpr ⟨fun isItem => ?_, bare declared member⟩
    exact unasked _ isItem ((completes.exists_subtype_iff (unnumbered_of_mem isItem)).mp
      ⟨_, List.mem_map_of_mem member, rfl⟩)

end Usable

/-- A link with one address. -/
def hrefSchema : Schema where
  type := some (.single "object")
  properties := [("href", .ofType "string")]

/-- The state once the link was lowered under a hint. -/
def hrefState (hint : String) : State := Call.after emptyContext {} (.single hrefSchema hint)

theorem hrefSchema_ascii : AsciiNames hrefSchema := by
  refine Schema.forall_holds_iff.mpr ⟨⟨by decide, by decide, by decide, by decide⟩, ?_⟩
  intro part member
  have same : part = .ofType "string" := by simpa [Schema.parts, hrefSchema] using member
  subst same
  exact Schema.forall_holds_iff.mpr ⟨⟨by decide, by decide, by decide, by decide⟩,
    fun part member => absurd member List.not_mem_nil⟩

theorem emptyContext_ascii : AsciiComponents emptyContext := by
  intro name target found
  cases found

/-- The only call succeeds if it gives the link a type. -/
theorem hrefState_completes {hint name : String}
    (returned : (lower emptyContext hrefSchema hint {}).1.toOption = some (.named name)) :
    Completes emptyContext {} [.single hrefSchema hint] (hrefState hint) :=
  .cons ⟨_, congrArg Prod.fst (run_of_toOption returned)⟩ .nil

theorem names_usable_iff_links :
    (∀ subtype ∈ (hrefState "links").subtypes, Usable subtype) ∧
      ∀ name ∈ "Self" :: moduleItems,
        ¬ CallsAskFor emptyContext name {} [.single hrefSchema "links"] := by
  have links : (lower emptyContext hrefSchema "links" {}).1.toOption = some (.named "Links") := by
    decide +kernel
  have completes : Completes emptyContext {} [.single hrefSchema "links"] (hrefState "links") :=
    hrefState_completes links
  have ascii : ∀ call ∈ [Call.single hrefSchema "links"], call.Ascii :=
    List.forall_mem_singleton.mpr ⟨hrefSchema_ascii, by decide⟩
  obtain ⟨capitalized, exact⟩ := names_usable_iff emptyContext_ascii ascii completes
  have usable : ∀ subtype ∈ (hrefState "links").subtypes, Usable subtype := by
    have free : ∀ subtype ∈ (hrefState "links").subtypes,
        subtype.name ∉ "Self" :: moduleItems ∧ "Self" ∉ subtype.variantNames := by decide +kernel
    exact fun subtype member => (usable_iff (capitalized subtype member)).mpr (free subtype member)
  exact ⟨usable, (exact.mp usable).1⟩

/-- Two hints in ASCII under which a type gets a name that cannot be used: a keyword and the name of
the request itself. -/
theorem names_not_usable :
    AsciiComponents emptyContext ∧ AsciiNames hrefSchema ∧
      ∀ named ∈ [("self", "Self"), ("request", "Request")], IsAscii named.1 ∧
        Completes emptyContext {} [.single hrefSchema named.1] (hrefState named.1) ∧
          (hrefState named.1).subtypes.map Subtype.name = [named.2] ∧
            ¬ ∀ subtype ∈ (hrefState named.1).subtypes, Usable subtype := by
  refine ⟨emptyContext_ascii, hrefSchema_ascii, fun named given => ?_⟩
  have returned : (lower emptyContext hrefSchema named.1 {}).1.toOption = some (.named named.2) ∧
      IsAscii named.1 ∧ (hrefState named.1).subtypes.map Subtype.name = [named.2] ∧
        ∀ subtype ∈ (hrefState named.1).subtypes,
          (∀ name ∈ subtype.name :: subtype.variantNames, IsCapitalized name) ∧
            subtype.name ∈ "Self" :: moduleItems := by
    revert named
    decide +kernel
  obtain ⟨ran, ascii, names, reserved⟩ := returned
  refine ⟨ascii, hrefState_completes ran, names, fun usable => ?_⟩
  obtain ⟨subtype, member, -⟩ : ∃ subtype ∈ (hrefState named.1).subtypes, subtype.name = named.2 :=
    List.mem_map.mp (names ▸ List.mem_singleton.mpr rfl)
  obtain ⟨capitalized, isItem⟩ := reserved subtype member
  exact ((usable_iff capitalized).mp (usable subtype member)).1 isItem

end ServiceForge.Lowering
