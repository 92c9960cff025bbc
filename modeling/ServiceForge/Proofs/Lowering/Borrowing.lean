/-
This file proves that the lifetime of a generated type is right wherever it is
written: a type is written with the lifetime exactly when text lies in it, and the
declaration of a type carries it together with all uses. The names in types come from
the names of the API without their symbols, so none of them looks like a lifetime.
-/

import ServiceForge.Proofs.Lowering.GivenNames
import ServiceForge.Proofs.Lowering.Search
import ServiceForge.Proofs.Text.Words
import ServiceForge.Sdk.Source

namespace ServiceForge.Lowering

open ServiceForge.OpenApi (Parameter Schema)
open ServiceForge.Text (isAlphanum_of_mem_toString isSymbol)

/-! ### Names of types -/

/-- The names that a lowering can give to a type. -/
def IsTypeName (name : String) : Prop :=
  ∃ hint index, name = candidate (Naming.typeName hint) index

theorem isTypeName_typeName (hint : String) : IsTypeName (Naming.typeName hint) :=
  ⟨hint, 0, (if_pos rfl).symm⟩

theorem notMem_of_isTypeName {name : String} {character : Char}
    (symbol : isSymbol character = true) (named : IsTypeName name) : character ∉ name.toList := by
  obtain ⟨hint, index, rfl⟩ := named
  have plain := Naming.notMem_typeName symbol hint
  unfold candidate
  split
  · exact plain
  · rw [String.toList_append, List.mem_append]
    rintro (inName | inNumber)
    · exact plain inName
    · simp [isSymbol, isAlphanum_of_mem_toString inNumber] at symbol

/-! ### Types that a lowering gives -/

/-- Whether all names in a type are ones that a type can have. -/
def Named (type : ValueType) : Prop := type.Names IsTypeName

/-- Every schema gives such names, whatever its lowering leads to. -/
theorem supplies_isTypeName (context : Context) : Supplies context (fun _ _ => True) IsTypeName where
  leads _ _ := trivial
  forward _ _ := isTypeName_typeName _
  candidate _ index := ⟨_, index, rfl⟩

theorem Call.isGiven_anywhere (context : Context) (call : Call) :
    call.IsGiven context fun _ _ => True := by
  cases call with
  | single => trivial
  | fields => exact fun _ _ _ _ => trivial
  | binding => trivial

theorem Reachable.allGiven {context : Context} {state : State}
    (reachable : Reachable context state) : AllGiven (fun _ _ => True) IsTypeName state := by
  induction reachable with
  | initial => exact fun _ member => absurd member List.not_mem_nil
  | call call _ inductionHypothesis =>
    exact inductionHypothesis.call (supplies_isTypeName context) (call.isGiven_anywhere context)

/-- The types that were given or declared by the calls so far. -/
inductive Produces (context : Context) : State → ValueType → Prop
  | single {state after : State} {schema : Schema} {hint : String} {type : ValueType} :
      Reachable context state → lower context schema hint state = (.ok type, after) →
        Produces context after type
  | field {state after : State} {schema : Schema} {owner : String} {fields : List Field}
      {field : Field} :
      Reachable context state → lowerFields context schema owner state = (.ok fields, after) →
        field ∈ fields → Produces context after field.type
  | binding {state after : State} {parameter : Parameter} {scope : Scope} {binding : Binding} :
      Reachable context state →
        lowerParameter context parameter scope state = (.ok binding, after) →
          Produces context after binding.type
  | member {state : State} {subtype : Subtype} {type : ValueType} :
      Reachable context state → subtype ∈ state.subtypes → type ∈ subtype.memberTypes →
        Produces context state type
  | declared {state : State} {subtype : Subtype} :
      Reachable context state → subtype ∈ state.subtypes →
        Produces context state (.named subtype.name)
  | kept {state : State} {type : ValueType} (call : Call) :
      Produces context state type → Produces context (call.after context state) type

theorem Produces.named {context : Context} {state : State} {type : ValueType}
    (produces : Produces context state type) : Named type := by
  have supplies := supplies_isTypeName context
  induction produces with
  | single reachable ran => exact (lower_givesNames supplies trivial reachable.allGiven ran).2
  | @field _ _ schema owner _ field reachable ran member =>
    have isGiven := (Call.fields schema owner).isGiven_anywhere context
    exact (names_fields supplies isGiven reachable.allGiven ran).2 field member
  | binding reachable ran => exact (names_binding supplies trivial reachable.allGiven ran).2
  | member reachable held inside =>
    obtain ⟨declared, member, rfl⟩ := List.mem_map.mp held
    exact (reachable.allGiven declared member).members _ inside
  | declared reachable held =>
    obtain ⟨declared, member, rfl⟩ := List.mem_map.mp held
    exact .single (reachable.allGiven declared member).name
  | kept _ _ inductionHypothesis => exact inductionHypothesis

/-! ### Texts of types -/

/-- Whether a text mentions the lifetime. -/
def MentionsLifetime (text : String) : Prop := ['\x27', 'a'] <:+: text.toList

theorem MentionsLifetime.wrap {inner : String} (mentions : MentionsLifetime inner)
    (before after : String) : MentionsLifetime (before ++ inner ++ after) := by
  obtain ⟨left, right, whole⟩ := mentions
  refine ⟨before.toList ++ left, right ++ after.toList, ?_⟩
  simp only [String.toList_append, ← whole, List.append_assoc]

theorem MentionsLifetime.apostrophe {text : String} (mentions : MentionsLifetime text) :
    '\x27' ∈ text.toList :=
  mentions.subset List.mem_cons_self

theorem notMem_wrap {inner before after : String} (left : '\x27' ∉ before.toList)
    (absent : '\x27' ∉ inner.toList) (right : '\x27' ∉ after.toList) :
    '\x27' ∉ (before ++ inner ++ after).toList := by
  simp only [String.toList_append, List.mem_append]
  rintro ((first | middle) | last)
  · exact left first
  · exact absent middle
  · exact right last

section Rendering

variable {types : Types}

theorem mentionsLifetime_of_borrows (sdk : types.dialect = .sdk) {type : ValueType}
    (borrows : types.borrows type = true) : MentionsLifetime (types.render type) := by
  induction type with
  | text =>
    rw [Types.render, sdk]
    exact ⟨"Cow<".toList, ", str>".toList, by decide⟩
  | list _ inductionHypothesis => exact (inductionHypothesis borrows).wrap _ _
  | commaSeparated _ inductionHypothesis =>
    rw [Types.render, sdk]
    exact (inductionHypothesis borrows).wrap _ _
  | map _ inductionHypothesis =>
    rw [Types.render, sdk]
    exact (inductionHypothesis borrows).wrap _ _
  | optional _ inductionHypothesis => exact (inductionHypothesis borrows).wrap _ _
  | boxed _ inductionHypothesis => exact (inductionHypothesis borrows).wrap _ _
  | named name =>
    rw [Types.render, if_pos borrows]
    refine ⟨name.toList ++ ['<'], ['>'], ?_⟩
    simp
  | _ => simp [Types.borrows, ValueType.search] at borrows

theorem notMem_render (sdk : types.dialect = .sdk) {type : ValueType} (named : Named type)
    (owned : types.borrows type ≠ true) : '\x27' ∉ (types.render type).toList := by
  induction type with
  | text => simp [Types.borrows, ValueType.search, sdk] at owned
  | list _ inductionHypothesis =>
    exact notMem_wrap (by decide) (inductionHypothesis named owned) (by decide)
  | commaSeparated _ inductionHypothesis =>
    rw [Types.render, sdk]
    exact notMem_wrap (by decide) (inductionHypothesis named owned) (by decide)
  | map _ inductionHypothesis =>
    rw [Types.render, sdk]
    exact notMem_wrap (by decide) (inductionHypothesis named owned) (by decide)
  | optional _ inductionHypothesis =>
    exact notMem_wrap (by decide) (inductionHypothesis named owned) (by decide)
  | boxed _ inductionHypothesis =>
    exact notMem_wrap (by decide) (inductionHypothesis named owned) (by decide)
  | named name =>
    rw [Types.render, if_neg owned]
    exact notMem_of_isTypeName (by decide) (named name List.mem_cons_self)
  | dateTime =>
    rw [Types.render, sdk]
    decide
  | _ =>
    rw [Types.render]
    decide

/-- A type is written with the lifetime exactly when it borrows. -/
theorem mentionsLifetime_iff (sdk : types.dialect = .sdk) {type : ValueType} (named : Named type) :
    MentionsLifetime (types.render type) ↔ types.borrows type = true := by
  refine ⟨fun mentions => ?_, mentionsLifetime_of_borrows sdk⟩
  by_contra owned
  exact notMem_render sdk named owned mentions.apostrophe

/-- The first line of a declaration names the type as its uses do. -/
theorem heading_mem_subtypeLines (sdk : types.dialect = .sdk) {subtype : Subtype}
    (declared : types.subtype? subtype.name = some subtype) :
    ∃ keyword ∈ ["pub struct ", "pub enum "],
      keyword ++ types.render (.named subtype.name) ++ " \x7b" ∈
        Sdk.subtypeLines types subtype := by
  have same : types.render (.named subtype.name) =
      subtype.name ++ Sdk.lifetime (types.subtypeBorrows subtype) := by
    rw [subtypeBorrows_eq sdk declared, Types.render, Sdk.lifetime]
    split <;> simp
  rw [same]
  unfold Sdk.subtypeLines
  cases shape : subtype.shape with
  | «structure» fields additional =>
    refine ⟨"pub struct ", by simp, ?_⟩
    rw [← String.append_assoc]
    simp
  | enumeration variants =>
    refine ⟨"pub enum ", by simp, ?_⟩
    rw [← String.append_assoc]
    cases variants with
    | texts variants =>
      have owned : types.subtypeBorrows subtype = false := by
        simp [Types.subtypeBorrows, Subtype.memberTypes, shape, Variants.types, searchTypes]
      simp [Sdk.variantLines, owned, Sdk.lifetime]
    | versioned variants => simp [Sdk.variantLines]
    | untagged variants => simp [Sdk.variantLines]

end Rendering

/-- In every state that callers reach, a type borrows exactly when text lies in it, however the
declared types lead to each other; a type that was given or declared is written with the lifetime
exactly when it borrows; and a declared type borrows exactly when its name does, so that its
declaration begins with the same text as stands for the type elsewhere. -/
theorem borrowing_of_reachable {context : Context} {state : State}
    (sdk : context.dialect = .sdk) (reachable : Reachable context state) :
    (∀ type, (Types.ofState context state).borrows type = true ↔
      Relation.ReflTransGen (Descends (Types.ofState context state)) type .text) ∧
    (∀ type, Produces context state type →
      (MentionsLifetime ((Types.ofState context state).render type) ↔
        (Types.ofState context state).borrows type = true)) ∧
    ∀ subtype ∈ state.subtypes,
      (Types.ofState context state).subtypeBorrows subtype =
          (Types.ofState context state).borrows (.named subtype.name) ∧
        ∃ keyword ∈ ["pub struct ", "pub enum "],
          keyword ++ (Types.ofState context state).render (.named subtype.name) ++ " \x7b" ∈
            Sdk.subtypeLines (Types.ofState context state) subtype := by
  refine ⟨borrows_iff sdk, fun type produces => mentionsLifetime_iff sdk produces.named, ?_⟩
  intro subtype member
  have declared : (Types.ofState context state).subtype? subtype.name = some subtype := by
    obtain ⟨declared, held, rfl⟩ := List.mem_map.mp member
    have found := reachable.tidy.find?_declared held
    show (state.declared.map Declared.subtype).find? _ = _
    rw [List.find?_map]
    exact congrArg (Option.map Declared.subtype) found
  exact ⟨subtypeBorrows_eq sdk declared, heading_mem_subtypeLines sdk declared⟩

/-- Two components that hold each other, of which the second one holds text. -/
def circularContext : Context where
  dialect := .sdk
  spec := {
    version := "3.1.0"
    components := {
      schemas := [
        ("A", { properties := [("b", refersTo "B"), ("c", .ofType "integer")] }),
        ("B", { properties := [("a", refersTo "A"), ("d", .ofType "string")] })] } }

/-- The state once the first of the two components was lowered. -/
def circularState : State := Call.after circularContext {} (.single (refersTo "A") "A")

theorem borrowing_of_reachable_circular :
    circularState.subtypes.map Subtype.name = ["B", "A"] ∧
      Relation.ReflTransGen (Descends (Types.ofState circularContext circularState))
        (.named "A") .text := by
  have reachable : Reachable circularContext circularState :=
    .call (.single (refersTo "A") "A") .initial
  have exact := (borrowing_of_reachable rfl reachable).1 (.named "A")
  exact ⟨by decide +kernel, exact.mp (by decide +kernel)⟩

end ServiceForge.Lowering
