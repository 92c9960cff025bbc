/-
This file proves that the imports cover what is written. The paths that a type is
written with are imported with the type or before it, and imports are never taken
back; each word in the text of a type is known without an import, names a declared type
or ends an imported path.
-/

import ServiceForge.Proofs.Lowering.Active
import ServiceForge.Proofs.Lowering.Borrowing

namespace ServiceForge.Lowering

open ServiceForge.OpenApi (Parameter Schema)
open ServiceForge.Text (isSymbol)

/-! ### The paths of a type -/

/-- The paths that a type is written with. -/
def ValueType.paths (context : Context) : ValueType → List String
  | text => importsIn context [.sdk] [Import.borrowedText]
  | dateTime => importsIn context [.sdk, .cliRequest] [Import.dateTime, Import.timeZone]
  | json => [Import.json]
  | list item => paths context item
  | commaSeparated item =>
    importsIn context [.sdk] [Import.commaSeparatedList] ++ paths context item
  | map value => importsIn context [.sdk, .cli] [Import.map] ++ paths context value
  | optional inner => paths context inner
  | boxed inner => paths context inner
  | _ => []

/-- Some paths are imported from one state to the other, and no import is taken back. -/
def Grows (state after : State) : Prop :=
  ∃ paths, after.imports = SortedSet.insertAll paths state.imports

/-- Whether the paths of a type are imported. -/
def Imported (context : Context) (state : State) (type : ValueType) : Prop :=
  type.paths context ⊆ state.imports

/-- Whether the paths of all types in the declared types are imported. -/
def AllImported (context : Context) (state : State) : Prop :=
  ∀ declared ∈ state.declared, ∀ type ∈ declared.subtype.memberTypes, Imported context state type

section Paths

variable {context : Context} {state after : State}

@[simp] theorem paths_optionalIf (condition : Bool) (type : ValueType) :
    (optionalIf condition type).paths context = type.paths context := by
  unfold optionalIf
  split
  · cases type <;> rfl
  · rfl

theorem addImports_eq (state : State) (paths : List String) :
    state.addImports paths =
      { state with imports := SortedSet.insertAll paths state.imports } := by
  induction paths generalizing state with
  | nil => rfl
  | cons path rest inductionHypothesis => exact inductionHypothesis (state.addImport path)

/-- Added imports join those that are there. -/
theorem mem_addImports {paths : List String} {path : String} :
    path ∈ (state.addImports paths).imports ↔ path ∈ paths ∨ path ∈ state.imports := by
  rw [addImports_eq, SortedSet.mem_insertAll]

namespace Grows

theorem refl (state : State) : Grows state state := ⟨[], rfl⟩

theorem trans {middle : State} (first : Grows state middle) (second : Grows middle after) :
    Grows state after := by
  obtain ⟨paths, imports⟩ := first
  obtain ⟨others, same⟩ := second
  refine ⟨paths ++ others, ?_⟩
  rw [same, imports]
  exact (List.foldl_append).symm

theorem addImports (grows : Grows state after) (paths : List String) :
    Grows state (after.addImports paths) :=
  grows.trans ⟨paths, by rw [addImports_eq]⟩

theorem subset (grows : Grows state after) : state.imports ⊆ after.imports := by
  obtain ⟨paths, imports⟩ := grows
  intro path member
  rw [imports]
  exact SortedSet.mem_insertAll.mpr (Or.inr member)

end Grows

theorem Imported.congr {first second : ValueType} (imported : Imported context state first)
    (same : second.paths context = first.paths context) : Imported context state second :=
  fun _ member => imported (same ▸ member)

/-- What is imported stays so while imports are added. -/
theorem Imported.mono {type : ValueType} (imported : Imported context state type)
    (grows : state.imports ⊆ after.imports) : Imported context after type :=
  fun _ member => grows (imported member)

theorem Imported.map {type : ValueType} (imported : Imported context state type) :
    Imported context (state.addImports [Import.map]) (.map type) := by
  intro path member
  refine mem_addImports.mpr ((List.mem_append.mp member).imp (fun own => ?_) fun inner => ?_)
  · unfold importsIn at own
    split at own
    · exact own
    · cases own
  · exact imported inner

/-- A leaf imports its own paths. -/
theorem Leaf.imported {schema : Schema} {type : ValueType} {paths : List String}
    (leaf : Leaf context schema type paths) : type.paths context ⊆ paths := by
  cases leaf with
  | integer =>
    split <;> exact List.nil_subset _
  | number =>
    split <;> exact List.nil_subset _
  | choice _ other =>
    have none : ValueType.text.paths context = [] := if_neg (by simpa using other)
    rw [none]
    exact List.nil_subset _
  | _ => exact List.Subset.refl _

/-- What a type is wrapped in is imported with it. -/
theorem Inner.imported {schema part : Schema} {hint partHint : String}
    {wrap : ValueType → ValueType} {paths : List String} {type : ValueType}
    (inner : Inner context schema hint part partHint wrap paths)
    (imported : Imported context state type) :
    Imported context (state.addImports paths) (wrap type) := by
  cases inner with
  | branch => exact imported.congr (paths_optionalIf _ type)
  | items => exact imported
  | values _ _ shown =>
    intro path member
    refine mem_addImports.mpr ((List.mem_append.mp member).imp (fun own => ?_) fun inside => ?_)
    · -- The other dialect that writes maps by that name shows none.
      simpa [importsIn, shown] using own
    · exact imported inside

/-! ### Declared types -/

/-- Declared types stay imported while imports are added. -/
theorem AllImported.grow (all : AllImported context state)
    (declared : after.declared = state.declared) (grows : Grows state after) :
    AllImported context after := by
  intro held member type inside
  rw [declared] at member
  exact (all held member type inside).mono grows.subset

theorem AllImported.beginType (all : AllImported context state) (name : String)
    (schema : Schema) : AllImported context (beginType name schema state) :=
  all.grow rfl (.refl state)

theorem AllImported.endType (all : AllImported context state) :
    AllImported context (endType state) :=
  all.grow rfl (.refl state)

theorem AllImported.beginComponent (all : AllImported context state) (component : String) :
    AllImported context (beginComponent component state) :=
  all.grow rfl (.refl state)

theorem AllImported.addImports (all : AllImported context state) (paths : List String) :
    AllImported context (state.addImports paths) :=
  all.grow (state.addImports_declared paths) ((Grows.refl state).addImports paths)

/-- A type may be declared once all its members are imported. -/
theorem AllImported.declare (all : AllImported context state) (schema : Schema) {subtype : Subtype}
    (members : ∀ type ∈ subtype.memberTypes, Imported context state type) :
    AllImported context (state.declare schema subtype) := by
  intro declared member
  rcases List.mem_append.mp member with before | new
  · exact all declared before
  · rw [List.mem_singleton.mp new]
    exact members

/-- With the path for maps, the types in a structure are imported if those of its properties and
of its further values are. -/
theorem structureType_imported {schema : Schema} {name : String} {types : List ValueType}
    {extra : Option ValueType} (fields : ∀ type ∈ types, Imported context state type)
    (further : ∀ type ∈ extra, Imported context state type) :
    ∀ type ∈ (structureType context schema name types extra).memberTypes,
      Imported context (state.addImports (if extra.isSome then [Import.map] else [])) type := by
  intro type member
  rcases memberTypes_structureType member with ⟨value, held, condition, rfl⟩ | ⟨value, held, rfl⟩
  · exact ((fields value held).congr (paths_optionalIf condition value)).mono
      ((Grows.refl state).addImports _).subset
  · cases held
    exact (further value rfl).map

end Paths

/-! ### Every lowering imports what it gives -/

/-- What a computation does that imports the paths of the types that it gives. -/
structure Covers (context : Context) (state : State) {α : Type} (P : State → α → Prop)
    (result : Except GenerationError α) (after : State) : Prop where
  grows : Grows state after
  members : AllImported context after
  returns : Returns (P after) result

/-- What is asked of a way to lower the schemas inside a schema. -/
def Imports (context : Context) (recur : Recur) : Prop :=
  ∀ {schema : Schema} {hint : String} {state after : State}
    {result : Except GenerationError ValueType},
    AllImported context state → recur schema hint state = (result, after) →
      Covers context state (Imported context) result after

section Imports

variable {context : Context} {recur : Recur} {schema : Schema} {hint name : String}
  {state after : State}

/-- Lowerings one after another import what all their types need. -/
theorem Imports.calls (imports : Imports context recur) {calls : List (Schema × String)}
    {result : Except GenerationError (List ValueType)} (all : AllImported context state)
    (ran : Calls recur calls state result after) :
    Covers context state (fun after types => ∀ type ∈ types, Imported context after type)
      result after := by
  induction ran with
  | nil => exact ⟨.refl _, all, fun type member => by cases member⟩
  | cons first _ inductionHypothesis =>
    obtain ⟨growsFirst, allMiddle, single⟩ := imports all first
    obtain ⟨growsRest, allAfter, rest⟩ := inductionHypothesis allMiddle
    exact ⟨growsFirst.trans growsRest, allAfter,
      List.forall_mem_cons.mpr ⟨Imported.mono single growsRest.subset, rest⟩⟩
  | here first =>
    obtain ⟨grows, allAfter, -⟩ := imports all first
    exact ⟨grows, allAfter, trivial⟩
  | later first _ inductionHypothesis =>
    obtain ⟨growsFirst, allMiddle, -⟩ := imports all first
    obtain ⟨growsRest, allAfter, -⟩ := inductionHypothesis allMiddle
    exact ⟨growsFirst.trans growsRest, allAfter, trivial⟩

/-- Additional properties import what their type needs. -/
theorem Imports.extra (imports : Imports context recur)
    {result : Except GenerationError (Option ValueType)} (all : AllImported context state)
    (ran : Extra recur schema name state result after) :
    Covers context state (fun after further => ∀ type ∈ further, Imported context after type)
      result after := by
  cases ran with
  | each _ inside =>
    obtain ⟨grows, allAfter, single⟩ := imports all inside
    exact ⟨grows, allAfter, fun type same => Option.some.inj same ▸ single⟩
  | failed _ inside =>
    obtain ⟨grows, allAfter, -⟩ := imports all inside
    exact ⟨grows, allAfter, trivial⟩
  | free =>
    refine ⟨(Grows.refl _).addImports _, all.addImports _, ?_⟩
    rintro type same path member
    cases same
    exact mem_addImports.mpr (Or.inl member)
  | closed => exact ⟨.refl _, all, fun type same => by cases same⟩

/-- A schema without references and parts imports what its type needs. -/
theorem Imports.plain (imports : Imports context recur)
    {result : Except GenerationError ValueType} (all : AllImported context state)
    (ran : Plain context recur schema hint state result after) :
    Covers context state (Imported context) result after := by
  cases ran with
  | leaf leaf =>
    exact ⟨(Grows.refl _).addImports _, all.addImports _,
      fun _ member => mem_addImports.mpr (Or.inl (leaf.imported member))⟩
  | unknown => exact ⟨.refl _, all, trivial⟩
  | inner inner inside =>
    obtain ⟨grows, allAfter, single⟩ := imports all inside
    exact ⟨grows.addImports _, allAfter.addImports _,
      inner.imported single⟩
  | innerFailed _ inside =>
    obtain ⟨grows, allAfter, -⟩ := imports all inside
    exact ⟨grows, allAfter, trivial⟩
  | existing => exact ⟨.refl _, all, List.nil_subset _⟩
  | forward => exact ⟨.refl _, all, List.nil_subset _⟩
  | forwardChoice => exact ⟨.refl _, all, List.nil_subset _⟩
  | choice =>
    exact ⟨.refl _, all.declare schema (fun type member => by cases member),
      List.nil_subset _⟩
  | «structure» _ _ _ fields further =>
    obtain ⟨growsFields, allMiddle, inFields⟩ := imports.calls (all.beginType _ _) fields
    obtain ⟨growsFurther, allLast, inFurther⟩ := imports.extra allMiddle further
    have grows : Grows state (endType _) := growsFields.trans growsFurther
    refine ⟨grows.addImports _, (allLast.endType.addImports _).declare schema ?_, List.nil_subset _⟩
    exact structureType_imported (fun type held => (inFields type held).mono growsFurther.subset)
      inFurther
  | structureFailed _ _ _ fields further =>
    obtain ⟨growsFields, allMiddle, -⟩ := imports.calls (all.beginType _ _) fields
    obtain ⟨growsFurther, allLast, -⟩ := imports.extra allMiddle further
    exact ⟨growsFields.trans growsFurther, allLast.endType, trivial⟩
  | union _ _ _ variants =>
    obtain ⟨grows, allLast, inVariants⟩ := imports.calls (all.beginType _ _) variants
    have branches := variants.length.trans (length_variantCalls schema _)
    refine ⟨grows, allLast.endType.declare schema ?_, ?_⟩
    · rw [memberTypes_unionType _ branches]
      exact inVariants
    · exact Imported.congr (List.nil_subset _) (paths_optionalIf _ _)
  | unionFailed _ _ _ variants =>
    obtain ⟨grows, allLast, -⟩ := imports.calls (all.beginType _ _) variants
    exact ⟨grows, allLast.endType, trivial⟩

/-- One step imports what its type needs if what it asks for does. -/
theorem Imports.step (imports : Imports context recur)
    {result : Except GenerationError ValueType} (all : AllImported context state)
    (ran : Step context recur schema hint state result after) :
    Covers context state (Imported context) result after := by
  cases ran with
  | forward => exact ⟨.refl _, all, List.nil_subset _⟩
  | missing => exact ⟨.refl _, all, trivial⟩
  | component _ _ _ _ inside =>
    obtain ⟨grows, allAfter, single⟩ := imports (all.beginComponent _) inside
    exact ⟨grows, allAfter.grow rfl (.refl _), single⟩
  | foreign =>
    exact ⟨(Grows.refl _).addImports _, all.addImports _,
      fun _ member => mem_addImports.mpr (Or.inl member)⟩
  | unmerged => exact ⟨.refl _, all, trivial⟩
  | merged _ _ _ inside => exact imports all inside
  | plain _ _ inside =>
    obtain ⟨grows, allAfter, single⟩ := imports.plain all inside
    exact ⟨grows, allAfter, Imported.congr single (paths_optionalIf _ _)⟩
  | plainFailed _ _ inside => exact imports.plain all inside

/-- Lowering to any depth imports what its types need. -/
theorem lowerWithin_imports (context : Context) (limit : Nat) :
    Imports context (lowerWithin context limit) := by
  refine lowerWithin_induction (P := fun recur => Imports context recur) ?_ ?_ limit
  · intro schema hint state after result all ran
    cases ran
    exact ⟨.refl _, all, trivial⟩
  · intro limit imports schema hint state after result all ran
    exact imports.step all (lowerStep_step ran)

/-- Lowering imports what its types need. -/
theorem lower_imports (context : Context) : Imports context (lower context) :=
  fun all ran => lowerWithin_imports context _ all ran

end Imports

/-! ### Types of the calls so far -/

theorem Reachable.allImported {context : Context} {state : State}
    (reachable : Reachable context state) : AllImported context state :=
  reachable.holds (fun _ member => absurd member List.not_mem_nil)
    (fun all ran => (lower_imports context all ran).members) fun _ paths all => all.addImports paths

theorem Call.runs (context : Context) (state : State) (call : Call) :
    Runs context state (call.after context state) := by
  cases call with
  | single schema hint => exact .single schema hint state .outer
  | fields schema owner => exact .fields schema owner state .outer
  | binding parameter scope => exact .binding parameter scope state

theorem Produces.reachable {context : Context} {state : State} {type : ValueType}
    (produces : Produces context state type) : Reachable context state := by
  induction produces with
  | @single state after schema hint type reachable ran =>
    have left : (Call.single schema hint).after context state = after := congrArg Prod.snd ran
    exact left ▸ reachable.call _
  | @field state after schema owner fields field reachable ran =>
    have left : (Call.fields schema owner).after context state = after := congrArg Prod.snd ran
    exact left ▸ reachable.call _
  | @binding state after parameter scope binding reachable ran =>
    have left : (Call.binding parameter scope).after context state = after := congrArg Prod.snd ran
    exact left ▸ reachable.call _
  | member reachable => exact reachable
  | declared reachable => exact reachable
  | kept call _ inductionHypothesis => exact inductionHypothesis.call call

theorem separated_imported {context : Context} {state : State} {parameter : Parameter}
    {type : ValueType} (imported : Imported context state type) :
    Imported context (state.addImports (bindingImports context parameter type))
      (separated parameter type) := by
  have kept : Imported context (state.addImports (bindingImports context parameter type)) type :=
    imported.mono ((Grows.refl state).addImports _).subset
  cases type with
  | list item =>
    by_cases separate : parameter.isCommaSeparated = true
    · rw [separated, if_pos separate]
      intro path member
      rcases List.mem_append.mp member with own | inner
      · refine mem_addImports.mpr (Or.inl ?_)
        rw [bindingImports, if_pos separate]
        exact own
      · exact kept inner
    · rw [separated, if_neg separate]
      exact kept
  | _ => exact kept

theorem Produces.imported {context : Context} {state : State} {type : ValueType}
    (produces : Produces context state type) : Imported context state type := by
  induction produces with
  | single reachable ran => exact (lower_imports context reachable.allImported ran).returns
  | @field state after schema owner fields field reachable ran member =>
    rcases lowerFields_calls ran with ⟨_, _, failed, _⟩ | ⟨whole, types, _, called, returned⟩
    · cases failed
    cases types with
    | error failure => cases returned
    | ok types =>
      cases returned
      have imported := (Imports.calls (lower_imports context) reachable.allImported called).returns
      obtain ⟨value, held, condition, same⟩ := exists_of_mem_fieldsOf (List.mem_map_of_mem member)
      rw [same]
      exact (imported value held).congr (paths_optionalIf condition value)
  | @binding state after parameter scope binding reachable ran =>
    rw [lowerParameter_run] at ran
    rcases inner : lower context (parameterSchema parameter) parameter.name state
      with ⟨failure | type, middle⟩
    · rw [inner] at ran
      cases ran
    · rw [inner] at ran
      cases ran
      have imported := (lower_imports context reachable.allImported inner).returns
      exact (separated_imported imported).congr (paths_optionalIf _ _)
  | member reachable held inside =>
    obtain ⟨declared, member, rfl⟩ := List.mem_map.mp held
    exact reachable.allImported declared member _ inside
  | declared => exact List.nil_subset _
  | kept call produces inductionHypothesis =>
    exact inductionHypothesis.mono
      ((call.runs _ _).disciplined produces.reachable.tidy).2.imports

/-! ### Words of a text -/

/-- The words of a text: what stands between its symbols. -/
def wordsIn (text : String) : List String :=
  ((text.toList.splitOnP isSymbol).filter (· ≠ [])).map String.ofList

/-- A symbol ends the words before it. -/
theorem wordsIn_append_left {before text : String}
    (ends : before.toList.getLast?.any isSymbol = true) :
    wordsIn (before ++ text) = wordsIn before ++ wordsIn text := by
  obtain ⟨symbol, last, isSymbol⟩ := (Option.any_eq_true _ _).mp ends
  obtain ⟨start, whole⟩ := List.getLast?_eq_some_iff.mp last
  unfold wordsIn
  rw [String.toList_append, whole, List.append_assoc, List.singleton_append,
    List.splitOnP_append_cons start text.toList isSymbol,
    List.splitOnP_append_cons start [] isSymbol]
  simp

/-- A symbol begins no word. -/
theorem wordsIn_append_right {text after : String}
    (begins : after.toList.head?.any isSymbol = true) :
    wordsIn (text ++ after) = wordsIn text ++ wordsIn after := by
  obtain ⟨symbol, first, isSymbol⟩ := (Option.any_eq_true _ _).mp begins
  obtain ⟨rest, whole⟩ := List.head?_eq_some_iff.mp first
  have own := List.splitOnP_append_cons [] rest isSymbol
  rw [List.nil_append] at own
  unfold wordsIn
  rw [String.toList_append, whole, List.splitOnP_append_cons text.toList rest isSymbol, own]
  simp

theorem wordsIn_plain {text : String}
    (plain : ∀ character ∈ text.toList, isSymbol character = false) :
    wordsIn text ⊆ [text] := by
  intro word member
  rw [wordsIn, List.splitOnP_eq_singleton plain] at member
  obtain ⟨letters, held, rfl⟩ := List.mem_map.mp member
  rw [List.mem_singleton.mp (List.mem_filter.mp held).1, String.ofList_toList]
  exact List.mem_singleton.mpr rfl

/-- The words that need no import. -/
def builtIn : List String :=
  ["a", "str", "String", "i32", "i64", "f32", "f64", "bool", "Vec", "Option", "Box"]

/-- Whether a word is built in, one of some names or the end of one of some paths. -/
def Known (paths names : List String) (word : String) : Prop :=
  word ∈ builtIn ∨ word ∈ names ∨ ∃ path ∈ paths, ("::" ++ word).toList <:+ path.toList

instance (paths names : List String) (word : String) : Decidable (Known paths names word) :=
  inferInstanceAs (Decidable (_ ∨ _ ∨ _))

theorem Known.mono {paths more names others : List String} {word : String}
    (known : Known paths names word) (morePaths : paths ⊆ more) (moreNames : names ⊆ others) :
    Known more others word := by
  rcases known with isBuiltIn | isName | ⟨path, member, ends⟩
  · exact Or.inl isBuiltIn
  · exact Or.inr (Or.inl (moreNames isName))
  · exact Or.inr (Or.inr ⟨path, morePaths member, ends⟩)

theorem known_wrap {paths inner names : List String} {before text after : String}
    (inside : ∀ word ∈ wordsIn text, Known inner names word)
    (left : before.toList.getLast?.any isSymbol = true)
    (right : after.toList.head?.any isSymbol = true)
    (around : ∀ word ∈ wordsIn before ++ wordsIn after, Known paths [] word) :
    ∀ word ∈ wordsIn (before ++ text ++ after), Known (paths ++ inner) names word := by
  intro word member
  rw [wordsIn_append_right right, wordsIn_append_left left, List.mem_append, List.mem_append]
    at member
  have outer (held : word ∈ wordsIn before ++ wordsIn after) : Known (paths ++ inner) names word :=
    (around word held).mono (List.subset_append_left _ _) (List.nil_subset _)
  rcases member with (first | own) | last
  · exact outer (List.mem_append_left _ first)
  · exact (inside word own).mono (List.subset_append_right _ _) (List.Subset.refl _)
  · exact outer (List.mem_append_right _ last)

theorem known_wrap_builtIn {paths names : List String} {before text after : String}
    (inside : ∀ word ∈ wordsIn text, Known paths names word)
    (left : before.toList.getLast?.any isSymbol = true)
    (right : after.toList.head?.any isSymbol = true)
    (around : ∀ word ∈ wordsIn before ++ wordsIn after, Known [] [] word) :
    ∀ word ∈ wordsIn (before ++ text ++ after), Known paths names word :=
  known_wrap inside left right around

/-- The words of a type are those of its paths and names, and the built-in ones. -/
theorem known_of_mem_render {context : Context} {state : State} {type : ValueType}
    (named : Named type) :
    ∀ word ∈ wordsIn ((Types.ofState context state).render type),
      Known (type.paths context) type.names word := by
  have dialect : (Types.ofState context state).dialect = context.dialect := rfl
  induction type with
  | text =>
    rw [Types.render, dialect, ValueType.paths, importsIn]
    cases context.dialect <;> decide
  | dateTime =>
    rw [Types.render, dialect, ValueType.paths, importsIn]
    cases context.dialect <;> decide
  | list item inductionHypothesis =>
    exact known_wrap_builtIn (inductionHypothesis named) (by decide) (by decide) (by decide)
  | optional inner inductionHypothesis =>
    exact known_wrap_builtIn (inductionHypothesis named) (by decide) (by decide) (by decide)
  | boxed inner inductionHypothesis =>
    exact known_wrap_builtIn (inductionHypothesis named) (by decide) (by decide) (by decide)
  | commaSeparated item inductionHypothesis =>
    rw [Types.render, dialect, ValueType.paths, importsIn]
    cases context.dialect <;>
      exact known_wrap (inductionHypothesis named) (by decide) (by decide) (by decide)
  | map value inductionHypothesis =>
    rw [Types.render, dialect, ValueType.paths, importsIn]
    cases context.dialect <;>
      exact known_wrap (inductionHypothesis named) (by decide) (by decide) (by decide)
  | named name =>
    have words : wordsIn name ⊆ [name] := wordsIn_plain fun character member => by
      by_contra symbol
      rw [Bool.not_eq_false] at symbol
      exact notMem_of_isTypeName symbol (named name List.mem_cons_self) member
    rw [Types.render]
    split
    · intro word member
      rw [wordsIn_append_right (by decide), List.mem_append] at member
      rcases member with own | lifetime
      · exact Or.inr (Or.inl (words own))
      · exact Or.inl ((by decide : ∀ word ∈ wordsIn "<\x27a>", word ∈ builtIn) word lifetime)
    · exact fun word member => Or.inr (Or.inl (words member))
  | _ =>
    simp only [Types.render, ValueType.paths]
    decide

/-- In every state that callers reach, in each dialect, the imports cover each type that was given
or that stands in a declared type: the paths of what the type is made of are imported, and each
word that it is written with is built in, names a declared type or ends an imported path. -/
theorem imports_cover {context : Context} {state : State} {type : ValueType}
    (produces : Produces context state type) :
    type.paths context ⊆ state.imports ∧
      ∀ word ∈ wordsIn ((Types.ofState context state).render type),
        Known state.imports type.names word :=
  ⟨produces.imported, fun word member =>
    (known_of_mem_render produces.named word member).mono produces.imported (List.Subset.refl _)⟩

/-- A parameter whose values are instants in one text. -/
def instantsParameter : Parameter where
  name := "since"
  location := .query
  explode := some false
  schema := some {
    type := some (.single "array")
    items := some { type := some (.single "string"), format := some "date-time" } }

/-- The state once the parameter and then an integer were lowered. -/
def instantsState : State :=
  Call.after emptyContext (Call.after emptyContext {} (.binding instantsParameter {}))
    (.single (.ofType "integer") "")

theorem imports_cover_instants :
    (Types.ofState emptyContext instantsState).render
        (.optional (.commaSeparated .dateTime)) =
      "Option<CommaSeparatedList<DateTime<Utc>>>" ∧
    [Import.commaSeparatedList, Import.dateTime, Import.timeZone] ⊆ instantsState.imports := by
  have bound : (lowerParameter emptyContext instantsParameter {} {}).1.toOption.map Binding.type =
      some (.optional (.commaSeparated .dateTime)) := by decide +kernel
  rcases ran : lowerParameter emptyContext instantsParameter {} {} with ⟨failure | binding, after⟩
  · rw [ran] at bound
    cases bound
  · rw [ran] at bound
    have given : binding.type = .optional (.commaSeparated .dateTime) := Option.some.inj bound
    have produces : Produces emptyContext instantsState binding.type := by
      have first : Call.after emptyContext {} (.binding instantsParameter {}) = after :=
        congrArg Prod.snd ran
      unfold instantsState
      rw [first]
      exact .kept (.single (.ofType "integer") "") (.binding .initial ran)
    rw [given] at produces
    exact ⟨by decide +kernel, (imports_cover produces).1⟩

end ServiceForge.Lowering
