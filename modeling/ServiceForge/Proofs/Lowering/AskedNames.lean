/-
This file says for which names types are asked while a schema is lowered: each schema that has
a type of its own asks for the name that its hint gives. A search that finds the name in use
goes on with numbers after it. So a name without a number at its end is in use after a lowering
that succeeds exactly if it was in use before or was asked for on the way.
-/

import ServiceForge.Proofs.Lowering.Lowered
import ServiceForge.Proofs.Lowering.Mirroring
import ServiceForge.Proofs.Text.Words

namespace ServiceForge.Lowering

open ServiceForge.OpenApi (Parameter Schema)
open ServiceForge.Text (isDigit_of_mem_toString)

/-! ### Searches for a name -/

/-- A name that no search makes by a number after another name. -/
def Unnumbered (name : String) : Prop := ∀ base index, candidate base index = name → base = name

/-- A name with another character than a digit at its end has no number at its end. -/
theorem append_toString_ne {name : String}
    (last : name.toList.getLast?.all (fun character => !character.isDigit) = true)
    (base : String) (number : Nat) : base ++ toString number ≠ name := by
  rintro rfl
  have filled : (toString number).toList ≠ [] := by simp
  have digit := isDigit_of_mem_toString (List.getLast_mem filled)
  rw [String.toList_append, List.getLast?_append_of_ne_nil _ filled,
    List.getLast?_eq_some_getLast filled, Option.all_some, digit] at last
  cases last

theorem unnumbered_of_getLast? {name : String}
    (last : name.toList.getLast?.all (fun character => !character.isDigit) = true) :
    Unnumbered name := by
  intro base index same
  unfold candidate at same
  split at same
  · exact same
  · exact absurd same (append_toString_ne last base (index + 1))

section Searches

variable {state : State} {hint name : String} {schema : Schema}

/-- The name that a hint gives is in use, or a type gets it. -/
theorem typeName_mem_or_new (state : State) (hint : String) (schema : Schema) :
    Naming.typeName hint ∈ state.names ∨
      claim state hint schema = .new (Naming.typeName hint) := by
  obtain ⟨index, ends, claimed⟩ := claim_endsAt state hint schema
  have first : candidate (Naming.typeName hint) 0 = Naming.typeName hint := if_pos rfl
  cases index with
  | zero =>
    rw [first, State.claimAt] at claimed
    cases found : state.origin? (Naming.typeName hint) with
    | none =>
      rw [found] at claimed
      exact Or.inr claimed
    | some origin => exact Or.inl ((state.isSome_origin? _).mp (by rw [found]; rfl))
  | succ index =>
    obtain ⟨origin, found, -⟩ := ends.before 0 (Nat.succ_pos index)
    rw [first] at found
    exact Or.inl ((state.isSome_origin? _).mp (by rw [found]; rfl))

/-- A type gets a name without a number only if its hint gives it. -/
theorem Unnumbered.typeName_of_claim (unnumbered : Unnumbered name)
    (claimed : claim state hint schema = .new name) : Naming.typeName hint = name := by
  obtain ⟨index, -, ended⟩ := claim_endsAt state hint schema
  rw [claimed, State.claimAt] at ended
  split at ended
  · exact unnumbered _ index (Claim.new.inj ended).symm
  · split at ended <;> cases ended

end Searches

/-! ### Lowerings inside a lowering -/

/-- The lowerings that begin one after another, each with the state in which it begins. -/
inductive Begins (recur : Recur) :
    List (Schema × String) → State → Schema → String → State → Prop
  | here {schema : Schema} {hint : String} {rest : List (Schema × String)} {state : State} :
      Begins recur ((schema, hint) :: rest) state schema hint state
  | later {schema part : Schema} {hint partHint : String} {rest : List (Schema × String)}
      {type : ValueType} {state middle last : State} :
      recur schema hint state = (.ok type, middle) →
        Begins recur rest middle part partHint last →
          Begins recur ((schema, hint) :: rest) state part partHint last

/-- The lowerings that begin inside one step, each with the state in which it begins. -/
inductive Inside (context : Context) (recur : Recur) (schema : Schema) (hint : String)
    (state : State) : Schema → String → State → Prop
  | component {component : String} {target : Schema} :
      schema.referenceName? = some component → component ∉ state.visiting →
        state.isInProgress (Naming.typeName component) = false →
          context.spec.schema? component = some target →
            Inside context recur schema hint state target component
              (beginComponent component state)
  | whole {whole : Schema} :
      schema.reference = none → schema.allOf ≠ [] → mergeAllOf context.spec schema = .ok whole →
        Inside context recur schema hint state whole hint state
  | inner {part : Schema} {partHint : String} {wrap : ValueType → ValueType}
      {paths : List String} :
      Direct schema → Inner context schema hint part partHint wrap paths →
        Inside context recur schema hint state part partHint state
  | property {name partHint : String} {part : Schema} {middle : State} :
      Nominal context schema → form schema = .object → claim state hint schema = .new name →
        Begins recur (propertyCalls "" (settable context schema.properties))
          (beginType name schema state) part partHint middle →
            Inside context recur schema hint state part partHint middle
  | further {name : String} {values : Schema} {types : List ValueType} {middle : State} :
      Nominal context schema → form schema = .object → claim state hint schema = .new name →
        Calls recur (propertyCalls "" (settable context schema.properties))
          (beginType name schema state) (.ok types) middle →
            schema.additional = some (.each values) →
              Inside context recur schema hint state values name middle
  | variant {name partHint : String} {part : Schema} {middle : State} :
      Nominal context schema → form schema = .union → claim state hint schema = .new name →
        Begins recur (variantCalls schema name) (beginType name schema state) part partHint
          middle → Inside context recur schema hint state part partHint middle

/-- Whether a type is asked for, in a lowering to some depth, under a hint that gives a name. -/
inductive AsksFor (context : Context) (name : String) : Nat → Schema → String → State → Prop
  | own {limit : Nat} {schema : Schema} {hint : String} {state : State} :
      Nominal context schema → Naming.typeName hint = name →
        AsksFor context name (limit + 1) schema hint state
  | inside {limit : Nat} {schema part : Schema} {hint partHint : String} {state middle : State} :
      Inside context (lowerWithin context limit) schema hint state part partHint middle →
        AsksFor context name limit part partHint middle →
          AsksFor context name (limit + 1) schema hint state

/-! ### Names in use -/

section Names

variable {context : Context} {recur : Recur} {schema part : Schema}
  {hint partHint name : String} {state middle last after : State} {type : ValueType}
  {calls : List (Schema × String)} {types : List ValueType}

theorem Extends.names (kept : Extends state after) : state.names ⊆ after.names :=
  List.map_subset Prod.fst kept.entries

/-- Once a type is declared, the names in use are those that were in use inside it. -/
theorem mem_names_declare {subtype : Subtype} (inside : Extends (beginType name schema state) last)
    (named : subtype.name = name) (paths : List String) {other : String} :
    other ∈ (((endType last).addImports paths).declare schema subtype).names ↔
      other ∈ last.names := by
  have names : last.names = name :: (endType last).names := by
    simp [State.names_eq, endType, inside.inProgress, beginType]
  rw [names_declare, names_addImports, names, named, List.mem_append, List.mem_singleton,
    List.mem_cons, or_comm]

/-- The content of an object is lowered within its type. -/
theorem Disciplined.object {extra : Option ValueType} (disciplined : Disciplined recur)
    (tidy : Tidy state) (isObject : form schema = .object)
    (claimed : claim state hint schema = .new name)
    (fields : Calls recur calls (beginType name schema state) (.ok types) middle)
    (further : Extra recur schema name middle (.ok extra) last) :
    Extends (beginType name schema state) last := by
  have tidyBegun := tidy.beginType (claim_new claimed) (Or.inl isObject)
  obtain ⟨tidyMiddle, kept⟩ := disciplined.calls tidyBegun fields
  exact kept.trans (disciplined.extra tidyMiddle further).2

/-! ### The lowerings inside succeed -/

/-- Lowerings one after another have one outcome. -/
theorem Calls.unique {others : List ValueType}
    (left : Calls recur calls state (.ok types) after)
    (right : Calls recur calls state (.ok others) last) : types = others ∧ after = last := by
  induction calls generalizing state types others with
  | nil =>
    cases left
    cases right
    exact ⟨rfl, rfl⟩
  | cons call rest inductionHypothesis =>
    cases left with
    | cons first rest =>
      cases right with
      | cons firstToo restToo =>
        cases first.symm.trans firstToo
        obtain ⟨rfl, rfl⟩ := inductionHypothesis rest restToo
        exact ⟨rfl, rfl⟩

/-- If all lowerings one after another succeed, each that begins succeeds. -/
theorem Begins.run (begins : Begins recur calls state part partHint middle)
    (disciplined : Disciplined recur) (tidy : Tidy state)
    (ran : Calls recur calls state (.ok types) after) :
    Tidy middle ∧ ∃ type last, recur part partHint middle = (.ok type, last) ∧
      Extends last after := by
  induction begins generalizing types with
  | here =>
    cases ran with
    | cons first others =>
      exact ⟨tidy, _, _, first, (disciplined.calls (disciplined tidy first).1 others).2⟩
  | later first _ inductionHypothesis =>
    cases ran with
    | cons firstToo others =>
      cases first.symm.trans firstToo
      exact inductionHypothesis (disciplined tidy first).1 others

theorem Direct.plain_of_run (direct : Direct schema)
    (ran : lowerStep context recur schema hint state = (.ok type, after)) :
    ∃ inner, Plain context recur schema hint state (.ok inner) after := by
  cases lowerStep_step ran with
  | forward named | component named => cases named.symm.trans direct.referenceName?
  | foreign _ foreign =>
    rw [direct.reference] at foreign
    cases foreign
  | merged _ several => exact absurd direct.allOf several
  | plain _ _ plain => exact ⟨_, plain⟩

/-- The lowering of an object that gets a type. -/
theorem Nominal.object_of_run (nominal : Nominal context schema) (isObject : form schema = .object)
    (claimed : claim state hint schema = .new name)
    (ran : lowerStep context recur schema hint state = (.ok type, after)) :
    ∃ types extra middle last,
      Calls recur (propertyCalls "" (settable context schema.properties))
        (beginType name schema state) (.ok types) middle ∧
      Extra recur schema name middle (.ok extra) last ∧
      after = ((endType last).addImports (if extra.isSome then [Import.map] else [])).declare
        schema (structureType context schema name types extra) := by
  obtain ⟨inner, plain⟩ := nominal.direct.plain_of_run ran
  cases plain with
  | leaf leaf => exact absurd leaf nominal.declares.not_leaf
  | inner inner => exact absurd inner nominal.declares.not_inner
  | existing _ found | forward _ _ found | forwardChoice _ _ found => cases claimed.symm.trans found
  | choice _ isChoice => cases isObject.symm.trans isChoice
  | union _ isUnion => cases isObject.symm.trans isUnion
  | «structure» _ _ claimedToo fields further =>
    cases claimed.symm.trans claimedToo
    exact ⟨_, _, _, _, fields, further, rfl⟩

/-- The lowering of a union that gets a type. -/
theorem Nominal.union_of_run (nominal : Nominal context schema) (isUnion : form schema = .union)
    (claimed : claim state hint schema = .new name)
    (ran : lowerStep context recur schema hint state = (.ok type, after)) :
    ∃ types last, Calls recur (variantCalls schema name) (beginType name schema state)
        (.ok types) last ∧
      after = (endType last).declare schema (unionType schema name types) := by
  obtain ⟨inner, plain⟩ := nominal.direct.plain_of_run ran
  cases plain with
  | leaf leaf => exact absurd leaf nominal.declares.not_leaf
  | inner inner => exact absurd inner nominal.declares.not_inner
  | existing _ found | forward _ _ found | forwardChoice _ _ found => cases claimed.symm.trans found
  | choice _ isChoice => cases isUnion.symm.trans isChoice
  | «structure» _ isObject => cases isUnion.symm.trans isObject
  | union _ _ claimedToo variants =>
    cases claimed.symm.trans claimedToo
    exact ⟨_, _, variants, rfl⟩

/-- If a lowering succeeds, each that begins inside it succeeds, and the names that are in use
after it are in use at the end. -/
theorem Inside.run (inside : Inside context recur schema hint state part partHint middle)
    (disciplined : Disciplined recur) (tidy : Tidy state)
    (ran : lowerStep context recur schema hint state = (.ok type, after)) :
    Tidy middle ∧ ∃ inner last, recur part partHint middle = (.ok inner, last) ∧
      last.names ⊆ after.names := by
  cases inside with
  | component named new idle found =>
    rw [lowerStep_component named new idle found] at ran
    obtain ⟨ended, rfl⟩ := Prod.mk.inj ran
    exact ⟨tidy.beginComponent _, _, _, Prod.ext ended rfl, List.Subset.refl _⟩
  | whole own several merged =>
    rw [lowerStep_merged own several merged] at ran
    exact ⟨tidy, _, _, ran, List.Subset.refl _⟩
  | @inner part partHint _ _ direct inner =>
    refine ⟨tidy, ?_⟩
    rw [lowerStep_plain direct.reference direct.allOf] at ran
    rcases ended : recur part partHint state with ⟨failure | innerType, last⟩
    · rw [inner.run_of_error ended] at ran
      cases ran
    · rw [inner.run ended] at ran
      obtain ⟨-, rfl⟩ := Prod.mk.inj ran
      refine ⟨innerType, last, rfl, ?_⟩
      rw [names_addImports]
      exact List.Subset.refl _
  | property nominal isObject claimed begins =>
    obtain ⟨types, extra, _, last, fields, further, rfl⟩ :=
      nominal.object_of_run isObject claimed ran
    have tidyBegun := tidy.beginType (claim_new claimed) (Or.inl isObject)
    obtain ⟨tidyFields, first⟩ := disciplined.calls tidyBegun fields
    have second := (disciplined.extra tidyFields further).2
    obtain ⟨tidyMiddle, inner, _, ended, kept⟩ := begins.run disciplined tidyBegun fields
    refine ⟨tidyMiddle, inner, _, ended, fun other held => ?_⟩
    rw [mem_names_declare (first.trans second) rfl]
    exact (kept.trans second).names held
  | further nominal isObject claimed fields isEach =>
    obtain ⟨types, extra, _, last, fieldsToo, further, rfl⟩ :=
      nominal.object_of_run isObject claimed ran
    obtain ⟨rfl, rfl⟩ := fields.unique fieldsToo
    have inside := disciplined.object tidy isObject claimed fields further
    have tidyBegun := tidy.beginType (claim_new claimed) (Or.inl isObject)
    refine ⟨(disciplined.calls tidyBegun fields).1, ?_⟩
    cases further with
    | each isEachToo ended =>
      cases isEach.symm.trans isEachToo
      refine ⟨_, _, ended, fun other held => ?_⟩
      rw [mem_names_declare inside rfl]
      exact held
    | free isFree => cases isEach.symm.trans isFree
    | closed isClosed =>
      rcases isClosed with isNone | isFalse
      · cases isEach.symm.trans isNone
      · cases isEach.symm.trans isFalse
  | variant nominal isUnion claimed begins =>
    obtain ⟨types, last, variants, rfl⟩ := nominal.union_of_run isUnion claimed ran
    have tidyBegun := tidy.beginType (claim_new claimed) (Or.inr isUnion)
    have first := (disciplined.calls tidyBegun variants).2
    obtain ⟨tidyMiddle, inner, _, ended, kept⟩ := begins.run disciplined tidyBegun variants
    refine ⟨tidyMiddle, inner, _, ended, fun other held => ?_⟩
    rw [← State.addImports_nil (endType last), mem_names_declare first rfl]
    exact kept.names held

/-! ### Names that were asked for -/

/-- A schema that has a type of its own leaves the name that its hint gives in use. -/
theorem Nominal.typeName_mem (nominal : Nominal context schema) (disciplined : Disciplined recur)
    (tidy : Tidy state)
    (ran : lowerStep context recur schema hint state = (.ok type, after)) :
    Naming.typeName hint ∈ after.names := by
  rcases typeName_mem_or_new state hint schema with before | new
  · exact (disciplined.step tidy (lowerStep_step ran)).2.names before
  obtain ⟨inner, plain⟩ := nominal.direct.plain_of_run ran
  have last {middle : State} {subtype : Subtype} (named : subtype.name = Naming.typeName hint) :
      Naming.typeName hint ∈ (middle.declare schema subtype).names := by
    rw [names_declare]
    exact List.mem_append_right _ (List.mem_singleton.mpr named.symm)
  cases plain with
  | leaf leaf => exact absurd leaf nominal.declares.not_leaf
  | inner inner => exact absurd inner nominal.declares.not_inner
  | existing _ found | forward _ _ found | forwardChoice _ _ found => cases new.symm.trans found
  | choice _ _ found => exact last (Claim.new.inj (found.symm.trans new))
  | «structure» _ _ found => exact last (Claim.new.inj (found.symm.trans new))
  | union _ _ found => exact last (Claim.new.inj (found.symm.trans new))

variable {limit : Nat}

/-- A name that was asked for is in use at the end. -/
theorem AsksFor.mem_names (asks : AsksFor context name limit schema hint state)
    (tidy : Tidy state) (ran : lowerWithin context limit schema hint state = (.ok type, after)) :
    name ∈ after.names := by
  induction asks generalizing type after with
  | own nominal named =>
    exact named ▸ nominal.typeName_mem (lowerWithin_disciplined context _) tidy ran
  | inside begins _ inductionHypothesis =>
    obtain ⟨tidyMiddle, inner, last, ended, kept⟩ :=
      begins.run (lowerWithin_disciplined context _) tidy ran
    exact kept (inductionHypothesis tidyMiddle ended)

/-- Whether a lowering that leaves a new name in use has a property. -/
def Explains (recur : Recur) (name : String) (asks : Schema → String → State → Prop) : Prop :=
  ∀ {schema : Schema} {hint : String} {state after : State} {type : ValueType},
    Tidy state → recur schema hint state = (.ok type, after) → name ∈ after.names →
      name ∈ state.names ∨ asks schema hint state

/-- A name that is new after lowerings one after another is new after one of them. -/
theorem Calls.exists_begins {asks : Schema → String → State → Prop}
    (disciplined : Disciplined recur) (explains : Explains recur name asks) (tidy : Tidy state)
    (ran : Calls recur calls state (.ok types) after) (member : name ∈ after.names) :
    name ∈ state.names ∨ ∃ part partHint middle,
      Begins recur calls state part partHint middle ∧ asks part partHint middle := by
  induction calls generalizing state types with
  | nil =>
    cases ran
    exact Or.inl member
  | cons call rest inductionHypothesis =>
    cases ran with
    | cons first others =>
      rcases inductionHypothesis (disciplined tidy first).1 others with
        before | ⟨part, partHint, middle, begins, holds⟩
      · exact (explains tidy first before).imp_right fun holds => ⟨_, _, _, .here, holds⟩
      · exact Or.inr ⟨part, partHint, middle, .later first begins, holds⟩

section Content

variable {own : String} {middle : State}

/-- A name that is in use once a type has begun was in use before, or is that of the type. -/
theorem Nominal.asksFor_of_begun (nominal : Nominal context schema)
    (unnumbered : Unnumbered name) (claimed : claim state hint schema = .new own)
    (member : name ∈ (beginType own schema state).names) :
    name ∈ state.names ∨ AsksFor context name (limit + 1) schema hint state := by
  rcases List.mem_cons.mp member with same | before
  · change name = own at same
    exact Or.inr (.own nominal (unnumbered.typeName_of_claim (same ▸ claimed)))
  · exact Or.inl before

/-- A name that is in use once the properties of an object were lowered was in use before, is that of
the object or was asked for in a property. -/
theorem Nominal.asksFor_of_properties (nominal : Nominal context schema)
    (isObject : form schema = .object) (unnumbered : Unnumbered name) (tidy : Tidy state)
    (explains : Explains (lowerWithin context limit) name (AsksFor context name limit))
    (claimed : claim state hint schema = .new own)
    (fields : Calls (lowerWithin context limit)
      (propertyCalls "" (settable context schema.properties)) (beginType own schema state)
        (.ok types) middle)
    (member : name ∈ middle.names) :
    name ∈ state.names ∨ AsksFor context name (limit + 1) schema hint state := by
  have tidyBegun := tidy.beginType (claim_new claimed) (Or.inl isObject)
  rcases fields.exists_begins (lowerWithin_disciplined context limit) explains tidyBegun member with
    begun | ⟨_, _, _, begins, asks⟩
  · exact nominal.asksFor_of_begun unnumbered claimed begun
  · exact Or.inr (.inside (.property nominal isObject claimed begins) asks)

/-- A name that is in use after the content of an object was lowered was in use before, is that of
the object or was asked for inside. -/
theorem Nominal.asksFor_of_object {extra : Option ValueType} (nominal : Nominal context schema)
    (isObject : form schema = .object) (unnumbered : Unnumbered name) (tidy : Tidy state)
    (explains : Explains (lowerWithin context limit) name (AsksFor context name limit))
    (claimed : claim state hint schema = .new own)
    (fields : Calls (lowerWithin context limit)
      (propertyCalls "" (settable context schema.properties)) (beginType own schema state)
        (.ok types) middle)
    (further : Extra (lowerWithin context limit) schema own middle (.ok extra) last)
    (member : name ∈ last.names) :
    name ∈ state.names ∨ AsksFor context name (limit + 1) schema hint state := by
  have inProperties :=
    nominal.asksFor_of_properties isObject unnumbered tidy explains claimed fields
  have disciplined : Disciplined (lowerWithin context limit) := lowerWithin_disciplined context limit
  cases further with
  | each isEach inside =>
    have tidyBegun := tidy.beginType (claim_new claimed) (Or.inl isObject)
    rcases explains (disciplined.calls tidyBegun fields).1 inside member with before | asks
    · exact inProperties before
    · exact Or.inr (.inside (.further nominal isObject claimed fields isEach) asks)
  | free =>
    rw [names_addImports] at member
    exact inProperties member
  | closed => exact inProperties member

/-- A name that is in use after the branches of a union were lowered was in use before, is that of
the union or was asked for in a branch. -/
theorem Nominal.asksFor_of_union (nominal : Nominal context schema)
    (isUnion : form schema = .union) (unnumbered : Unnumbered name) (tidy : Tidy state)
    (explains : Explains (lowerWithin context limit) name (AsksFor context name limit))
    (claimed : claim state hint schema = .new own)
    (variants : Calls (lowerWithin context limit) (variantCalls schema own)
      (beginType own schema state) (.ok types) last)
    (member : name ∈ last.names) :
    name ∈ state.names ∨ AsksFor context name (limit + 1) schema hint state := by
  have tidyBegun := tidy.beginType (claim_new claimed) (Or.inr isUnion)
  rcases variants.exists_begins (lowerWithin_disciplined context limit) explains tidyBegun member
    with begun | ⟨_, _, _, begins, asks⟩
  · exact nominal.asksFor_of_begun unnumbered claimed begun
  · exact Or.inr (.inside (.variant nominal isUnion claimed begins) asks)

end Content

/-- A name without a number that is new after a lowering was asked for. -/
theorem mem_names_or_asksFor (unnumbered : Unnumbered name) (limit : Nat) :
    Explains (lowerWithin context limit) name (AsksFor context name limit) := by
  induction limit with
  | zero =>
    intro schema hint state after type tidy ran
    cases ran
  | succ limit explains =>
    intro schema hint state after type tidy ran member
    have disciplined : Disciplined (lowerWithin context limit) :=
      lowerWithin_disciplined context limit
    cases lowerStep_step ran with
    | forward => exact Or.inl member
    | component named new idle found inside =>
      exact (explains (tidy.beginComponent _) inside member).imp_right
        (.inside (.component named new idle found))
    | foreign =>
      rw [names_addImports] at member
      exact Or.inl member
    | merged own several merged inside =>
      exact (explains tidy inside member).imp_right (.inside (.whole own several merged))
    | plain own single plain =>
      have direct : Direct schema := ⟨own, single⟩
      cases plain with
      | leaf =>
        rw [names_addImports] at member
        exact Or.inl member
      | inner inner inside =>
        rw [names_addImports] at member
        exact (explains tidy inside member).imp_right (.inside (.inner direct inner))
      | existing => exact Or.inl member
      | forward => exact Or.inl member
      | forwardChoice => exact Or.inl member
      | choice declares _ claimed =>
        rw [names_declare] at member
        refine (List.mem_append.mp member).imp_right fun new => ?_
        cases List.mem_singleton.mp new
        exact .own ⟨direct, declares⟩ (unnumbered.typeName_of_claim claimed)
      | «structure» declares isObject claimed fields further =>
        have inside := disciplined.object tidy isObject claimed fields further
        rw [mem_names_declare inside rfl] at member
        exact Nominal.asksFor_of_object ⟨direct, declares⟩ isObject unnumbered tidy explains claimed
          fields further member
      | union declares isUnion claimed variants =>
        have tidyBegun := tidy.beginType (claim_new claimed) (Or.inr isUnion)
        have inside := (disciplined.calls tidyBegun variants).2
        rw [← State.addImports_nil (endType _), mem_names_declare inside rfl] at member
        exact Nominal.asksFor_of_union ⟨direct, declares⟩ isUnion unnumbered tidy explains claimed
          variants member

/-- A name without a number is in use after a lowering that succeeds exactly if it was in use before
or was asked for. -/
theorem mem_names_iff (unnumbered : Unnumbered name) (tidy : Tidy state)
    (ran : lowerWithin context limit schema hint state = (.ok type, after)) :
    name ∈ after.names ↔ name ∈ state.names ∨ AsksFor context name limit schema hint state := by
  refine ⟨mem_names_or_asksFor unnumbered limit tidy ran, fun either => either.elim ?_ ?_⟩
  · exact fun before => (lowerWithin_disciplined context limit tidy ran).2.names before
  · exact fun asks => asks.mem_names tidy ran

end Names

/-! ### Calls one after another -/

namespace Call

/-- Whether a call returns what it is asked for. -/
def Succeeds (context : Context) (state : State) : Call → Prop
  | single schema hint => ∃ type, (lower context schema hint state).1 = .ok type
  | fields schema owner => ∃ fields, (lowerFields context schema owner state).1 = .ok fields
  | binding parameter scope => ∃ binding, (lowerParameter context parameter scope state).1 = .ok binding

/-- Whether a type is asked for in a call under a hint that gives a name. -/
def AsksFor (context : Context) (name : String) (state : State) : Call → Prop
  | single schema hint =>
    Lowering.AsksFor context name (depthLimit context schema) schema hint state
  | fields schema owner =>
    ∃ whole part partHint middle, wholeOf context schema = .ok whole ∧
      Begins (lower context) (propertyCalls owner (settable context whole.properties)) state part
        partHint middle ∧
      Lowering.AsksFor context name (depthLimit context part) part partHint middle
  | binding parameter _ =>
    Lowering.AsksFor context name (depthLimit context (parameterSchema parameter))
      (parameterSchema parameter) parameter.name state

variable {context : Context} {state : State} {name : String}

theorem mem_names_iff (unnumbered : Unnumbered name) (tidy : Tidy state) {call : Call}
    (succeeds : call.Succeeds context state) :
    name ∈ (call.after context state).names ↔
      name ∈ state.names ∨ call.AsksFor context name state := by
  cases call with
  | single schema hint =>
    obtain ⟨type, returned⟩ := succeeds
    exact Lowering.mem_names_iff unnumbered tidy (Prod.ext returned rfl)
  | fields schema owner =>
    obtain ⟨fields, returned⟩ := succeeds
    have ran : lowerFields context schema owner state =
        (.ok fields, (Call.fields schema owner).after context state) := Prod.ext returned rfl
    rcases lowerFields_calls ran with ⟨_, _, failed, _⟩ | ⟨whole, types, merged, called, same⟩
    · cases failed
    cases types with
    | error failure => cases same
    | ok types =>
      constructor
      · intro member
        have explains : Explains (lower context) name fun schema =>
            Lowering.AsksFor context name (depthLimit context schema) schema :=
          fun tidy ran => mem_names_or_asksFor unnumbered _ tidy ran
        rcases called.exists_begins (lower_disciplined context) explains tidy member with
          before | ⟨part, partHint, middle, begins, asks⟩
        · exact Or.inl before
        · exact Or.inr ⟨whole, part, partHint, middle, merged, begins, asks⟩
      · rintro (before | ⟨other, part, partHint, middle, mergedToo, begins, asks⟩)
        · exact (Disciplined.calls (lower_disciplined context) tidy called).2.names before
        · cases merged.symm.trans mergedToo
          obtain ⟨tidyMiddle, type, last, ended, kept⟩ :=
            begins.run (lower_disciplined context) tidy called
          exact kept.names (asks.mem_names tidyMiddle ended)
  | binding parameter scope =>
    obtain ⟨binding, returned⟩ := succeeds
    show name ∈ (lowerParameter context parameter scope state).2.names ↔ _
    rw [lowerParameter_run] at returned ⊢
    rcases ran : lower context (parameterSchema parameter) parameter.name state
      with ⟨failure | type, after⟩
    · rw [ran] at returned
      cases returned
    · rw [names_addImports]
      exact Lowering.mem_names_iff unnumbered tidy ran

end Call

/-- Calls one after another that all succeed. -/
inductive Completes (context : Context) : State → List Call → State → Prop
  | nil {state : State} : Completes context state [] state
  | cons {state after : State} {call : Call} {rest : List Call} :
      call.Succeeds context state → Completes context (call.after context state) rest after →
        Completes context state (call :: rest) after

/-- Whether a type is asked for, in one of the calls, under a hint that gives a name. -/
inductive CallsAskFor (context : Context) (name : String) : State → List Call → Prop
  | here {state : State} {call : Call} {rest : List Call} :
      call.AsksFor context name state → CallsAskFor context name state (call :: rest)
  | later {state : State} {call : Call} {rest : List Call} :
      CallsAskFor context name (call.after context state) rest →
        CallsAskFor context name state (call :: rest)

section Completes

variable {context : Context} {state after : State} {calls : List Call} {name : String}

theorem callsAskFor_cons_iff {call : Call} {rest : List Call} :
    CallsAskFor context name state (call :: rest) ↔
      call.AsksFor context name state ∨
        CallsAskFor context name (call.after context state) rest := by
  constructor
  · intro asks
    cases asks with
    | here asks => exact Or.inl asks
    | later asks => exact Or.inr asks
  · rintro (asks | asks)
    · exact .here asks
    · exact .later asks

/-- After calls that all succeed, a name without a number is in use exactly if it was in use before
them or was asked for in one of them. -/
theorem Completes.mem_names_iff (completes : Completes context state calls after)
    (unnumbered : Unnumbered name) (reachable : Reachable context state) :
    name ∈ after.names ↔ name ∈ state.names ∨ CallsAskFor context name state calls := by
  induction completes with
  | nil => exact ⟨Or.inl, fun either => either.resolve_right nofun⟩
  | cons succeeds _ inductionHypothesis =>
    rw [inductionHypothesis (reachable.call _), Call.mem_names_iff unnumbered reachable.tidy succeeds,
      callsAskFor_cons_iff, or_assoc]

end Completes

end ServiceForge.Lowering
