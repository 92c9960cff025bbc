/-
This file compares a lowering step over two ways to lower the schemas inside, begun in
states whose types in progress may stand for different schemas. If the two agree wherever
the step asks them and give no failure for lack of depth, the same holds of the two steps.
Nothing else that a step does depends on how the schemas inside are lowered, and it sees
what a type in progress stands for only where it asks for a name.
-/

import ServiceForge.Proofs.Lowering.Components
import ServiceForge.Proofs.Lowering.Names

namespace ServiceForge.Lowering

open ServiceForge.OpenApi (Schema)

/-! ### Other schemas for the types in progress -/

/-- Other schemas for the types in progress, where they apply. They go on to apply when a type is
begun, which stands for its own schema. -/
structure Restatement where
  origin : String → Schema → Schema
  applies : List (String × Schema) → Prop
  applies_cons : ∀ {pending name} schema, applies pending → name ∉ OrderedMap.keys pending →
    applies ((name, schema) :: pending)
  origin_new : ∀ {pending name} schema, applies pending → name ∉ OrderedMap.keys pending →
    origin name schema = schema

namespace Restatement

/-- The types in progress stand for the schemas that they stand for. -/
def same : Restatement where
  origin _ schema := schema
  applies _ := True
  applies_cons _ _ _ := trivial
  origin_new _ _ _ := rfl

/-- The state in which the types in progress stand for the other schemas. -/
def image (restatement : Restatement) (state : State) : State :=
  { state with inProgress := state.inProgress.map fun entry =>
      (entry.1, restatement.origin entry.1 entry.2) }

/-- A schema is equal to the other schema for a type exactly if it is equal to the first one. -/
def Overlooks (restatement : Restatement) (schema : Schema) : Prop :=
  ∀ pending, restatement.applies pending → ∀ name origin, List.lookup name pending = some origin →
    (restatement.origin name origin).equal schema = origin.equal schema

variable {restatement : Restatement} {state : State} {schema : Schema} {name : String}

/-- The restatement that changes nothing leaves states as they are. -/
@[simp] theorem image_same (state : State) : same.image state = state := by
  simp [image, same]

theorem overlooks_same (schema : Schema) : same.Overlooks schema := fun _ _ _ _ _ => rfl

@[simp] theorem image_addImports (state : State) (paths : List String) :
    restatement.image (state.addImports paths) = (restatement.image state).addImports paths := by
  induction paths generalizing state with
  | nil => rfl
  | cons path rest inductionHypothesis => exact inductionHypothesis (state.addImport path)

/-- A restatement keeps the names in progress and only restates what they stand for. -/
theorem lookup_image (restatement : Restatement) (state : State) (name : String) :
    (restatement.image state).inProgress.lookup name =
      (state.inProgress.lookup name).map (restatement.origin name) := by
  show List.lookup name (state.inProgress.map _) = _
  induction state.inProgress with
  | nil => rfl
  | cons entry rest inductionHypothesis =>
    rw [List.map_cons, List.lookup_cons, List.lookup_cons]
    cases found : name == entry.1 with
    | true =>
      rw [beq_iff_eq.mp found]
      rfl
    | false => exact inductionHypothesis

/-- A restatement keeps what is in progress. -/
@[simp] theorem isInProgress_image (name : String) :
    (restatement.image state).isInProgress name = state.isInProgress name := by
  rw [State.isInProgress, lookup_image, Option.isSome_map]
  rfl

/-- A schema that overlooks the difference finds the same name. -/
theorem Overlooks.claim_image (overlooks : restatement.Overlooks schema)
    (applies : restatement.applies state.inProgress) (hint : String) :
    claim (restatement.image state) hint schema = claim state hint schema := by
  refine claim_congr (fun name => ?_) fun name => isInProgress_image name
  unfold State.origin?
  rw [lookup_image]
  cases pending : state.inProgress.lookup name with
  | none => rfl
  | some origin => exact congrArg some (overlooks _ applies name origin pending)

theorem image_beginType (applies : restatement.applies state.inProgress)
    (new : name ∉ OrderedMap.keys state.inProgress) (schema : Schema) :
    restatement.image (beginType name schema state) =
      beginType name schema (restatement.image state) := by
  simp [image, beginType, restatement.origin_new schema applies new]

end Restatement

/-! ### Agreeing computations -/

/-- A result has a property, or is a failure for another reason than the depth. -/
def Concludes {α : Type} (P : α → Prop) : Except GenerationError α → Prop
  | .ok value => P value
  | .error error => ∀ location, error ≠ .endlessSchema location

/-- Two computations do the same from a state and from its image, do not fail for lack of depth and
leave in progress what was. -/
structure Agrees {α : Type} (restatement : Restatement) (P : α → Prop) (first second : Lower α)
    (state : State) : Prop where
  same : second (restatement.image state) =
    ((first state).1, restatement.image (first state).2)
  ends : Concludes P (first state).1
  kept : Extends state (first state).2

namespace Agrees

variable {α β : Type} {restatement : Restatement} {P : α → Prop} {Q : β → Prop}
  {first second : Lower α} {next other : α → Lower β} {state : State}

/-- Actions agree if one run of each ends alike, in states of which one restates the other. -/
theorem of_run {action : Lower α} {result : Except GenerationError α} {after : State}
    (ran : action state = (result, after))
    (ranImage : action (restatement.image state) = (result, restatement.image after))
    (ends : Concludes P result) (kept : Extends state after) :
    Agrees restatement P action action state :=
  ⟨by rw [ran, ranImage], by rw [ran]; exact ends, by rw [ran]; exact kept⟩

/-- If no schema changes, the two computations are the same from the state. -/
theorem eq (agrees : Agrees .same P first second state) : second state = first state := by
  have same := agrees.same
  rw [Restatement.image_same, Restatement.image_same] at same
  exact same

theorem pure {value : α} (holds : P value) :
    Agrees restatement P (Pure.pure value) (Pure.pure value) state :=
  of_run (pure_run value state) (pure_run value _) holds (.refl state)

theorem settle {result : Except GenerationError α} (ends : Concludes P result) :
    Agrees restatement P (settle result) (Lowering.settle result) state :=
  of_run (settle_run result state) (settle_run result _) ends (.refl state)

theorem addImport (path : String) :
    Agrees restatement (fun _ => True) (addImport path) (Lowering.addImport path) state :=
  of_run (addImport_run path state) (addImport_run path _) trivial (.addImports state _)

theorem addImportIn (context : Context) (dialects : List Dialect) (path : String) :
    Agrees restatement (fun _ => True) (addImportIn context dialects path)
      (Lowering.addImportIn context dialects path) state :=
  of_run (addImportIn_run context dialects path state)
    (by rw [addImportIn_run, Restatement.image_addImports]) trivial (.addImports state _)

theorem freeJson : Agrees restatement (fun _ => True) freeJson Lowering.freeJson state :=
  of_run (freeJson_run state) (freeJson_run _) trivial (.addImports state _)

theorem declare (schema : Schema) (subtype : Subtype) :
    Agrees restatement (fun _ => True) (declare schema subtype)
      (Lowering.declare schema subtype) state :=
  of_run (declare_run schema subtype state) (declare_run schema subtype _) trivial
    (.declare state schema subtype)

/-- A computation that begins with a look at the state. -/
theorem look {look other : State → Lower β}
    (agrees : Agrees restatement Q (look state) (other (restatement.image state)) state) :
    Agrees restatement Q (get >>= look) (get >>= other) state := by
  obtain ⟨same, ends, kept⟩ := agrees
  have run : (get >>= look) state = look state state := bind_run_of_ok (get_run state)
  have runImage : (get >>= other) (restatement.image state) =
      other (restatement.image state) (restatement.image state) := bind_run_of_ok (get_run _)
  exact ⟨by rw [run, runImage, same], by rw [run]; exact ends, by rw [run]; exact kept⟩

/-- Actions agree step by step if what follows agrees in each state that is reached. -/
theorem bind (agrees : Agrees restatement P first second state)
    (further : ∀ value after, P value → Extends state after →
      Agrees restatement Q (next value) (other value) after) :
    Agrees restatement Q (first >>= next) (second >>= other) state := by
  obtain ⟨same, ends, kept⟩ := agrees
  rcases ran : first state with ⟨error | value, after⟩
  · rw [ran] at same ends kept
    refine ⟨?_, ?_, ?_⟩
    · rw [bind_run_of_error ran, bind_run_of_error same]
    · rw [bind_run_of_error ran]
      exact ends
    · rw [bind_run_of_error ran]
      exact kept
  · rw [ran] at same ends kept
    obtain ⟨sameNext, endsNext, keptNext⟩ := further value after ends kept
    refine ⟨?_, ?_, ?_⟩
    · rw [bind_run_of_ok ran, bind_run_of_ok same]
      exact sameNext
    · rw [bind_run_of_ok ran]
      exact endsNext
    · rw [bind_run_of_ok ran]
      exact kept.trans keptNext

/-- Agreeing actions agree where a failure of theirs is kept as a result. -/
theorem attempt (agrees : Agrees restatement P first second state) :
    Agrees restatement (Concludes P) (attempt first) (Lowering.attempt second) state := by
  obtain ⟨same, ends, kept⟩ := agrees
  exact ⟨by rw [attempt_run, attempt_run, same], ends, kept⟩

/-- Agreeing actions agree inside the declaration of a type. -/
theorem withinType {name : String} {schema : Schema}
    (begins : restatement.image (beginType name schema state) =
      beginType name schema (restatement.image state))
    (agrees : Agrees restatement P first second (beginType name schema state)) :
    Agrees restatement P (within (beginType name schema) endType first)
      (within (beginType name schema) endType second) state := by
  obtain ⟨same, ends, kept⟩ := agrees
  refine ⟨?_, ends, kept.endType⟩
  rw [within_run, within_run, ← begins, same]
  exact congrArg (Prod.mk _) (by simp [Restatement.image, endType])

/-- Agreeing actions agree inside a component. -/
theorem withinComponent {component : String}
    (agrees : Agrees restatement P first second (beginComponent component state)) :
    Agrees restatement P (within (beginComponent component) (endComponent component) first)
      (within (beginComponent component) (endComponent component) second) state := by
  obtain ⟨same, ends, kept⟩ := agrees
  refine ⟨?_, ends, kept.endComponent⟩
  have begins : beginComponent component (restatement.image state) =
      restatement.image (beginComponent component state) := rfl
  rw [within_run, within_run, begins, same]
  rfl

end Agrees

/-! ### Agreeing steps -/

/-- What is in progress while a schema is lowered: types that may stand for other schemas, and the
given components. -/
structure Progress (restatement : Restatement) (visiting : List String) (state : State) : Prop where
  applies : restatement.applies state.inProgress
  visiting : state.visiting = visiting

/-- What is in progress stays so while the state grows. -/
theorem Progress.after {restatement : Restatement} {visiting : List String} {state after : State}
    (progress : Progress restatement visiting state) (kept : Extends state after) :
    Progress restatement visiting after :=
  ⟨kept.inProgress ▸ progress.applies, kept.visiting.trans progress.visiting⟩

theorem Progress.beginType {restatement : Restatement} {visiting : List String} {state : State}
    {name : String} (progress : Progress restatement visiting state)
    (new : name ∉ OrderedMap.keys state.inProgress) (schema : Schema) :
    Progress restatement visiting (beginType name schema state) :=
  ⟨restatement.applies_cons schema progress.applies new, progress.visiting⟩

/-- Two ways to lower a schema agree while the given components are in progress. -/
def Alike (restatement : Restatement) (first second : Recur) (visiting : List String)
    (schema : Schema) : Prop :=
  ∀ hint state, Progress restatement visiting state →
    Agrees restatement (fun _ => True) (first schema hint) (second schema hint) state

/-- The lowering of what stands in an object, with the failures as values. -/
def lowerContent (context : Context) (recur : Recur) (schema : Schema) (name : String) :
    Lower (Except GenerationError (List Field) × Except GenerationError (Option ValueType)) := do
  return (← attempt (lowerFieldsWith context recur schema ""),
    ← attempt (lowerAdditional recur schema name))

/-- Declares a structure with the given content. -/
def declareStructure (schema : Schema) (name : String)
    (content : Except GenerationError (List Field) × Except GenerationError (Option ValueType)) :
    Lower ValueType := do
  let fields ← settle content.1
  let additional ← settle content.2
  if additional.isSome then addImport Import.map
  declare schema {
    name
    description := schema.description
    shape := .structure fields (additional.map .map) }
  return .named name

theorem lowerStructure_eq (context : Context) (recur : Recur) (schema : Schema) (name : String) :
    lowerStructure context recur schema name =
      within (beginType name schema) endType (lowerContent context recur schema name) >>=
        declareStructure schema name := rfl

section Steps

variable {context : Context} {restatement : Restatement} {first second : Recur}
  {visiting : List String} {schema : Schema} {hint name : String} {state : State}

/-- Properties are lowered alike if their schemas are. -/
theorem lowerProperties_agrees {properties : List (String × Schema)}
    (alike : ∀ property ∈ properties, Alike restatement first second visiting property.2)
    (owner : String) (fields : List Field) (progress : Progress restatement visiting state) :
    Agrees restatement (fun _ => True)
      (lowerProperties context first schema owner fields properties)
      (lowerProperties context second schema owner fields properties) state := by
  induction properties generalizing fields state with
  | nil => exact .pure trivial
  | cons property rest inductionHypothesis =>
    obtain ⟨single, others⟩ := List.forall_mem_cons.mp alike
    unfold lowerProperties
    by_cases hidden : context.dialect = .sdk ∧ property.2.readOnly = some true
    · rw [if_pos hidden, if_pos hidden]
      exact inductionHypothesis others fields progress
    · rw [if_neg hidden, if_neg hidden]
      exact (single _ state progress).bind fun type after _ kept =>
        inductionHypothesis others _ (progress.after kept)

/-- The fields of a schema are the properties of its parts in one. -/
theorem lowerFieldsWith_eq (context : Context) (recur : Recur) (schema : Schema)
    (owner : String) :
    lowerFieldsWith context recur schema owner =
      settle (wholeOf context schema) >>= fun whole =>
        lowerProperties context recur whole owner [] whole.properties := by
  unfold lowerFieldsWith wholeOf
  split <;> rfl

/-- Fields are lowered alike if all parts of the merged schema are. -/
theorem lowerFieldsWith_agrees
    (alike : Concludes
      (fun whole => ∀ part ∈ whole.parts, Alike restatement first second visiting part)
      (wholeOf context schema))
    (owner : String) (progress : Progress restatement visiting state) :
    Agrees restatement (fun _ => True) (lowerFieldsWith context first schema owner)
      (lowerFieldsWith context second schema owner) state := by
  rw [lowerFieldsWith_eq, lowerFieldsWith_eq]
  refine (Agrees.settle alike).bind fun whole after parts kept => ?_
  refine lowerProperties_agrees (fun property isProperty => ?_) owner [] (progress.after kept)
  exact parts _ (Schema.mem_parts.mpr (Or.inr (Or.inl ⟨property, isProperty, rfl⟩)))

/-- Branches told apart by version are lowered alike if each of them is. -/
theorem lowerVersioned_agrees {branches : List Schema}
    (alike : ∀ branch ∈ branches, Alike restatement first second visiting branch) (index : Nat)
    (progress : Progress restatement visiting state) :
    Agrees restatement (fun _ => True) (lowerVersioned first name index branches)
      (lowerVersioned second name index branches) state := by
  induction branches generalizing index state with
  | nil => exact .pure trivial
  | cons branch rest inductionHypothesis =>
    obtain ⟨single, others⟩ := List.forall_mem_cons.mp alike
    exact (single _ state progress).bind fun type after _ kept =>
      (inductionHypothesis others (index + 1) (progress.after kept)).bind
        fun _ _ _ _ => .pure trivial

/-- Other branches are lowered alike if each of them is. -/
theorem lowerUntagged_agrees {branches : List Schema}
    (alike : ∀ branch ∈ branches, Alike restatement first second visiting branch)
    (variants : List (String × ValueType)) (progress : Progress restatement visiting state) :
    Agrees restatement (fun _ => True) (lowerUntagged first name variants branches)
      (lowerUntagged second name variants branches) state := by
  induction branches generalizing variants state with
  | nil => exact .pure trivial
  | cons branch rest inductionHypothesis =>
    obtain ⟨single, others⟩ := List.forall_mem_cons.mp alike
    exact (single _ state progress).bind fun type after _ kept =>
      inductionHypothesis others _ (progress.after kept)

variable (alike : ∀ part ∈ schema.parts, Alike restatement first second visiting part)

include alike

theorem lowerVariants_agrees (progress : Progress restatement visiting state) :
    Agrees restatement (fun _ => True) (lowerVariants first schema name)
      (lowerVariants second schema name) state := by
  have branches : ∀ branch ∈ schema.nonNullBranches,
      Alike restatement first second visiting branch :=
    fun branch isBranch => alike branch (mem_parts_of_nonNullBranches isBranch)
  unfold lowerVariants
  split
  · exact (lowerVersioned_agrees branches 0 progress).bind fun _ _ _ _ => .pure trivial
  · exact (lowerUntagged_agrees branches [] progress).bind fun _ _ _ _ => .pure trivial

theorem lowerAdditional_agrees (progress : Progress restatement visiting state) :
    Agrees restatement (fun _ => True) (lowerAdditional first schema name)
      (lowerAdditional second schema name) state := by
  unfold lowerAdditional
  match further : schema.additional with
  | some (.each values) =>
    have isPart : values ∈ schema.parts := Schema.mem_parts.mpr (Or.inr (Or.inr (Or.inl further)))
    exact (alike values isPart _ state progress).bind fun _ _ _ _ => .pure trivial
  | some (.allowed true) => exact Agrees.freeJson.bind fun _ _ _ _ => .pure trivial
  | some (.allowed false) => exact .pure trivial
  | none => exact .pure trivial

theorem lowerArray_agrees (progress : Progress restatement visiting state) :
    Agrees restatement (fun _ => True) (lowerArray context first schema hint)
      (lowerArray context second schema hint) state := by
  unfold lowerArray
  split
  · exact .freeJson
  · split
    · next items isItems =>
      exact (alike items (Schema.mem_parts.mpr (Or.inl isItems)) _ state progress).bind
        fun _ _ _ _ => .pure trivial
    · exact Agrees.freeJson.bind fun _ _ _ _ => .pure trivial

theorem lowerMap_agrees (progress : Progress restatement visiting state) :
    Agrees restatement (fun _ => True) (lowerMap context first schema hint)
      (lowerMap context second schema hint) state := by
  unfold lowerMap
  split
  · next values further =>
    have isPart : values ∈ schema.parts := Schema.mem_parts.mpr (Or.inr (Or.inr (Or.inl further)))
    split
    · exact .freeJson
    · exact (alike values isPart _ state progress).bind fun _ _ _ _ =>
        (Agrees.addImportIn _ _ _).bind fun _ _ _ _ => .pure trivial
  · exact .freeJson

theorem lowerContent_agrees (whole : schema.allOf = [])
    (progress : Progress restatement visiting state) (context : Context) (name : String) :
    Agrees restatement
      (fun pair => Concludes (fun _ => True) pair.1 ∧ Concludes (fun _ => True) pair.2)
      (lowerContent context first schema name) (lowerContent context second schema name) state := by
  have own : wholeOf context schema = .ok schema := if_pos (List.isEmpty_iff.mpr whole)
  have fields : Agrees restatement (fun _ => True) (lowerFieldsWith context first schema "")
      (lowerFieldsWith context second schema "") state :=
    lowerFieldsWith_agrees (by rw [own]; exact alike) "" progress
  refine fields.attempt.bind fun _ _ fieldsEnd kept => ?_
  refine (lowerAdditional_agrees alike (progress.after kept)).attempt.bind fun _ _ ends _ => ?_
  exact .pure ⟨fieldsEnd, ends⟩

/-- Structures are lowered alike under a name that is new to what is in progress. -/
theorem lowerStructure_agrees (whole : schema.allOf = [])
    (progress : Progress restatement visiting state)
    (new : name ∉ OrderedMap.keys state.inProgress) :
    Agrees restatement (fun _ => True) (lowerStructure context first schema name)
      (lowerStructure context second schema name) state := by
  rw [lowerStructure_eq, lowerStructure_eq]
  have content := lowerContent_agrees alike whole (progress.beginType new schema) context name
  have begins := Restatement.image_beginType progress.applies new schema
  refine (content.withinType begins).bind fun pair after ends _ => ?_
  unfold declareStructure
  refine (Agrees.settle ends.1).bind fun fields _ _ _ => ?_
  refine (Agrees.settle ends.2).bind fun additional _ _ _ => ?_
  split
  · exact (Agrees.addImport _).bind fun _ _ _ _ =>
      (Agrees.declare _ _).bind fun _ _ _ _ => .pure trivial
  · exact (Agrees.declare _ _).bind fun _ _ _ _ => .pure trivial

omit alike

/-- A claim gives a name that is not in progress. -/
theorem notMem_inProgress_of_claim (claimed : claim state hint schema = .new name) :
    name ∉ OrderedMap.keys state.inProgress := by
  have new := claim_new claimed
  rw [State.names_eq] at new
  exact fun pending => new (List.mem_append_left _ pending)

variable (overlooks : restatement.Overlooks schema)

include alike overlooks

theorem lowerObject_agrees (whole : schema.allOf = [])
    (progress : Progress restatement visiting state) :
    Agrees restatement (fun _ => True) (lowerObject context first schema hint)
      (lowerObject context second schema hint) state := by
  unfold lowerObject
  split
  · exact lowerMap_agrees alike progress
  · split
    · exact .freeJson
    · refine .look ?_
      rw [overlooks.claim_image progress.applies]
      cases claimed : claim state hint schema with
      | existing | forward => exact .pure trivial
      | new name =>
        exact lowerStructure_agrees alike whole progress (notMem_inProgress_of_claim claimed)

theorem lowerUnion_agrees (progress : Progress restatement visiting state) :
    Agrees restatement (fun _ => True) (lowerUnion context first schema hint)
      (lowerUnion context second schema hint) state := by
  unfold lowerUnion
  split
  · next single only =>
    have isPart : single ∈ schema.parts :=
      mem_parts_of_nonNullBranches (by rw [only]; exact List.mem_cons_self)
    exact (alike single isPart hint state progress).bind fun _ _ _ _ => .pure trivial
  · exact .freeJson
  · split
    · exact .freeJson
    · refine .look ?_
      rw [overlooks.claim_image progress.applies]
      cases claimed : claim state hint schema with
      | existing | forward => exact .pure trivial
      | new name =>
        have new := notMem_inProgress_of_claim claimed
        have variants : Agrees restatement (fun _ => True) (lowerVariants first schema name)
            (lowerVariants second schema name) (beginType name schema state) :=
          lowerVariants_agrees alike (progress.beginType new schema)
        have begins := Restatement.image_beginType progress.applies new schema
        exact (variants.withinType begins).bind fun _ _ _ _ =>
          (Agrees.declare _ _).bind fun _ _ _ _ => .pure trivial

theorem lowerPlain_agrees (whole : schema.allOf = [])
    (progress : Progress restatement visiting state) :
    Agrees restatement (fun _ => True) (lowerPlain context first schema hint)
      (lowerPlain context second schema hint) state := by
  rw [lowerPlain_eq, lowerPlain_eq]
  cases form schema with
  | union => exact lowerUnion_agrees alike overlooks progress
  | object => exact lowerObject_agrees alike overlooks whole progress
  | array => exact lowerArray_agrees alike progress
  | textChoice =>
    show Agrees _ _ (lowerTextChoice context schema hint) (lowerTextChoice context schema hint) _
    unfold lowerTextChoice
    split
    · exact .pure trivial
    · refine .look ?_
      rw [overlooks.claim_image progress.applies]
      cases claim state hint schema with
      | existing | forward => exact .pure trivial
      | new name => exact (Agrees.declare _ _).bind fun _ _ _ _ => .pure trivial
  | text =>
    show Agrees _ _ (lowerText context schema) (lowerText context schema) state
    unfold lowerText
    split
    · exact (Agrees.addImportIn _ _ _).bind fun _ _ _ _ =>
        (Agrees.addImportIn _ _ _).bind fun _ _ _ _ => .pure trivial
    · exact (Agrees.addImportIn _ _ _).bind fun _ _ _ _ => .pure trivial
  | integer => exact .pure trivial
  | number => exact .pure trivial
  | boolean => exact .pure trivial
  | unknown type => exact .settle nofun
  | free => exact .freeJson

omit alike overlooks

/-- What a step asks the lowerings of other schemas for: those inside a schema that is neither a
reference nor merged, its component, and its parts in one. -/
structure Asks (context : Context) (restatement : Restatement) (first second : Recur)
    (visiting : List String) (schema : Schema) : Prop where
  parts : schema.allOf = [] → ∀ part ∈ schema.parts, Alike restatement first second visiting part
  component : ∀ component target, schema.referenceName? = some component →
    component ∉ visiting → context.spec.schema? component = some target →
      Alike restatement first second (component :: visiting) target
  whole : schema.allOf ≠ [] →
    Concludes (Alike restatement first second visiting) (mergeAllOf context.spec schema)

/-- One step is lowered alike for a schema that overlooks the difference, if all it asks for is. -/
theorem lowerStep_agrees (overlooks : restatement.Overlooks schema)
    (asks : Asks context restatement first second visiting schema) :
    Alike restatement (lowerStep context first) (lowerStep context second) visiting schema := by
  intro hint state progress
  unfold lowerStep
  cases named : schema.referenceName? with
  | some component =>
    simp only
    unfold lowerComponent
    refine .look ?_
    rw [Restatement.isInProgress_image]
    show Agrees _ _ (if (state.visiting.contains component || _) = true then _ else _)
      (if (state.visiting.contains component || _) = true then _ else _) _
    split
    · exact .pure trivial
    · next closed =>
      have new : component ∉ visiting := by
        rw [← progress.visiting]
        exact fun member => closed (by simp [member])
      cases found : context.spec.schema? component with
      | none => exact .settle nofun
      | some target =>
        refine Agrees.withinComponent (asks.component component target named new found _ _ ?_)
        exact ⟨progress.applies, congrArg (component :: ·) progress.visiting⟩
  | none =>
    simp only
    split
    · exact .freeJson
    · split
      · next several =>
        have whole := asks.whole (by simpa using several)
        exact (Agrees.settle whole).bind fun _ _ holds kept => holds hint _ (progress.after kept)
      · next single =>
        have own : schema.allOf = [] := by simpa using single
        exact (lowerPlain_agrees (asks.parts own) overlooks own progress).bind
          fun _ _ _ _ => .pure trivial

end Steps

end ServiceForge.Lowering
