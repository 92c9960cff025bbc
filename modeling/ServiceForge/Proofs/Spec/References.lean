/-
This file proves when the references that are left in a loaded document are found by
those who read it. The references close cycles, and a reader takes what stands after the
beginning of a reference for the name of a component. This finds the component if each
reference on a cycle is the one to a component schema whose name needs no escaping. It
does not where the name is escaped: the reference keeps the escaped name, under which
there is no component.
-/

import ServiceForge.Proofs.Document.Untyped
import ServiceForge.Proofs.Lowering.Components
import ServiceForge.Proofs.Reference.Remaining
import ServiceForge.Proofs.Spec.Reading

namespace ServiceForge.OpenApi

open ServiceForge.OpenApi.Reference

/-! ### Loaded documents -/

theorem Spec.ofText_eq {text : String} {document : Json}
    (parsed : Document.Untyped.ofText text = .ok document) :
    Spec.ofText text = Spec.ofJson document := by
  rw [Spec.ofText, parsed]
  rfl

/-- A loaded document is read from what the document of the text is resolved to. -/
theorem Spec.ofJson_ok {document : Json} {spec : Spec} (loaded : Spec.ofJson document = .ok spec) :
    ∃ resolved, resolve document = .ok resolved ∧ ReadFrom spec resolved := by
  unfold Spec.ofJson at loaded
  split at loaded
  · split at loaded
    · cases loaded
    · split at loaded
      · next resolved ok =>
        cases isRead : Document.ofJson Spec.read resolved with
        | error problem =>
          rw [isRead] at loaded
          cases loaded
        | ok other =>
          rw [isRead] at loaded
          cases loaded
          exact ⟨resolved, ok, Spec.readFrom isRead⟩
      · cases loaded
  · cases loaded

/-! ### References on cycles -/

/-- A reference on a cycle stands in the document. -/
theorem mem_all_of_onCycle {document : Json} {reference : String}
    (cycle : OnCycle document reference) : reference ∈ all document := by
  obtain ⟨last, -, target, isTarget, mentions⟩ := Relation.TransGen.tail'_iff.mp cycle
  exact all_subset_of_target isTarget (mem_all_of_mentions mentions)

/-- The reference to a component schema by a name that needs no escaping. -/
def IsPlainName (reference name : String) : Prop :=
  escape name = name ∧ reference = ofComponent "schemas" name

theorem IsPlainName.afterStart? {reference name : String} (plainName : IsPlainName reference name) :
    Text.afterStart? Schema.componentStart reference = some name := by
  obtain ⟨unescaped, rfl⟩ := plainName
  simp [ofComponent, unescaped, Text.afterStart?, Text.startsWith, Schema.componentStart]

section Loaded

variable {text : String} {document : Json} {spec : Spec}
  (parsed : Document.Untyped.ofText text = .ok document) (loaded : Spec.ofText text = .ok spec)
  (isPlain : plain document) (sealed : isSealed document)

include parsed loaded isPlain sealed

/-- The local references in a loaded document close cycles. -/
theorem onCycle_of_holds {schema : Schema} (holds : spec.Holds schema) {reference : String}
    (own : schema.reference = some reference) (inside : isLocal reference = true) :
    OnCycle document reference := by
  obtain ⟨resolved, ok, readFrom⟩ := Spec.ofJson_ok (Spec.ofText_eq parsed ▸ loaded)
  have orderly : Orderly document :=
    ⟨Document.Untyped.isKeyed_ofText parsed, isPlain, sealed⟩
  obtain ⟨top, isTop, holds⟩ := holds
  have refers : top.Refers reference := ⟨schema, holds, own⟩
  rcases List.mem_append.mp isTop with isPath | isComponent
  · obtain ⟨source, found, covered⟩ := readFrom.paths
    exact onCycle_of_member orderly ok (by decide) found (covered top isPath reference refers) inside
  · obtain ⟨name, listed, entries, held, entry, isEntry, covered⟩ :=
      readFrom.components top isComponent
    exact onCycle_of_entry orderly ok listed held isEntry
      (covered top List.mem_cons_self reference refers) inside

omit isPlain sealed in
/-- A component schema to which a reference on a cycle leads is there in the loaded document. -/
theorem mem_keys_of_isPlainName {reference name : String} (cycle : OnCycle document reference)
    (plainName : IsPlainName reference name) :
    name ∈ OrderedMap.keys spec.components.schemas := by
  obtain ⟨resolved, ok, readFrom⟩ := Spec.ofJson_ok (Spec.ofText_eq parsed ▸ loaded)
  obtain ⟨-, rfl⟩ := plainName
  obtain ⟨results, given, isName⟩ := mem_keys_of_onCycle ok (by decide) cycle fun result given => by
    obtain ⟨entries, same, -⟩ := readFrom.names result given
    exact ⟨entries, same⟩
  obtain ⟨entries, same, names⟩ := readFrom.names _ given
  cases same
  exact names name isName

/-- The references that are left in a loaded document close cycles. If the references on cycles are
those to component schemas by names that need no escaping, each is found by its name, and no
schema of the document is lowered to a failure for a missing component. -/
theorem references_found
    (named : ∀ reference, OnCycle document reference → ∃ name, IsPlainName reference name) :
    ∀ schema, spec.Holds schema →
      (∀ reference, schema.reference = some reference → isLocal reference = true →
        OnCycle document reference ∧
          ∃ name ∈ OrderedMap.keys spec.components.schemas, schema.referenceName? = some name) ∧
      ∀ dialect hint state name,
        (Lowering.lower ⟨spec, dialect⟩ schema hint state).1 ≠ .error (.componentNotFound name) ∧
        (Lowering.lowerFields ⟨spec, dialect⟩ schema hint state).1 ≠
          .error (.componentNotFound name) := by
  have found {schema : Schema} (holds : spec.Holds schema) {reference : String}
      (own : schema.reference = some reference) (inside : isLocal reference = true) :
      OnCycle document reference ∧ Lowering.NamesComponent spec reference := by
    have cycle := onCycle_of_holds parsed loaded isPlain sealed holds own inside
    obtain ⟨name, plainName⟩ := named reference cycle
    exact ⟨cycle, name, mem_keys_of_isPlainName parsed loaded cycle plainName,
      plainName.afterStart?⟩
  have findable {schema : Schema} (holds : spec.Holds schema) : Lowering.Findable spec schema := by
    rintro reference ⟨part, isPart, own⟩ inside
    obtain ⟨top, isTop, above⟩ := holds
    exact (found ⟨top, isTop, above.trans isPart⟩ own inside).2
  have complete (name : String) (schema : Schema) (present : spec.schema? name = some schema) :
      Lowering.Findable spec schema := by
    refine findable ⟨schema, List.mem_append_right _ ?_, .refl⟩
    refine List.mem_append_left _ (List.mem_append_left _ ?_)
    exact List.mem_map_of_mem (OrderedMap.mem_of_get? present)
  intro schema holds
  refine ⟨fun reference own inside => ?_, fun dialect hint state name => ⟨fun failed => ?_,
    fun failed => ?_⟩⟩
  · obtain ⟨cycle, name, isName, isAfter⟩ := found holds own inside
    refine ⟨cycle, name, isName, ?_⟩
    rw [Schema.referenceName?, own, Option.bind_some, isAfter]
  · have finds := @Lowering.lower_finding ⟨spec, dialect⟩ complete _ _ _ _ _ (findable holds)
      (Prod.eta (Lowering.lower ⟨spec, dialect⟩ schema hint state)).symm
    rw [failed] at finds
    exact finds name rfl
  · have finds := @Lowering.lowerFields_finds ⟨spec, dialect⟩ complete _ _ _ _ _ (findable holds)
      (Prod.eta (Lowering.lowerFields ⟨spec, dialect⟩ schema hint state)).symm
    rw [failed] at finds
    exact finds name rfl

end Loaded

/-! ### A name that needs no escaping -/

/-- A schema of lists whose items are such lists. -/
def nestedText : String :=
  "openapi: 3.1.0\n" ++
  "paths: \x7b\x7d\n" ++
  "components:\n" ++
  "  schemas:\n" ++
  "    A:\n" ++
  "      items:\n" ++
  "        $ref: \"#/components/schemas/A\"\n"

theorem references_found_nested :
    ∃ document spec, Document.Untyped.ofText nestedText = .ok document ∧
      Spec.ofText nestedText = .ok spec ∧ ∀ schema, spec.Holds schema →
        (∀ reference, schema.reference = some reference → isLocal reference = true →
          OnCycle document reference ∧
            ∃ name ∈ OrderedMap.keys spec.components.schemas, schema.referenceName? = some name) ∧
        ∀ dialect hint state name,
          (Lowering.lower ⟨spec, dialect⟩ schema hint state).1 ≠
              .error (.componentNotFound name) ∧
          (Lowering.lowerFields ⟨spec, dialect⟩ schema hint state).1 ≠
            .error (.componentNotFound name) := by
  have read : ((Document.Untyped.ofText nestedText).toOption.map fun document =>
      (plain document, isSealed document, all document, (Spec.ofJson document).toOption.isSome)) =
        some (true, true, ["#/components/schemas/A"], true) := by decide +kernel
  cases parsed : Document.Untyped.ofText nestedText with
  | error problem =>
    rw [parsed] at read
    cases read
  | ok document =>
    rw [parsed] at read
    obtain ⟨isPlain, sealed, references, loads⟩ : plain document = true ∧
        isSealed document = true ∧ all document = ["#/components/schemas/A"] ∧
          (Spec.ofJson document).toOption.isSome = true := by
      simpa only [Except.toOption, Option.map_some, Option.some.injEq, Prod.mk.injEq] using read
    cases loaded : Spec.ofJson document with
    | error problem =>
      rw [loaded] at loads
      cases loads
    | ok spec =>
      have isLoaded : Spec.ofText nestedText = .ok spec := (Spec.ofText_eq parsed).trans loaded
      refine ⟨document, spec, rfl, isLoaded,
        references_found parsed isLoaded isPlain sealed fun reference cycle => ?_⟩
      have listed := mem_all_of_onCycle cycle
      rw [references] at listed
      obtain rfl := List.mem_singleton.mp listed
      exact ⟨"A", by decide, by decide⟩

/-! ### A name that is escaped -/

/-- The same with a slash in the name of the schema. -/
def slashText : String :=
  "openapi: 3.1.0\n" ++
  "paths: \x7b\x7d\n" ++
  "components:\n" ++
  "  schemas:\n" ++
  "    A/B:\n" ++
  "      items:\n" ++
  "        $ref: \"#/components/schemas/A~1B\"\n"

/-- The reference to a component by an escaped name is left in the loaded document, and names no
component there. -/
theorem reference_not_found_slash :
    ∃ spec schema reference, Spec.ofText slashText = .ok spec ∧ spec.Holds schema ∧
      schema.reference = some reference ∧ isLocal reference = true ∧
      (∀ name ∈ OrderedMap.keys spec.components.schemas, schema.referenceName? ≠ some name) ∧
      ∃ name, (Lowering.lower ⟨spec, .sdk⟩ schema "a" {}).1 = .error (.componentNotFound name) := by
  have read : ((Spec.ofText slashText).toOption.bind fun spec =>
      (spec.schema? "A/B").bind fun whole => whole.items.map fun schema =>
        (OrderedMap.keys spec.components.schemas, schema.reference, schema.referenceName?)) =
        some (["A/B"], some "#/components/schemas/A~1B", some "A~1B") := by decide +kernel
  cases loaded : Spec.ofText slashText with
  | error problem =>
    rw [loaded] at read
    cases read
  | ok spec =>
    rw [loaded, Except.toOption, Option.bind_some] at read
    obtain ⟨whole, component, read⟩ := Option.bind_eq_some_iff.mp read
    obtain ⟨schema, isItems, read⟩ := Option.map_eq_some_iff.mp read
    obtain ⟨keys, own, named⟩ : OrderedMap.keys spec.components.schemas = ["A/B"] ∧
        schema.reference = some "#/components/schemas/A~1B" ∧
          schema.referenceName? = some "A~1B" := by
      simpa only [Prod.mk.injEq] using read
    have isWhole : whole ∈ spec.components.schemas.values :=
      List.mem_map_of_mem (OrderedMap.mem_of_get? component)
    have holds : spec.Holds schema :=
      ⟨whole, List.mem_append_right _ (List.mem_append_left _ (List.mem_append_left _ isWhole)),
        .single (Schema.mem_parts.mpr (Or.inl isItems))⟩
    have absent : spec.schema? "A~1B" = none :=
      OrderedMap.get?_eq_none.mpr (by rw [keys]; decide)
    refine ⟨spec, schema, _, rfl, holds, own, by decide, ?_, "A~1B", ?_⟩
    · rw [keys, named]
      decide
    · rw [Lowering.lower_missing named absent List.not_mem_nil rfl]

end ServiceForge.OpenApi
