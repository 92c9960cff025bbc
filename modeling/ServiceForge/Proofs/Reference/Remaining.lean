/-
This file proves which local references are left in what a document is resolved to.
They close cycles: following the references of the document from one of them leads to
it again. Two things stand in the way of this, and are excluded: a member `$ref` that
becomes a text only when it is rewritten itself, and a local reference beside one to
another document, which is left as it is.
-/

import ServiceForge.Proofs.Json
import ServiceForge.Proofs.Reference.Parts
import ServiceForge.Proofs.Reference.Outcome

namespace ServiceForge.OpenApi.Reference

/-! ### Documents in which every reference is looked at -/

/-- Whether no local reference stands in a node that refers to another document. -/
def isSealed (document : Json) : Bool :=
  document.everywhere fun source => !isExternal source || (all source).all (!isLocal ·)

/-- Documents in which resolving replaces every local reference that closes no cycle. -/
structure Orderly (document : Json) : Prop where
  keyed : document.isKeyed
  isPlain : plain document
  isSealed : isSealed document

theorem everywhere_of_step {check : Json → Bool} {source value : Json} {step : String}
    (holds : source.everywhere check) (found : step? source step = some value) :
    value.everywhere check := by
  cases source with
  | object members =>
    exact (Json.everywhere_object.mp holds).2 _ (OrderedMap.mem_of_get? found)
  | array items =>
    obtain ⟨position, _, found⟩ := Option.bind_eq_some_iff.mp found
    exact (Json.everywhere_array.mp holds).2 value (List.mem_of_getElem? found)
  | _ => cases found

theorem Orderly.step {source value : Json} {step : String} (orderly : Orderly source)
    (found : step? source step = some value) : Orderly value where
  keyed := everywhere_of_step orderly.keyed found
  isPlain := plain_of_step orderly.isPlain found
  isSealed := everywhere_of_step orderly.isSealed found

theorem Orderly.target {document target : Json} {reference : String} (orderly : Orderly document)
    (found : target? document reference = some target) : Orderly target :=
  target?_induction Orderly.step orderly found

theorem Orderly.item {items : List Json} {item : Json} {position : Nat}
    (orderly : Orderly (.array items)) (found : items[position]? = some item) : Orderly item where
  keyed := (Json.everywhere_array.mp orderly.keyed).2 item (List.mem_of_getElem? found)
  isPlain := plain_of_item orderly.isPlain found
  isSealed := (Json.everywhere_array.mp orderly.isSealed).2 item (List.mem_of_getElem? found)

theorem Orderly.not_isLocal {source : Json} {reference : String} (orderly : Orderly source)
    (leaf : isExternal source) (listed : reference ∈ all source) :
    isLocal reference = false := by
  have nowhere := Json.check_of_everywhere orderly.isSealed
  rw [leaf, Bool.not_true, Bool.false_or, List.all_eq_true] at nowhere
  simpa using nowhere reference listed

/-! ### References that are left -/

/-- What stands for the members of an object has no references but those in what stands for one
of them. -/
theorem mem_all_results {document : Json} {progress : Progress}
    {members results : List (String × Json)} {reference : String}
    (orderly : Orderly (.object members)) (noReference : ofMembers? members = none)
    (keys : OrderedMap.keys results = OrderedMap.keys members)
    (each : ∀ key value result, OrderedMap.get? members key = some value →
      OrderedMap.get? results key = some result → Represents document progress value result)
    (listed : reference ∈ all (.object results)) :
    ∃ key value result, OrderedMap.get? members key = some value ∧
      OrderedMap.get? results key = some result ∧ reference ∈ all result := by
  rw [all, ofMembers?_results orderly.isPlain noReference keys each] at listed
  obtain ⟨⟨key, result⟩, held, inside⟩ := mem_allInMembers.mp listed
  have distinct : (OrderedMap.keys results).Nodup :=
    keys ▸ (Json.isKeyed_object.mp orderly.keyed).1
  have given := OrderedMap.get?_of_mem distinct held
  have isKey : key ∈ OrderedMap.keys members := by
    rw [← keys, ← OrderedMap.isSome_get?, given]
    rfl
  obtain ⟨value, found⟩ := Option.isSome_iff_exists.mp ((OrderedMap.isSome_get? _ _).mpr isKey)
  exact ⟨key, value, result, found, given, inside⟩

/-- The local references in what stands for a node close cycles. -/
theorem Represents.onCycle_of_mem_all {document source value : Json} {progress : Progress}
    {reference : String} (whole : Orderly document) (orderly : Orderly source)
    (represents : Represents document progress source value) (listed : reference ∈ all value)
    (inside : isLocal reference) : OnCycle document reference := by
  induction represents with
  | left named _ cycle =>
    rw [node, all, show ofMembers? [("$ref", .string _)] = some _ from rfl] at listed
    obtain rfl : reference = _ := by simpa [allInMembers, all] using listed
    exact cycle
  | kept _ _ found _ inductionHypothesis => exact inductionHypothesis (whole.target found) listed
  | external leaf =>
    rw [orderly.not_isLocal leaf listed] at inside
    cases inside
  | @scalar source leaf =>
    cases source with
    | object members => cases leaf
    | array items => cases leaf
    | _ => cases listed
  | array length _ inductionHypothesis =>
    rw [all] at listed
    obtain ⟨result, isResult, listed⟩ := mem_allInItems.mp listed
    obtain ⟨position, within, rfl⟩ := List.getElem_of_mem isResult
    have found := List.getElem?_eq_getElem (length ▸ within)
    exact inductionHypothesis position _ _ found (List.getElem?_eq_getElem within)
      (orderly.item found) listed
  | object noReference keys each inductionHypothesis =>
    obtain ⟨key, value, result, found, given, listed⟩ :=
      mem_all_results orderly noReference keys each listed
    have isStep : step? (.object _) key = some value := found
    exact inductionHypothesis key value result found given (orderly.step isStep) listed

/-! ### Resolved documents -/

/-- Only an object, or a reference to one, becomes an object. -/
theorem Represents.exists_members {document source : Json} {progress : Progress}
    {results : List (String × Json)}
    (represents : Represents document progress source (.object results)) :
    ∃ members, source = .object members := by
  cases source with
  | object members => exact ⟨members, rfl⟩
  | _ =>
    cases represents with
    | left named => cases named
    | kept named => cases named

section Resolved

variable {document resolved : Json} {progress : Progress}
  (becomes : Becomes (Represents document progress) progress.Keeps document resolved)

include becomes

/-- A member of a resolved document was made of a member of the document. -/
theorem Becomes.member_of_result {key : String} {result : Json}
    (given : resolved.get? key = some result) :
    ∃ source, document.get? key = some source ∧
      MemberBecomes (Represents document progress) progress.Keeps key source result := by
  cases resolved with
  | object results =>
    cases document with
    | object members =>
      obtain ⟨results, same, entrywise⟩ := becomes
      cases same
      exact entrywise.get?_of_result given
    | _ =>
      obtain ⟨members, same⟩ := Represents.exists_members becomes
      cases same
  | _ => cases given

/-- A section of a resolved document was made of a section of the document. -/
theorem Becomes.section_of_result {name : String} {result : Json}
    (given : section? resolved name = some result) :
    ∃ content, section? document name = some content ∧
      SectionBecomes (Represents document progress) progress.Keeps name content result := by
  obtain ⟨components, isComponents, inside⟩ := Option.bind_eq_some_iff.mp given
  obtain ⟨source, found, ofComponents⟩ := becomes.member_of_result isComponents
  unfold MemberBecomes at ofComponents
  rw [if_pos rfl] at ofComponents
  cases components with
  | object results =>
    cases source with
    | object content =>
      obtain ⟨results, same, sectionwise⟩ := ofComponents
      cases same
      obtain ⟨content, held, ofSection⟩ := sectionwise.get?_of_result inside
      refine ⟨content, ?_, ofSection⟩
      rw [section?, found, Option.bind_some]
      exact held
    | _ =>
      obtain ⟨members, same⟩ := Represents.exists_members ofComponents
      cases same
  | _ => cases inside

theorem Becomes.entries_of_result {name : String} {results : List (String × Json)}
    (listed : name ∈ sections) (given : section? resolved name = some (.object results)) :
    ∃ entries, section? document name = some (.object entries) ∧
      Entrywise (fun key _ result => progress.Keeps (ofComponent name key) result)
        entries results := by
  obtain ⟨content, held, ofSection⟩ := becomes.section_of_result given
  cases content with
  | object entries =>
    obtain ⟨results, same, entrywise⟩ := (sectionBecomes_of_mem listed).mp ofSection
    cases same
    exact ⟨entries, held, entrywise⟩
  | _ =>
    obtain ⟨members, same⟩ := Represents.exists_members ofSection
    cases same

end Resolved

section Orderly

variable {document resolved : Json} (orderly : Orderly document)
  (ok : resolve document = .ok resolved)

include orderly ok

/-- The local references in a resolved document close cycles, outside of its components. -/
theorem onCycle_of_member {key reference : String} {value : Json} (other : key ≠ "components")
    (given : resolved.get? key = some value) (listed : reference ∈ all value)
    (inside : isLocal reference) : OnCycle document reference := by
  obtain ⟨after, ran⟩ := resolve_ok ok
  obtain ⟨-, becomes⟩ := resolveDocument_becomes ran
  obtain ⟨source, found, ofMember⟩ := becomes.member_of_result given
  unfold MemberBecomes at ofMember
  rw [if_neg other] at ofMember
  exact ofMember.onCycle_of_mem_all orderly (orderly.step (step?_of_get? found)) listed inside

/-- The local references in the entries of the components close cycles. -/
theorem onCycle_of_entry {name reference : String} {results : List (String × Json)}
    {entry : String × Json} (isSection : name ∈ sections)
    (given : section? resolved name = some (.object results)) (isEntry : entry ∈ results)
    (listed : reference ∈ all entry.2) (inside : isLocal reference) :
    OnCycle document reference := by
  obtain ⟨after, ran⟩ := resolve_ok ok
  obtain ⟨idle, becomes⟩ := resolveDocument_becomes ran
  obtain ⟨entries, held, entrywise⟩ := becomes.entries_of_result isSection given
  obtain ⟨components, found, isContent⟩ := Option.bind_eq_some_iff.mp held
  have keyed := ((orderly.step (step?_of_get? found)).step (step?_of_get? isContent)).keyed
  have distinct : (OrderedMap.keys results).Nodup :=
    entrywise.keys ▸ (Json.isKeyed_object.mp keyed).1
  obtain ⟨_, _, kept⟩ := entrywise.get?_of_result (OrderedMap.get?_of_mem distinct isEntry)
  obtain ⟨target, isTarget, represents⟩ := idle.sound.represents _ entry.2 kept
  exact represents.onCycle_of_mem_all orderly (orderly.target isTarget) listed inside

omit orderly in
/-- A component to which there is a reference on a cycle is an entry of its section in the resolved
document, if that is an object. -/
theorem mem_keys_of_onCycle {section_ name : String} (isSection : section_ ∈ sections)
    (cycle : OnCycle document (ofComponent section_ name))
    (mapping : ∀ result, section? resolved section_ = some result →
      ∃ results, result = .object results) :
    ∃ results, section? resolved section_ = some (.object results) ∧
      name ∈ OrderedMap.keys results := by
  obtain ⟨after, ran⟩ := resolve_ok ok
  obtain ⟨-, becomes⟩ := resolveDocument_becomes ran
  obtain ⟨_, ⟨target, isTarget, -⟩, -⟩ := Relation.TransGen.head'_iff.mp cycle
  rw [target?_eq_bind_section? isSection] at isTarget
  obtain ⟨content, held, found⟩ := Option.bind_eq_some_iff.mp isTarget
  obtain ⟨result, given, -⟩ := becomes.ofSection held
  obtain ⟨results, rfl⟩ := mapping result given
  obtain ⟨entries, same, entrywise⟩ := becomes.entries_of_result isSection given
  cases held.symm.trans same
  refine ⟨results, given, ?_⟩
  rw [entrywise.keys, ← OrderedMap.isSome_get?, show OrderedMap.get? entries name = some target
    from found]
  rfl

end Orderly

end ServiceForge.OpenApi.Reference
