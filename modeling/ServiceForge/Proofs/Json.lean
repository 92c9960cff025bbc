/-
This file says what holds at every node of a JSON document. Documents owe one such
property to their syntax: no object has one key twice, so the members of an object are
what its keys lead to, and a document is equal to itself.
-/

import ServiceForge.Json.Basic

namespace ServiceForge.Json

/-- What holds of the scalars, and of a collection if it holds of what is in it, holds of every
document. -/
@[elab_as_elim]
theorem inductionOn {motive : Json → Prop} (null : motive .null) (bool : ∀ value, motive (.bool value))
    (number : ∀ value, motive (.number value)) (string : ∀ value, motive (.string value))
    (array : ∀ items, (∀ item ∈ items, motive item) → motive (.array items))
    (object : ∀ members : List (String × Json), (∀ member ∈ members, motive member.2) →
      motive (.object members)) (document : Json) : motive document := by
  match document with
  | .null => exact null
  | .bool value => exact bool value
  | .number value => exact number value
  | .string value => exact string value
  | .array items =>
    exact array items fun item _ => inductionOn null bool number string array object item
  | .object members =>
    exact object members fun member _ => inductionOn null bool number string array object member.2
termination_by sizeOf document
decreasing_by
  · have smaller := List.sizeOf_lt_of_mem ‹item ∈ items›
    simp only [Json.array.sizeOf_spec]
    omega
  · have smaller := List.sizeOf_lt_of_mem ‹member ∈ members›
    have part : sizeOf member.2 < sizeOf member := by
      cases member
      simp only [Prod.mk.sizeOf_spec]
      omega
    simp only [Json.object.sizeOf_spec]
    omega

mutual

/-- Whether a check holds of a document and of everything in it. -/
def everywhere (check : Json → Bool) : Json → Bool
  | .object members => check (.object members) && everywhereInMembers check members
  | .array items => check (.array items) && everywhereInItems check items
  | other => check other

/-- Whether a check holds everywhere in the items of an array. -/
def everywhereInItems (check : Json → Bool) : List Json → Bool
  | [] => true
  | item :: rest => everywhere check item && everywhereInItems check rest

/-- Whether a check holds everywhere in the members of an object. -/
def everywhereInMembers (check : Json → Bool) : List (String × Json) → Bool
  | [] => true
  | (_, value) :: rest => everywhere check value && everywhereInMembers check rest

end

section Everywhere

variable {check : Json → Bool}

theorem everywhereInItems_iff {items : List Json} :
    everywhereInItems check items = true ↔ ∀ item ∈ items, everywhere check item = true := by
  induction items with
  | nil => simp [everywhereInItems]
  | cons item rest inductionHypothesis => simp [everywhereInItems, inductionHypothesis]

theorem everywhereInMembers_iff {members : List (String × Json)} :
    everywhereInMembers check members = true ↔
      ∀ member ∈ members, everywhere check member.2 = true := by
  induction members with
  | nil => simp [everywhereInMembers]
  | cons member rest inductionHypothesis => simp [everywhereInMembers, inductionHypothesis]

theorem everywhere_object {members : List (String × Json)} :
    everywhere check (.object members) = true ↔
      check (.object members) = true ∧ ∀ member ∈ members, everywhere check member.2 = true := by
  rw [everywhere, Bool.and_eq_true, everywhereInMembers_iff]

theorem everywhere_array {items : List Json} :
    everywhere check (.array items) = true ↔
      check (.array items) = true ∧ ∀ item ∈ items, everywhere check item = true := by
  rw [everywhere, Bool.and_eq_true, everywhereInItems_iff]

theorem check_of_everywhere {document : Json} (holds : document.everywhere check) :
    check document := by
  cases document with
  | object members => exact (everywhere_object.mp holds).1
  | array items => exact (everywhere_array.mp holds).1
  | _ => exact holds

end Everywhere

/-! ### Distinct keys -/

/-- Whether a value is no object with a key twice. -/
def hasDistinctKeys : Json → Bool
  | .object members => (OrderedMap.keys members).Nodup
  | _ => true

/-- Whether the keys of each object in a document are distinct. -/
def isKeyed (document : Json) : Bool := document.everywhere hasDistinctKeys

theorem isKeyed_object {members : List (String × Json)} :
    isKeyed (.object members) = true ↔
      (OrderedMap.keys members).Nodup ∧ ∀ member ∈ members, isKeyed member.2 = true := by
  rw [isKeyed, everywhere_object, hasDistinctKeys, decide_eq_true_iff]
  rfl

section Members

variable {members : List (String × Json)} {member : String × Json}

theorem isKeyed_of_mem (keyed : isKeyed (.object members)) (held : member ∈ members) :
    isKeyed member.2 := (isKeyed_object.mp keyed).2 member held

/-- The key of a member leads to its value. -/
theorem get?_of_mem (keyed : isKeyed (.object members)) (held : member ∈ members) :
    OrderedMap.get? members member.1 = some member.2 :=
  OrderedMap.get?_of_mem (isKeyed_object.mp keyed).1 held

end Members

/-! ### A document equals itself -/

theorem equalItems_self {items : List Json} (each : ∀ item ∈ items, item.equal item = true) :
    equalItems items items = true := by
  induction items with
  | nil => rfl
  | cons item rest inductionHypothesis =>
    obtain ⟨first, others⟩ := List.forall_mem_cons.mp each
    rw [equalItems, first, inductionHypothesis others]
    rfl

theorem equalMembers_of_subset {members whole : List (String × Json)}
    (distinct : (OrderedMap.keys whole).Nodup) (inside : members ⊆ whole)
    (each : ∀ member ∈ members, member.2.equal member.2 = true) :
    equalMembers members whole = true := by
  induction members with
  | nil => rfl
  | cons member rest inductionHypothesis =>
    obtain ⟨key, value⟩ := member
    obtain ⟨first, others⟩ := List.forall_mem_cons.mp each
    have found : List.lookup key whole = some value :=
      OrderedMap.get?_of_mem distinct (inside List.mem_cons_self)
    have rest := inductionHypothesis (List.cons_subset.mp inside).2 others
    rw [equalMembers, found, rest, Bool.and_true]
    exact first

theorem equal_self (document : Json) (keyed : document.isKeyed = true) :
    document.equal document = true := by
  induction document using inductionOn with
  | null => rfl
  | bool value => simp [equal]
  | number value => simp [equal, Number.equal_self]
  | string value => simp [equal]
  | array items each =>
    rw [equal]
    exact equalItems_self fun item member =>
      each item member ((everywhere_array.mp keyed).2 item member)
  | object members each =>
    obtain ⟨distinct, inside⟩ := isKeyed_object.mp keyed
    rw [equal, beq_self_eq_true, Bool.true_and]
    exact equalMembers_of_subset distinct (List.Subset.refl _) fun member held =>
      each member held (inside member held)

end ServiceForge.Json
