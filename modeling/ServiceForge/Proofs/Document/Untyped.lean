/-
This file proves that a document read from a text has no object with one key twice, and
that a document is read from a node that has its value. Keys that differ in the text may
become the same; the value of the last one is kept.
-/

import ServiceForge.Document.Untyped
import ServiceForge.Proofs.Except
import ServiceForge.Proofs.Json

namespace ServiceForge.Document.Untyped

theorem isKeyed_jsonOfAtom (atom : Atom) : (jsonOfAtom atom).isKeyed := by
  cases atom <;> rfl

mutual

theorem isKeyed_ofNode {node : Yaml.Node} {document : Json} (ok : ofNode node = .ok document) :
    document.isKeyed := by
  match node with
  | .scalar tag style text =>
    unfold ofNode at ok
    obtain ⟨atom, -, returned⟩ := bind_eq_ok.mp ok
    cases returned
    exact isKeyed_jsonOfAtom atom
  | .sequence tag nodes =>
    unfold ofNode at ok
    obtain ⟨_, -, ok⟩ := bind_eq_ok.mp ok
    obtain ⟨items, read, returned⟩ := bind_eq_ok.mp ok
    cases returned
    exact Json.everywhere_array.mpr ⟨rfl, isKeyed_ofItems read⟩
  | .mapping tag nodes =>
    unfold ofNode at ok
    obtain ⟨_, -, ok⟩ := bind_eq_ok.mp ok
    obtain ⟨entries, read, ok⟩ := bind_eq_ok.mp ok
    dsimp only at ok
    split at ok
    · obtain ⟨members, converted, returned⟩ := bind_eq_ok.mp ok
      cases returned
      refine Json.isKeyed_object.mpr ⟨OrderedMap.nodup_keys_ofEntries members, ?_⟩
      intro member held
      -- A member has the value of an entry, whatever became of its key.
      obtain ⟨entry, isEntry, renamed⟩ := (mem_mapM converted).mp (OrderedMap.mem_of_mem_ofEntries held)
      obtain ⟨name, -, same⟩ := bind_eq_ok.mp renamed
      cases same
      exact isKeyed_ofEntries read entry isEntry
    · obtain ⟨_, failed, -⟩ := bind_eq_ok.mp ok
      cases failed

theorem isKeyed_ofItems {nodes : List Yaml.Node} {items : List Json}
    (ok : ofItems nodes = .ok items) : ∀ item ∈ items, item.isKeyed = true := by
  match nodes with
  | [] =>
    cases ok
    exact List.forall_mem_nil _
  | node :: rest =>
    unfold ofItems at ok
    obtain ⟨first, read, ok⟩ := bind_eq_ok.mp ok
    obtain ⟨others, readRest, returned⟩ := bind_eq_ok.mp ok
    cases returned
    exact List.forall_mem_cons.mpr ⟨isKeyed_ofNode read, isKeyed_ofItems readRest⟩

theorem isKeyed_ofEntries {nodes : List (Yaml.Node × Yaml.Node)} {entries : List (Atom × Json)}
    (ok : ofEntries nodes = .ok entries) : ∀ entry ∈ entries, entry.2.isKeyed = true := by
  match nodes with
  | [] =>
    cases ok
    exact List.forall_mem_nil _
  | (name, node) :: rest =>
    unfold ofEntries at ok
    obtain ⟨name, -, ok⟩ := bind_eq_ok.mp ok
    obtain ⟨value, read, ok⟩ := bind_eq_ok.mp ok
    obtain ⟨others, readRest, returned⟩ := bind_eq_ok.mp ok
    cases returned
    exact List.forall_mem_cons.mpr ⟨isKeyed_ofNode read, isKeyed_ofEntries readRest⟩

end

theorem isKeyed_ofText {text : String} {document : Json} (ok : ofText text = .ok document) :
    document.isKeyed := by
  unfold ofText at ok
  split at ok
  · exact isKeyed_ofNode ok
  · cases ok

/-! ### Nodes with the value of a document -/

/-- Whether an atom is a document without parts. -/
def isScalar : Atom → Json → Bool
  | .null, .null => true
  | .boolean value, .bool other => value == other
  | .number value, .number other => value == other
  | .string value, .string other => value == other
  | _, _ => false

/-- Whether a scalar has the type and value of a document. -/
def hasScalar (tag : Yaml.Tag) (style : Yaml.Style) (text : String) (document : Json) : Bool :=
  match Atom.typed (.written tag style text) with
  | .ok atom => isScalar atom document
  | .error _ => false

/-- Whether a node is read as a key. -/
def hasName (node : Yaml.Node) (name : String) : Bool :=
  match node with
  | .scalar tag style text => hasScalar tag style text (.string name)
  | _ => false

mutual

/-- Whether a node has the value of a document: the same types, and the same keys in order. -/
def hasValue : Yaml.Node → Json → Bool
  | .scalar tag style text, document => hasScalar tag style text document
  | .sequence .absent nodes, .array items => haveItems nodes items
  | .mapping .absent entries, .object members => haveMembers entries members
  | _, _ => false

/-- Whether nodes are read as the items of an array. -/
def haveItems : List Yaml.Node → List Json → Bool
  | [], [] => true
  | node :: nodes, item :: items => hasValue node item && haveItems nodes items
  | _, _ => false

/-- Whether nodes are read as the members of an object. -/
def haveMembers : List (Yaml.Node × Yaml.Node) → List (String × Json) → Bool
  | [], [] => true
  | (key, node) :: entries, (name, value) :: members =>
    hasName key name && hasValue node value && haveMembers entries members
  | _, _ => false

end

theorem jsonOfAtom_of_isScalar {atom : Atom} {document : Json}
    (isScalar : isScalar atom document = true) : jsonOfAtom atom = document := by
  cases atom <;> cases document <;> simp_all [Untyped.isScalar, jsonOfAtom]

/-- A scalar that has a type has no tag that would be dropped. -/
theorem atom_of_typed {tag : Yaml.Tag} {style : Yaml.Style} {text : String} {atom : Atom}
    (typed : Atom.typed (.written tag style text) = .ok atom) :
    Untyped.atom tag style text = .ok atom ∧ key (.scalar tag style text) = .ok atom := by
  cases tag with
  | application name => cases typed
  | _ => exact ⟨typed, typed⟩

theorem exists_atom {tag : Yaml.Tag} {style : Yaml.Style} {text : String} {document : Json}
    (same : hasScalar tag style text document = true) :
    ∃ atom, Atom.typed (.written tag style text) = .ok atom ∧
      isScalar atom document = true := by
  unfold hasScalar at same
  split at same
  · next atom typed => exact ⟨atom, typed, same⟩
  · cases same

theorem key_of_hasName {node : Yaml.Node} {name : String} (same : hasName node name = true) :
    key node = .ok (.string name) := by
  cases node with
  | scalar tag style text =>
    obtain ⟨atom, typed, isName⟩ := exists_atom same
    obtain rfl : atom = .string name := by
      cases atom <;> simp_all [isScalar]
    exact (atom_of_typed typed).2
  | _ => cases same

theorem areDistinct_of_nodup {names : List String} (distinct : names.Nodup) :
    areDistinct (names.map .string) = true := by
  induction names with
  | nil => rfl
  | cons name rest inductionHypothesis =>
    obtain ⟨new, distinct⟩ := List.nodup_cons.mp distinct
    simp only [List.map_cons, areDistinct, inductionHypothesis distinct, Bool.and_true,
      Bool.not_eq_true', List.any_map, List.any_eq_false, Function.comp_apply, sameKey, beq_iff_eq]
    rintro other member rfl
    exact new member

mutual

/-- A node with the value of a document is read as the document. -/
theorem ofNode_of_hasValue (node : Yaml.Node) {document : Json} (keyed : document.isKeyed = true)
    (same : hasValue node document = true) : ofNode node = .ok document := by
  match node, document with
  | .scalar tag style text, document =>
    rw [hasValue] at same
    obtain ⟨atom, typed, isScalar⟩ := exists_atom same
    rw [ofNode, (atom_of_typed typed).1]
    exact congrArg Except.ok (jsonOfAtom_of_isScalar isScalar)
  | .sequence .absent nodes, .array items =>
    rw [hasValue] at same
    rw [ofNode, ofItems_of_haveItems nodes (Json.everywhere_array.mp keyed).2 same]
    rfl
  | .mapping .absent entries, .object members =>
    rw [hasValue] at same
    obtain ⟨distinct, inside⟩ := Json.isKeyed_object.mp keyed
    have areEntries := ofEntries_of_haveMembers entries inside same
    have named : ((members.map fun member => (Atom.string member.1, member.2)).map Prod.fst) =
        (OrderedMap.keys members).map .string := by
      simp [OrderedMap.keys]
    have renamed : (members.map fun member => (Atom.string member.1, member.2)).mapM
        (fun entry => do return (← keyText entry.1, entry.2)) = .ok members := by
      rw [List.mapM_map]
      exact (mapM_eq_ok_map fun member _ => rfl).trans (congrArg Except.ok (List.map_id members))
    rw [ofNode]
    refine bind_eq_ok.mpr ⟨(), rfl, bind_eq_ok.mpr ⟨_, areEntries, ?_⟩⟩
    simp only [named, areDistinct_of_nodup distinct, if_true]
    refine bind_eq_ok.mpr ⟨members, renamed, ?_⟩
    rw [OrderedMap.ofEntries_eq_self distinct]
    rfl

theorem ofItems_of_haveItems (nodes : List Yaml.Node) {items : List Json}
    (keyed : ∀ item ∈ items, item.isKeyed = true) (same : haveItems nodes items = true) :
    ofItems nodes = .ok items := by
  match nodes, items with
  | [], [] => rfl
  | node :: nodes, item :: items =>
    rw [haveItems, Bool.and_eq_true] at same
    obtain ⟨first, others⟩ := List.forall_mem_cons.mp keyed
    rw [ofItems, ofNode_of_hasValue node first same.1, ofItems_of_haveItems nodes others same.2]
    rfl

theorem ofEntries_of_haveMembers (entries : List (Yaml.Node × Yaml.Node))
    {members : List (String × Json)} (keyed : ∀ member ∈ members, member.2.isKeyed = true)
    (same : haveMembers entries members = true) :
    ofEntries entries = .ok (members.map fun member => (.string member.1, member.2)) := by
  match entries, members with
  | [], [] => rfl
  | (name, node) :: entries, (key, value) :: members =>
    simp only [haveMembers, Bool.and_eq_true, and_assoc] at same
    obtain ⟨isName, isValue, same⟩ := same
    obtain ⟨first, others⟩ := List.forall_mem_cons.mp keyed
    rw [ofEntries, key_of_hasName isName, ofNode_of_hasValue node first isValue,
      ofEntries_of_haveMembers entries others same]
    rfl

end

end ServiceForge.Document.Untyped
