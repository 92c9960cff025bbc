/-
This file holds what a reader of a document sees of its references: the nodes
that stand for a local reference, the nodes that refer to another document, the
steps from a node to its parts, and the graph of the local references.
-/

import Mathlib.Logic.Relation
import ServiceForge.OpenApi.Reference

namespace ServiceForge.OpenApi.Reference

/-! ### Reference nodes -/

/-- The local reference that a node stands for. -/
def local? : Json → Option String
  | .object members => (ofMembers? members).filter isLocal
  | _ => none

/-- Whether a node refers to another document. -/
def isExternal : Json → Bool
  | .object members => (ofMembers? members).any fun reference => !isLocal reference
  | _ => false

theorem local?_eq_some {members : List (String × Json)} {reference : String}
    (named : local? (.object members) = some reference) :
    ofMembers? members = some reference ∧ isLocal reference = true :=
  Option.filter_eq_some_iff.mp named

theorem local?_node {reference : String} (isLocal : isLocal reference) :
    local? (node reference) = some reference := by
  simp [local?, node, ofMembers?, OrderedMap.get?, Json.string?, Option.filter, isLocal]

theorem isLocal_of_local? {source : Json} {reference : String}
    (named : local? source = some reference) : isLocal reference = true := by
  cases source with
  | object members => exact (local?_eq_some named).2
  | _ => cases named

theorem isExternal_of_local? {source : Json} {reference : String}
    (named : local? source = some reference) : isExternal source = false := by
  cases source with
  | object members =>
    obtain ⟨found, isLocal⟩ := local?_eq_some named
    simp [isExternal, found, isLocal]
  | _ => rfl

/-! ### Parts -/

/-- A step of a path: the key of a member or the position of an item. -/
inductive Step where
  | key (name : String)
  | index (position : Nat)
deriving DecidableEq, Repr

/-- The part of a node that a step leads to. A node that refers to another document is a leaf. -/
def child? (source : Json) (step : Step) : Option Json :=
  if isExternal source then none
  else
    match source, step with
    | .object members, .key name => OrderedMap.get? members name
    | .array items, .index position => items[position]?
    | _, _ => none

theorem child?_of_isExternal {source : Json} (leaf : isExternal source) (step : Step) :
    child? source step = none := if_pos leaf

theorem child?_key {members : List (String × Json)}
    (inside : isExternal (.object members) = false) (name : String) :
    child? (.object members) (.key name) = OrderedMap.get? members name :=
  if_neg (ne_true_of_eq_false inside)

theorem child?_index_object (members : List (String × Json)) (position : Nat) :
    child? (.object members) (.index position) = none := ite_self none

/-- The part of a node at the end of a path. -/
def part? (source : Json) : List Step → Option Json
  | [] => some source
  | step :: path => (child? source step).bind (part? · path)

/-! ### The graph of references -/

/-- A node mentions a local reference when one of its parts stands for it. The members beside a
reference are not looked at. -/
inductive Mentions : Json → String → Prop
  | here {source : Json} {reference : String} :
      local? source = some reference → Mentions source reference
  | member {members : List (String × Json)} {key reference : String} {value : Json} :
      ofMembers? members = none → (key, value) ∈ members → Mentions value reference →
        Mentions (.object members) reference
  | item {items : List Json} {item : Json} {reference : String} :
      item ∈ items → Mentions item reference → Mentions (.array items) reference

/-- The target of the first reference mentions the second. -/
def Refers (document : Json) (reference next : String) : Prop :=
  ∃ target, target? document reference = some target ∧ Mentions target next

/-- Following the references from a reference leads to it again. -/
def OnCycle (document : Json) (reference : String) : Prop :=
  Relation.TransGen (Refers document) reference reference

end ServiceForge.OpenApi.Reference
