/-
This file replaces the aliases of a document by the nodes that they name. Nested
collections and the number of replacements are limited, so that an alias inside
the node that it names, or a chain of repetitions, is an error.
-/

import ServiceForge.Yaml.Tree

namespace ServiceForge.Yaml

/-- A document without aliases. -/
inductive Node where
  | scalar (tag : Tag) (style : Style) (text : String)
  | sequence (tag : Tag) (items : List Node)
  | mapping (tag : Tag) (entries : List (Node × Node))
deriving Repr

namespace Tree

mutual

/-- The nodes of a document that have an anchor, by its number, in document order. -/
def anchored : Tree → List (Nat × Tree)
  | tree@(.scalar anchor _ _ _) => anchor.toList.map fun number => (number, tree)
  | tree@(.sequence anchor _ items) =>
    (anchor.toList.map fun number => (number, tree)) ++ anchoredItems items
  | tree@(.mapping anchor _ entries) =>
    (anchor.toList.map fun number => (number, tree)) ++ anchoredEntries entries
  | .alias _ => []

/-- The trees with anchors in the items of a sequence. -/
def anchoredItems : List Tree → List (Nat × Tree)
  | [] => []
  | item :: rest => anchored item ++ anchoredItems rest

/-- The trees with anchors in the entries of a mapping. -/
def anchoredEntries : List (Tree × Tree) → List (Nat × Tree)
  | [] => []
  | (key, value) :: rest => anchored key ++ anchored value ++ anchoredEntries rest

end

mutual

/-- The number of nodes, collections counted twice. -/
def weight : Tree → Nat
  | .scalar .. => 1
  | .sequence _ _ items => weightItems items + 2
  | .mapping _ _ entries => weightEntries entries + 2
  | .alias _ => 1

/-- The weight of the items of a sequence. -/
def weightItems : List Tree → Nat
  | [] => 0
  | item :: rest => weight item + weightItems rest

/-- The weight of the entries of a mapping. -/
def weightEntries : List (Tree × Tree) → Nat
  | [] => 0
  | (key, value) :: rest => weight key + weight value + weightEntries rest

end

/-- The replacements that are still allowed. -/
abbrev Expand := StateT Nat (Except Error)

/-- The node that an alias names, or the node itself. -/
def target (anchors : List (Nat × Tree)) (tree : Tree) : Expand Tree :=
  match tree with
  | .alias number => do
    match ← get with
    | 0 => fail "repetition limit exceeded"
    | left + 1 =>
      set left
      match anchors.lookup number with
      | some tree => return tree
      | none => fail "unknown anchor"
  | tree => return tree
where
  fail {α : Type} (problem : String) : Expand α := throw ⟨problem, none⟩

/-- Replaces the aliases of a node whose collections may be nested to the given depth. -/
def expand (anchors : List (Nat × Tree)) (depth : Nat) (tree : Tree) : Expand Node := do
  match ← target anchors tree with
  | .scalar _ tag style text => return .scalar tag style text
  | .sequence _ tag items =>
    match depth with
    | 0 => throw ⟨"recursion limit exceeded", none⟩
    | depth + 1 => return .sequence tag (← items.mapM (expand anchors depth))
  | .mapping _ tag entries =>
    match depth with
    | 0 => throw ⟨"recursion limit exceeded", none⟩
    | depth + 1 =>
      let entries ← entries.mapM fun entry => do
        return (← expand anchors depth entry.1, ← expand anchors depth entry.2)
      return .mapping tag entries
  | .alias _ => throw ⟨"unknown anchor", none⟩

end Tree

namespace Node

/-- How deep collections may be nested. -/
def depthLimit : Nat := 128

/-- The document of a text. -/
def ofText (text : String) : Except Error Node := do
  let tree ← Tree.ofTokens (← Token.ofText text)
  let (node, _) ← (tree.expand tree.anchored.reverse depthLimit).run (100 * tree.weight)
  return node

end Node

end ServiceForge.Yaml
