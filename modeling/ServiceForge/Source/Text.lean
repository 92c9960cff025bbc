/-
This file writes the lines of generated sources and their documentation comments, and says
which lines a text has.
-/

import ServiceForge.Text.Basic

namespace ServiceForge.Source

open ServiceForge.Text

/-- The text of a source with the given lines. -/
def ofLines (lines : List String) : String := String.join (lines.map (· ++ "\n"))

/-- Whether a text has the given lines one after another, each with its line feed. -/
def HasLines (text : String) (lines : List String) : Prop :=
  ∃ before after : List String, text = String.join ((before ++ lines ++ after).map (· ++ "\n"))

/-- Whether a text ends with the given lines. -/
def EndsWithLines (text : String) (lines : List String) : Prop :=
  ∃ before : List String, text = String.join ((before ++ lines).map (· ++ "\n"))

/-- A source has the lines that it is written from. -/
theorem hasLines_ofLines {lines all : List String} (inside : lines <:+: all) :
    HasLines (ofLines all) lines := by
  obtain ⟨before, after, rfl⟩ := inside
  exact ⟨before, after, rfl⟩

theorem hasLines_of_mem {line : String} {all : List String} (member : line ∈ all) :
    HasLines (ofLines all) [line] := by
  obtain ⟨before, after, rfl⟩ := List.append_of_mem member
  exact hasLines_ofLines ⟨before, after, by simp⟩

theorem endsWithLines_ofLines {lines all : List String} (ends : lines <:+ all) :
    EndsWithLines (ofLines all) lines := by
  obtain ⟨before, rfl⟩ := ends
  exact ⟨before, rfl⟩

/-- The lines of a documentation comment; a blank text has none. -/
def documentation (indent : String) (text : Option String) : List String :=
  match text.map trim with
  | none => []
  | some text =>
    (lines text).map fun line =>
      let line := trimEnd isBlank line
      if line.isEmpty then indent ++ "///" else indent ++ "/// " ++ line

/-- Lines for each of some parts. -/
def forEach {α : Type} (parts : List α) (write : α → List String) : List String :=
  parts.flatMap write

end ServiceForge.Source
