/-
This file proves that no binding is named with a mark at its end. Marks that are added
at the end of a name to tell it from others can therefore be taken off again, and no
binding has by itself a name that was marked. A binding for a name of ASCII is an
identifier, with or without marks. Two names give the same binding or the same module
exactly if they have the same words in lowercase: symbols and letter case play no part, and
neither does the mark of a name that is escaped.
-/

import Mathlib.Logic.Function.Iterate
import ServiceForge.Proofs.Text.SnakeCase

namespace ServiceForge.Text

/-- A name that does not end in an underscore. -/
def IsUnmarked (name : String) : Prop := name.toList.getLast? ≠ some '_'

instance (name : String) : Decidable (IsUnmarked name) := inferInstanceAs (Decidable (_ ≠ _))

/-! ### Words in snake case -/

/-- A mapping whose expansions are not empty maps no character to nothing. -/
theorem CaseMapping.images_ne_nil {mapping : CaseMapping}
    (filled : mapping.expansions.all (fun expansion => !expansion.2.isEmpty) = true)
    (point : Nat) : mapping.images point ≠ [] := by
  unfold images
  split
  · next image found =>
    obtain ⟨before, after, whole, -⟩ := List.lookup_eq_some_iff.mp found
    have held : (point, image) ∈ mapping.expansions := by simp [whole]
    simpa using List.all_eq_true.mp filled _ held
  · split <;> exact List.cons_ne_nil _ _

theorem lowerCharacter_ne_nil (character : Char) : lowerCharacter character ≠ [] := by
  unfold lowerCharacter
  split
  · exact List.cons_ne_nil _ _
  · unfold CaseMapping.apply
    rw [ne_eq, List.map_eq_nil_iff]
    exact CaseMapping.images_ne_nil (by decide +kernel) _

theorem lowerWord_ne_nil {word : List Char} (nonempty : word ≠ []) : lowerWord word ≠ [] := by
  cases word with
  | nil => exact absurd rfl nonempty
  | cons first rest =>
    cases rest with
    | nil =>
      unfold lowerWord
      split
      · exact List.cons_ne_nil _ _
      · exact lowerCharacter_ne_nil first
    | cons second rest => exact List.append_ne_nil_of_left_ne_nil (lowerCharacter_ne_nil first) _

/-- Pieces that are joined end as the last of them does. -/
theorem getLast?_intercalate_ne {separator : Char} {pieces : List (List Char)}
    (nonempty : ∀ piece ∈ pieces, piece ≠ []) (absent : ∀ piece ∈ pieces, separator ∉ piece) :
    ([separator].intercalate pieces).getLast? ≠ some separator := by
  induction pieces with
  | nil => exact nofun
  | cons first rest inductionHypothesis =>
    cases rest with
    | nil =>
      intro marked
      have member := List.mem_of_getLast? marked
      rw [List.intercalate_singleton] at member
      exact absent first List.mem_cons_self member
    | cons second rest =>
      have later := inductionHypothesis (List.forall_mem_cons.mp nonempty).2
        (List.forall_mem_cons.mp absent).2
      have filled : [separator].intercalate (second :: rest) ≠ [] := by
        obtain ⟨letter, letters, whole⟩ :=
          List.exists_cons_of_ne_nil (nonempty second (by simp))
        cases rest <;> simp [List.intercalate, List.intersperse, whole]
      have more : [separator].intercalate (first :: second :: rest) =
          (first ++ [separator]) ++ [separator].intercalate (second :: rest) := by
        simp [List.intercalate, List.intersperse]
      rw [more, List.getLast?_append_of_ne_nil _ filled]
      exact later

theorem mem_of_mem_intercalate {α : Type} {separator : List α} {pieces : List (List α)} {item : α}
    (member : item ∈ separator.intercalate pieces) :
    item ∈ separator ∨ ∃ piece ∈ pieces, item ∈ piece := by
  induction pieces with
  | nil => cases member
  | cons first rest inductionHypothesis =>
    cases rest with
    | nil =>
      rw [List.intercalate_singleton] at member
      exact Or.inr ⟨first, List.mem_cons_self, member⟩
    | cons second rest =>
      rw [List.intercalate_cons_cons, List.append_assoc] at member
      rcases List.mem_append.mp member with here | member
      · exact Or.inr ⟨first, List.mem_cons_self, here⟩
      rcases List.mem_append.mp member with between | later
      · exact Or.inl between
      · refine (inductionHypothesis later).imp_right ?_
        rintro ⟨piece, inside, held⟩
        exact ⟨piece, List.mem_cons_of_mem _ inside, held⟩

/-- A name in snake case is its words in lowercase, joined by underscores. -/
theorem toList_snakeCase (name : String) :
    (snakeCase name).toList = ['_'].intercalate ((words name).map lowerWord) := by
  simp [snakeCase, join, String.toList_intercalate, Function.comp_def]

/-- A name in snake case does not end with an underscore. -/
theorem isUnmarked_snakeCase (name : String) : IsUnmarked (snakeCase name) := by
  unfold IsUnmarked
  rw [toList_snakeCase]
  refine getLast?_intercalate_ne ?_ ?_
  · intro piece member
    obtain ⟨word, inside, rfl⟩ := List.mem_map.mp member
    exact lowerWord_ne_nil (ne_nil_of_mem_words inside)
  · intro piece member
    obtain ⟨word, inside, rfl⟩ := List.mem_map.mp member
    exact notMem_lowerWord (by decide) (notMem_word (by decide) inside)

/-! ### Marks at the end -/

theorem dropEndWhile_append_singleton {condition : Char → Bool} {character : Char}
    (holds : condition character = true) (text : List Char) :
    dropEndWhile condition (text ++ [character]) = dropEndWhile condition text := by
  simp [dropEndWhile, holds]

/-- Trimming underscores leaves a name without one at its end as it is. -/
theorem trimEnd_of_isUnmarked {name : String} (unmarked : IsUnmarked name) :
    trimEnd (· = '_') name = name := by
  have kept : dropEndWhile (· = '_') name.toList = name.toList := by
    unfold IsUnmarked at unmarked
    rw [← List.head?_reverse] at unmarked
    unfold dropEndWhile
    cases reversed : name.toList.reverse with
    | nil => simpa using reversed
    | cons last before =>
      rw [reversed, List.head?_cons] at unmarked
      have stays : decide (last = '_') = false :=
        decide_eq_false fun same => unmarked (congrArg some same)
      rw [List.dropWhile_cons_of_neg (by simp [stays]), ← reversed, List.reverse_reverse]
  rw [trimEnd, kept, String.ofList_toList]

theorem trimEnd_append_mark (name : String) :
    trimEnd (· = '_') (name ++ "_") = trimEnd (· = '_') name := by
  unfold trimEnd
  rw [String.toList_append]
  exact congrArg String.ofList (dropEndWhile_append_singleton (by decide) name.toList)

/-- Marks are taken off the name that they were added to. -/
theorem trimEnd_marked {name : String} (unmarked : IsUnmarked name) (count : Nat) :
    trimEnd (· = '_') ((· ++ "_")^[count] name) = name := by
  induction count with
  | zero => exact trimEnd_of_isUnmarked unmarked
  | succ count inductionHypothesis =>
    rw [Function.iterate_succ_apply', trimEnd_append_mark, inductionHypothesis]

theorem not_isUnmarked_append_mark (name : String) : ¬ IsUnmarked (name ++ "_") := by
  simp [IsUnmarked]

end ServiceForge.Text

namespace ServiceForge.Naming

open ServiceForge.Text

/-- The name of a field does not end with an underscore. -/
theorem isUnmarked_fieldName (wireName : String) : IsUnmarked (fieldName wireName) := by
  unfold fieldName
  simp only
  split
  · decide
  · next nonempty =>
    have plain := isUnmarked_snakeCase wireName
    split
    · have filled : (snakeCase wireName).toList ≠ [] := by simpa using nonempty
      unfold IsUnmarked
      rw [String.toList_append, List.getLast?_append_of_ne_nil _ filled]
      exact plain
    · exact plain

/-! ### Identifiers -/

/-- What the generated sources accept as the name of a field or binding. -/
structure IsIdentifier (name : String) : Prop where
  characters : ∀ character ∈ name.toList, character.isAlphanum = true ∨ character = '_'
  start : startsWithDigit name = false
  nonempty : name ≠ ""
  notPlaceholder : name ≠ "_"
  notKeyword : isKeyword name = false

/-- The snake case of a name in ASCII has only letters, digits and underscores. -/
theorem characters_snakeCase {wireName : String} (ascii : IsAscii wireName) :
    ∀ character ∈ (snakeCase wireName).toList, character.isAlphanum = true ∨ character = '_' := by
  intro character member
  rw [toList_snakeCase] at member
  rcases mem_of_mem_intercalate member with same | ⟨piece, isPiece, inside⟩
  · exact Or.inr (List.mem_singleton.mp same)
  · obtain ⟨word, held, rfl⟩ := List.mem_map.mp isPiece
    exact Or.inl (isSettled_iff.mp (isSettled_of_mem_lowerWord ascii held character inside)).1.2

theorem isUnmarked_of_isKeyword {name : String} (keyword : isKeyword name = true) :
    IsUnmarked name := by
  have all : ∀ keyword ∈ keywords, IsUnmarked keyword := by decide
  exact all name (List.contains_iff_mem.mp keyword)

/-- No keyword begins with the mark of a name that is escaped. -/
theorem isKeyword_escaped (name : String) : isKeyword ("_" ++ name) = false := by
  have all : ∀ keyword ∈ keywords, keyword.toList.head? ≠ some '_' := by decide
  refine Bool.eq_false_iff.mpr fun keyword => ?_
  rw [isKeyword, List.contains_iff_mem] at keyword
  refine all _ keyword ?_
  rw [String.toList_append]
  rfl

/-- The name of a field in ASCII is an identifier. -/
theorem isIdentifier_fieldName {wireName : String} (ascii : IsAscii wireName) :
    IsIdentifier (fieldName wireName) := by
  have characters := characters_snakeCase ascii
  unfold fieldName
  simp only
  split
  · have settled : "_value".toList.all
        (fun character => character.isAlphanum || character == '_') = true := by decide
    refine ⟨fun character member => ?_, by decide, by decide, by decide, by decide⟩
    simpa using List.all_eq_true.mp settled character member
  · next nonempty =>
    have filled : snakeCase wireName ≠ "" := by simpa using nonempty
    split
    · refine ⟨fun character member => ?_, by simp [startsWithDigit], by simp, by simpa using filled,
        isKeyword_escaped _⟩
      rw [String.toList_append] at member
      rcases List.mem_append.mp member with mark | own
      · exact Or.inr (List.mem_singleton.mp mark)
      · exact characters character own
    · next plain =>
      obtain ⟨start, notKeyword⟩ : startsWithDigit (snakeCase wireName) = false ∧
          isKeyword (snakeCase wireName) = false := by simpa using plain
      refine ⟨characters, start, filled, fun mark => ?_, notKeyword⟩
      have unmarked := isUnmarked_snakeCase wireName
      rw [mark] at unmarked
      exact absurd rfl unmarked

/-- An identifier with a mark is still one. -/
theorem IsIdentifier.append_mark {name : String} (identifier : IsIdentifier name) :
    IsIdentifier (name ++ "_") where
  characters character member := by
    rw [String.toList_append] at member
    rcases List.mem_append.mp member with own | mark
    · exact identifier.characters character own
    · exact Or.inr (List.mem_singleton.mp mark)
  start := by
    have filled : name.toList ≠ [] := by simpa using identifier.nonempty
    rw [startsWithDigit, String.toList_append, List.head?_append_of_ne_nil _ filled]
    exact identifier.start
  nonempty := by simp
  notPlaceholder := by simpa using identifier.nonempty
  notKeyword := Bool.eq_false_iff.mpr fun keyword =>
    not_isUnmarked_append_mark name (isUnmarked_of_isKeyword keyword)

/-- An identifier stays one with underscores at its end. -/
theorem IsIdentifier.marked {name : String} (identifier : IsIdentifier name) (count : Nat) :
    IsIdentifier ((· ++ "_")^[count] name) := by
  induction count with
  | zero => exact identifier
  | succ count inductionHypothesis =>
    rw [Function.iterate_succ_apply']
    exact inductionHypothesis.append_mark

end ServiceForge.Naming

namespace ServiceForge.Text

/-- The words of a name in lowercase. -/
def spelling (name : String) : List (List Char) := (words name).map lowerWord

theorem ne_nil_of_mem_spelling {name : String} {word : List Char} (inside : word ∈ spelling name) :
    word ≠ [] := by
  obtain ⟨source, held, rfl⟩ := List.mem_map.mp inside
  exact lowerWord_ne_nil (ne_nil_of_mem_words held)

theorem underscore_notMem_of_mem_spelling {name : String} {word : List Char}
    (inside : word ∈ spelling name) : '_' ∉ word := by
  obtain ⟨source, held, rfl⟩ := List.mem_map.mp inside
  exact notMem_lowerWord (by decide) (notMem_word (by decide) held)

/-- Words are found again in the text that they are joined to. -/
theorem filter_splitOnP_intercalate {separator : Char} {pieces : List (List Char)}
    (nonempty : ∀ piece ∈ pieces, piece ≠ []) (absent : ∀ piece ∈ pieces, separator ∉ piece) :
    (([separator].intercalate pieces).splitOnP (· == separator)).filter
      (fun piece => !piece.isEmpty) = pieces := by
  by_cases none : pieces = []
  · subst none
    rfl
  have kept : ∀ piece ∈ pieces, ∀ character ∈ piece, (character == separator) = false := by
    intro piece member character inside
    refine beq_eq_false_iff_ne.mpr ?_
    rintro rfl
    exact absent piece member inside
  have isSeparator : (separator == separator) = true := beq_self_eq_true separator
  have split : ([separator].intercalate pieces).splitOnP (· == separator) = pieces :=
    splitOnP_intercalate isSeparator none kept
  rw [split, List.filter_eq_self]
  intro piece member
  simpa using nonempty piece member

/-- Names are the same in snake case exactly if they have the same words. -/
theorem snakeCase_eq_iff {first second : String} :
    snakeCase first = snakeCase second ↔ spelling first = spelling second := by
  have found : ∀ name, ((snakeCase name).toList.splitOnP (· == '_')).filter
      (fun piece => !piece.isEmpty) = spelling name := by
    intro name
    rw [toList_snakeCase]
    exact filter_splitOnP_intercalate (fun _ => ne_nil_of_mem_spelling)
      fun _ => underscore_notMem_of_mem_spelling
  constructor
  · intro same
    rw [← found first, same, found second]
  · intro same
    unfold spelling at same
    rw [← String.toList_inj, toList_snakeCase, toList_snakeCase, same]

/-- No name begins with an underscore in snake case. -/
theorem snakeCase_ne_append (name rest : String) : snakeCase name ≠ "_" ++ rest := by
  intro same
  have begins : (snakeCase name).toList.head? = some '_' := by
    rw [same, String.toList_append]
    rfl
  rw [toList_snakeCase] at begins
  change (['_'].intercalate (spelling name)).head? = some '_' at begins
  cases whole : spelling name with
  | nil =>
    rw [whole] at begins
    cases begins
  | cons word others =>
    have held : word ∈ spelling name := whole ▸ List.mem_cons_self
    obtain ⟨letter, letters, rfl⟩ := List.exists_cons_of_ne_nil (ne_nil_of_mem_spelling held)
    have apart := underscore_notMem_of_mem_spelling held
    rw [whole] at begins
    cases others with
    | nil =>
      rw [List.intercalate_singleton] at begins
      exact apart (Option.some.inj begins ▸ List.mem_cons_self)
    | cons next others =>
      rw [List.intercalate_cons_cons] at begins
      exact apart (Option.some.inj begins ▸ List.mem_cons_self)

end ServiceForge.Text

namespace ServiceForge.Naming

open ServiceForge.Text

/-- Two names give the same module exactly if they are spelled alike. -/
theorem moduleName_eq_iff {first second : String} :
    moduleName first = moduleName second ↔ spelling first = spelling second := snakeCase_eq_iff

/-- The forms that a binding takes. -/
theorem fieldName_cases (wireName : String) :
    (snakeCase wireName = "" ∧ fieldName wireName = "_value") ∨
      ((startsWithDigit (snakeCase wireName) || isKeyword (snakeCase wireName)) = true ∧
        fieldName wireName = "_" ++ snakeCase wireName) ∨
      fieldName wireName = snakeCase wireName := by
  unfold fieldName
  simp only
  split
  · next empty => exact Or.inl ⟨by simpa using empty, rfl⟩
  · split
    · next escaped => exact Or.inr (Or.inl ⟨escaped, rfl⟩)
    · exact Or.inr (Or.inr rfl)

/-- The name behind a binding that begins with a mark. -/
theorem snakeCase_of_marked {wireName rest : String} (marked : fieldName wireName = "_" ++ rest) :
    snakeCase wireName = if rest = "value" then "" else rest := by
  rcases fieldName_cases wireName with ⟨empty, same⟩ | ⟨escaped, same⟩ | same
  · have value : rest = "value" := (String.append_right_inj "_").mp (marked.symm.trans same)
    rw [if_pos value, empty]
  · have whole : snakeCase wireName = rest :=
      (String.append_right_inj "_").mp (same.symm.trans marked)
    have apart : rest ≠ "value" := by
      intro value
      rw [whole, value] at escaped
      exact absurd escaped (by decide)
    rw [if_neg apart, whole]
  · exact absurd (same.symm.trans marked) (snakeCase_ne_append wireName rest)

theorem snakeCase_of_unmarked {wireName : String}
    (plain : ∀ rest, fieldName wireName ≠ "_" ++ rest) : snakeCase wireName = fieldName wireName := by
  rcases fieldName_cases wireName with ⟨-, same⟩ | ⟨-, same⟩ | same
  · exact absurd same (plain "value")
  · exact absurd same (plain _)
  · exact same.symm

/-- No binding is named like the member for headers, which is escaped without need. -/
theorem fieldName_ne_headers (wireName : String) : fieldName wireName ≠ "_headers" := by
  intro same
  have plain : snakeCase wireName = if "headers" = "value" then "" else "headers" :=
    snakeCase_of_marked same
  have given : fieldName wireName = "headers" := by
    unfold fieldName
    rw [plain]
    decide
  exact absurd (given.symm.trans same) (by decide)

/-- Names have one binding exactly if they have the same words. -/
theorem fieldName_eq_iff {first second : String} :
    fieldName first = fieldName second ↔ spelling first = spelling second := by
  rw [← snakeCase_eq_iff]
  constructor
  · intro same
    by_cases marked : ∃ rest, fieldName first = "_" ++ rest
    · obtain ⟨rest, marked⟩ := marked
      rw [snakeCase_of_marked marked, snakeCase_of_marked (same.symm.trans marked)]
    · have plain := not_exists.mp marked
      rw [snakeCase_of_unmarked plain, snakeCase_of_unmarked (same ▸ plain), same]
  · intro same
    unfold fieldName
    rw [same]

end ServiceForge.Naming
