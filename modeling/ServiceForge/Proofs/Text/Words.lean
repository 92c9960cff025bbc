/-
This file proves which characters occur in the words of a name and in their other
letter cases. Words consist of letters and numbers, and no symbol of ASCII is
another form of a letter, so a type name holds no symbol.
-/

import Mathlib.Data.List.Basic
import ServiceForge.Naming

namespace ServiceForge.Text

/-! ### Characters -/

/-- What holds of the characters below a bound, checked one by one. -/
theorem forall_lt_of_ofNat {bound : Nat} {P : Char → Prop}
    (each : ∀ point < bound, P (Char.ofNat point)) (character : Char)
    (below : character.toNat < bound) : P character := by
  rw [← Char.ofNat_toNat character]
  exact each character.toNat below

theorem toNat_ofNat {point : Nat} (proper : Char.ofNat point ≠ '\x00') :
    (Char.ofNat point).toNat = point := by
  by_cases valid : point.isValidChar
  · rw [Char.ofNat, dif_pos valid]
    rfl
  · exact absurd (dif_neg valid) proper

/-- A number is written in digits. -/
theorem isDigit_of_mem_toString {number : Nat} {character : Char}
    (member : character ∈ (toString number).toList) : character.isDigit = true := by
  have digits : (toString number).toList = Nat.toDigits 10 number := Nat.toList_repr
  rw [digits] at member
  exact Nat.isDigit_of_mem_toDigits (by decide) (by decide) member

theorem isAlphanum_of_mem_toString {number : Nat} {character : Char}
    (member : character ∈ (toString number).toList) : character.isAlphanum = true := by
  rw [Char.isAlphanum, isDigit_of_mem_toString member, Bool.or_true]

/-- A character of ASCII that is neither a letter nor a digit. -/
def isSymbol (character : Char) : Bool :=
  decide (character.toNat < 128) && decide (character ≠ '\x00') && !character.isAlphanum

theorem isSymbol_iff {character : Char} : isSymbol character = true ↔
    (character.toNat < 128 ∧ character ≠ '\x00') ∧ character.isAlphanum = false := by
  simp [isSymbol]

/-! ### Case mappings -/

/-- Whether a code point is a letter or digit of ASCII or lies above ASCII. -/
def isLetterPoint (point : Nat) : Bool := decide (128 ≤ point) || (Char.ofNat point).isAlphanum

/-- The images of the covered code points do not lie before that of the first. -/
theorem CaseShift.image_of_covers {shift : CaseShift} {point : Nat}
    (covered : shift.covers point = true) : shift.image shift.first ≤ shift.image point := by
  have bounds : shift.first ≤ point ∧ point ≤ shift.last ∧
      (point - shift.first) % shift.step = 0 := by simpa [covers] using covered
  unfold image
  split <;> omega

/-- A shift of one code point covers no other. -/
theorem CaseShift.eq_of_covers {shift : CaseShift} {point : Nat}
    (covered : shift.covers point = true) (single : shift.first = shift.last) :
    point = shift.first := by
  have bounds : shift.first ≤ point ∧ point ≤ shift.last ∧
      (point - shift.first) % shift.step = 0 := by simpa [covers] using covered
  omega

namespace CaseMapping

/-- Whether a mapping takes no code point to a symbol. A shift that reaches into ASCII moves one
code point only. -/
def isLettered (mapping : CaseMapping) : Bool :=
  (mapping.shifts.all fun shift => decide (128 ≤ shift.image shift.first) ||
    decide (shift.first = shift.last) && isLetterPoint (shift.image shift.first)) &&
  mapping.expansions.all (·.2.all isLetterPoint)

/-- An image of a code point is listed for it, or made by a shift that covers it, or itself. -/
theorem mem_images_cases {mapping : CaseMapping} {source point : Nat}
    (member : point ∈ mapping.images source) :
    (∃ expansion ∈ mapping.expansions, point ∈ expansion.2) ∨
      (∃ shift ∈ mapping.shifts, shift.covers source = true ∧ point = shift.image source) ∨
        point = source := by
  unfold images at member
  split at member
  · next image found =>
    obtain ⟨before, after, whole, -⟩ := List.lookup_eq_some_iff.mp found
    exact Or.inl ⟨(source, image), by simp [whole], member⟩
  split at member
  · next shift found =>
    have covered : shift.covers source = true := by simpa using List.find?_some found
    exact Or.inr (Or.inl ⟨shift, List.mem_of_find?_eq_some found, covered,
      List.mem_singleton.mp member⟩)
  · exact Or.inr (Or.inr (List.mem_singleton.mp member))

theorem isLetterPoint_of_mem_images {mapping : CaseMapping} {source point : Nat}
    (lettered : mapping.isLettered = true) (member : point ∈ mapping.images source) :
    source = point ∨ isLetterPoint point = true := by
  obtain ⟨shifts, expansions⟩ := Bool.and_eq_true_iff.mp lettered
  rcases mem_images_cases member with ⟨expansion, held, inside⟩ | ⟨shift, held, covered, rfl⟩ | same
  · exact Or.inr (List.all_eq_true.mp (List.all_eq_true.mp expansions _ held) point inside)
  · refine Or.inr ?_
    rcases Bool.or_eq_true_iff.mp (List.all_eq_true.mp shifts _ held) with above | single
    · have bound := CaseShift.image_of_covers covered
      rw [isLetterPoint, Bool.or_eq_true, decide_eq_true_eq]
      exact Or.inl (Nat.le_trans (of_decide_eq_true above) bound)
    · obtain ⟨only, letter⟩ := Bool.and_eq_true_iff.mp single
      rw [CaseShift.eq_of_covers covered (of_decide_eq_true only)]
      exact letter
  · exact Or.inl same.symm

theorem eq_of_mem_apply {mapping : CaseMapping} {source character : Char}
    (lettered : mapping.isLettered = true) (symbol : isSymbol character = true)
    (member : character ∈ mapping.apply source) : source = character := by
  obtain ⟨⟨ascii, proper⟩, noLetter⟩ := isSymbol_iff.mp symbol
  obtain ⟨point, held, rfl⟩ := List.mem_map.mp member
  rw [toNat_ofNat proper] at ascii
  rcases isLetterPoint_of_mem_images lettered held with same | letter
  · rw [← same, Char.ofNat_toNat]
  · have above : 128 ≤ point := by simpa [isLetterPoint, noLetter] using letter
    omega

end CaseMapping

/-- A symbol is not the uppercase form of another character. -/
theorem eq_of_mem_upperCharacter {source character : Char} (symbol : isSymbol character = true)
    (member : character ∈ upperCharacter source) : source = character := by
  unfold upperCharacter at member
  split at member
  · next ascii =>
    have each : ∀ point < 128, isSymbol (Char.ofNat point).toUpper = true →
        Char.ofNat point = (Char.ofNat point).toUpper := by decide
    rw [List.mem_singleton.mp member] at symbol ⊢
    exact forall_lt_of_ofNat (P := fun source => isSymbol source.toUpper = true →
      source = source.toUpper) each source ascii symbol
  · exact CaseMapping.eq_of_mem_apply (by decide +kernel) symbol member

/-- A symbol is not the lowercase form of another character. -/
theorem eq_of_mem_lowerCharacter {source character : Char} (symbol : isSymbol character = true)
    (member : character ∈ lowerCharacter source) : source = character := by
  unfold lowerCharacter at member
  split at member
  · next ascii =>
    have each : ∀ point < 128, isSymbol (Char.ofNat point).toLower = true →
        Char.ofNat point = (Char.ofNat point).toLower := by decide
    rw [List.mem_singleton.mp member] at symbol ⊢
    exact forall_lt_of_ofNat (P := fun source => isSymbol source.toLower = true →
      source = source.toLower) each source ascii symbol
  · exact CaseMapping.eq_of_mem_apply (by decide +kernel) symbol member

/-! ### Words -/

/-- The pieces of a text consist of its characters, the separators aside. -/
theorem mem_of_mem_splitOnP {separates : Char → Bool} {text piece : List Char} {character : Char}
    (inside : piece ∈ text.splitOnP separates) (member : character ∈ piece) :
    character ∈ text ∧ separates character = false := by
  induction text generalizing piece with
  | nil =>
    rw [List.splitOnP_nil] at inside
    cases List.mem_singleton.mp inside
    cases member
  | cons first rest inductionHypothesis =>
    have later : ∀ {piece : List Char}, piece ∈ rest.splitOnP separates → character ∈ piece →
        character ∈ first :: rest ∧ separates character = false := fun inside member =>
      (inductionHypothesis inside member).imp_left (List.mem_cons_of_mem first)
    rw [List.splitOnP_cons_eq_if_modifyHead] at inside
    split at inside
    · rcases List.mem_cons.mp inside with rfl | inRest
      · cases member
      · exact later inRest member
    · next keeps =>
      cases pieces : rest.splitOnP separates with
      | nil => exact absurd pieces (List.splitOnP_ne_nil _ _)
      | cons head others =>
        rw [pieces] at inside later
        rcases List.mem_cons.mp inside with rfl | inOthers
        · rcases List.mem_cons.mp member with rfl | inHead
          · exact ⟨List.mem_cons_self, by simpa using keeps⟩
          · exact later List.mem_cons_self inHead
        · exact later (List.mem_cons_of_mem _ inOthers) member

/-- Words consist of the characters that they are read from. -/
theorem mem_of_mem_wordsFrom {run : Run} {word text piece : List Char} {character : Char}
    (inside : piece ∈ wordsFrom run word text) (member : character ∈ piece) :
    character ∈ word ∨ character ∈ text := by
  fun_induction wordsFrom run word text with
  | case1 => cases inside
  | case2 run word last =>
    rw [List.mem_singleton.mp inside, List.mem_reverse] at member
    rcases List.mem_cons.mp member with rfl | before
    · exact Or.inr List.mem_cons_self
    · exact Or.inl before
  | case3 run word current next rest after _ inductionHypothesis =>
    rcases List.mem_cons.mp inside with rfl | later
    · rcases List.mem_cons.mp (List.mem_reverse.mp member) with rfl | before
      · exact Or.inr List.mem_cons_self
      · exact Or.inl before
    · rcases inductionHypothesis later with none | rest
      · cases none
      · exact Or.inr (List.mem_cons_of_mem _ rest)
  | case4 run word current next rest after _ _ inductionHypothesis =>
    rcases List.mem_cons.mp inside with rfl | later
    · exact Or.inl (List.mem_reverse.mp member)
    · rcases inductionHypothesis later with last | rest
      · exact Or.inr (List.mem_singleton.mp last ▸ List.mem_cons_self)
      · exact Or.inr (List.mem_cons_of_mem _ rest)
  | case5 run word current next rest after _ _ inductionHypothesis =>
    rcases inductionHypothesis inside with before | rest
    · rcases List.mem_cons.mp before with rfl | before
      · exact Or.inr List.mem_cons_self
      · exact Or.inl before
    · exact Or.inr (List.mem_cons_of_mem _ rest)

theorem isAlphanumeric_of_mem_words {name : String} {word : List Char} {character : Char}
    (inside : word ∈ words name) (member : character ∈ word) :
    isAlphanumeric character = true := by
  obtain ⟨piece, held, part⟩ := List.mem_flatMap.mp inside
  rcases mem_of_mem_wordsFrom part member with none | source
  · cases none
  · simpa using (mem_of_mem_splitOnP held source).2

theorem notMem_word {name : String} {word : List Char} {character : Char}
    (symbol : isSymbol character = true) (inside : word ∈ words name) : character ∉ word := by
  intro member
  have alphanumeric := isAlphanumeric_of_mem_words inside member
  obtain ⟨⟨ascii, -⟩, noLetter⟩ := isSymbol_iff.mp symbol
  rw [isAlphanumeric_of_ascii ascii, noLetter] at alphanumeric
  cases alphanumeric

/-- The characters of a word in lowercase are lowercase forms of its characters, a final sigma
aside. -/
theorem mem_lowerWord_cases {word : List Char} {character : Char}
    (member : character ∈ lowerWord word) :
    character = 'ς' ∨ ∃ source ∈ word, character ∈ lowerCharacter source := by
  induction word with
  | nil => cases member
  | cons first rest inductionHypothesis =>
    cases rest with
    | nil =>
      unfold lowerWord at member
      split at member
      · exact Or.inl (List.mem_singleton.mp member)
      · exact Or.inr ⟨first, List.mem_cons_self, member⟩
    | cons second rest =>
      have more : lowerWord (first :: second :: rest) =
          lowerCharacter first ++ lowerWord (second :: rest) := rfl
      rw [more] at member
      rcases List.mem_append.mp member with here | later
      · exact Or.inr ⟨first, List.mem_cons_self, here⟩
      · refine (inductionHypothesis later).imp_right ?_
        rintro ⟨source, inside, lowered⟩
        exact ⟨source, List.mem_cons_of_mem _ inside, lowered⟩

theorem notMem_lowerWord {word : List Char} {character : Char} (symbol : isSymbol character = true)
    (absent : character ∉ word) : character ∉ lowerWord word := by
  intro member
  rcases mem_lowerWord_cases member with rfl | ⟨source, inside, lowered⟩
  · exact absurd symbol (by decide)
  · exact absent (eq_of_mem_lowerCharacter symbol lowered ▸ inside)

theorem notMem_capitalWord {word : List Char} {character : Char}
    (symbol : isSymbol character = true) (absent : character ∉ word) :
    character ∉ capitalWord word := by
  cases word with
  | nil => exact absent
  | cons first rest =>
    rw [capitalWord, List.mem_append]
    rintro (here | later)
    · exact absent (eq_of_mem_upperCharacter symbol here ▸ List.mem_cons_self)
    · exact notMem_lowerWord symbol (fun member => absent (List.mem_cons_of_mem _ member)) later

theorem notMem_camelCase {character : Char} (symbol : isSymbol character = true) (name : String) :
    character ∉ (camelCase name).toList := by
  intro member
  rw [camelCase, String.toList_ofList] at member
  obtain ⟨word, inside, held⟩ := List.mem_flatMap.mp member
  exact notMem_capitalWord symbol (notMem_word symbol inside) held

end ServiceForge.Text

namespace ServiceForge.Naming

open ServiceForge.Text

/-- A type name holds no symbol. -/
theorem notMem_typeName {character : Char} (symbol : isSymbol character = true) (hint : String) :
    character ∉ (typeName hint).toList := by
  have letters : "Value".toList.all (fun letter => !isSymbol letter) = true := by decide
  have plain : ∀ letter ∈ "Value".toList, character ≠ letter := by
    rintro letter member rfl
    have kept := List.all_eq_true.mp letters character member
    rw [symbol] at kept
    cases kept
  unfold typeName
  simp only
  split
  · exact fun member => plain character member rfl
  split
  · rw [String.toList_append, List.mem_append]
    rintro (first | later)
    · exact plain character (by simp_all) rfl
    · exact notMem_camelCase symbol hint later
  · exact notMem_camelCase symbol hint

end ServiceForge.Naming
