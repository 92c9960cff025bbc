/-
This file proves that names of ASCII do not change any more once they are in snake
case: their words are then runs of lowercase letters and digits between underscores,
and the words of such a text are those runs.
-/

import ServiceForge.Proofs.Text.Words

namespace ServiceForge.Text

/-- Whether a text consists of characters of ASCII. -/
def IsAscii (text : String) : Prop := ∀ character ∈ text.toList, character.toNat < 128

instance (text : String) : Decidable (IsAscii text) := List.decidableBAll _ _

/-! ### Settled characters -/

/-- Whether a character is a digit or a lowercase letter of ASCII. -/
def isSettled (character : Char) : Bool :=
  decide (character.toNat < 128) && character.isAlphanum && !character.isUpper

theorem isSettled_iff {character : Char} : isSettled character = true ↔
    (character.toNat < 128 ∧ character.isAlphanum = true) ∧ character.isUpper = false := by
  simp [isSettled]

theorem isSettled_toLower {character : Char} (ascii : character.toNat < 128)
    (alphanumeric : character.isAlphanum = true) : isSettled character.toLower = true := by
  have each : ∀ point < 128, (Char.ofNat point).isAlphanum = true →
      isSettled (Char.ofNat point).toLower = true := by decide
  exact forall_lt_of_ofNat (P := fun character => character.isAlphanum = true →
    isSettled character.toLower = true) each character ascii alphanumeric

theorem toLower_of_isSettled {character : Char} (settled : isSettled character = true) :
    character.toLower = character := by
  have each : ∀ point < 128, isSettled (Char.ofNat point) = true →
      (Char.ofNat point).toLower = Char.ofNat point := by decide
  exact forall_lt_of_ofNat (P := fun character => isSettled character = true →
    character.toLower = character) each character (isSettled_iff.mp settled).1.1 settled

theorem isAlphanumeric_of_isSettled {character : Char} (settled : isSettled character = true) :
    isAlphanumeric character = true := by
  obtain ⟨⟨ascii, alphanumeric⟩, -⟩ := isSettled_iff.mp settled
  rw [isAlphanumeric_of_ascii ascii, alphanumeric]

theorem isUppercase_of_isSettled {character : Char} (settled : isSettled character = true) :
    isUppercase character = false := by
  obtain ⟨⟨ascii, -⟩, notUpper⟩ := isSettled_iff.mp settled
  rw [isUppercase, if_pos ascii, notUpper]

/-! ### Words of ASCII -/

theorem lowerWord_of_ascii {word : List Char} (ascii : ∀ character ∈ word, character.toNat < 128) :
    lowerWord word = word.map Char.toLower := by
  induction word with
  | nil => rfl
  | cons first rest inductionHypothesis =>
    have head : first.toNat < 128 := ascii first List.mem_cons_self
    have lowered : lowerCharacter first = [first.toLower] := if_pos head
    cases rest with
    | nil =>
      have noSigma : first ≠ 'Σ' := by
        rintro rfl
        exact absurd head (by decide)
      rw [lowerWord, if_neg noSigma, lowered]
      rfl
    | cons second rest =>
      show lowerCharacter first ++ lowerWord (second :: rest) = _
      rw [lowered, inductionHypothesis fun character member =>
        ascii character (List.mem_cons_of_mem _ member)]
      rfl

/-- No word is empty: one ends before a character only after another one was read. -/
theorem ne_nil_of_mem_wordsFrom {run : Run} {word text piece : List Char}
    (begun : run = .upper → word ≠ []) (inside : piece ∈ wordsFrom run word text) :
    piece ≠ [] := by
  fun_induction wordsFrom run word text with
  | case1 => cases inside
  | case2 run word last =>
    rw [List.mem_singleton.mp inside]
    simp
  | case3 run word current next rest after _ inductionHypothesis =>
    rcases List.mem_cons.mp inside with rfl | later
    · simp
    · exact inductionHypothesis (fun upper => by cases upper) later
  | case4 run word current next rest after _ ends inductionHypothesis =>
    rcases List.mem_cons.mp inside with rfl | later
    · simpa using begun ends.1
    · exact inductionHypothesis (fun upper => by cases upper) later
  | case5 run word current next rest after _ _ inductionHypothesis =>
    exact inductionHypothesis (fun _ => List.cons_ne_nil _ _) inside

theorem ne_nil_of_mem_words {name : String} {word : List Char} (inside : word ∈ words name) :
    word ≠ [] := by
  obtain ⟨piece, -, part⟩ := List.mem_flatMap.mp inside
  exact ne_nil_of_mem_wordsFrom (fun upper => by cases upper) part

theorem ascii_of_mem_words {name : String} (ascii : IsAscii name) {word : List Char}
    (inside : word ∈ words name) : ∀ character ∈ word, character.toNat < 128 := by
  intro character member
  obtain ⟨piece, held, part⟩ := List.mem_flatMap.mp inside
  rcases mem_of_mem_wordsFrom part member with none | source
  · cases none
  · exact ascii character (mem_of_mem_splitOnP held source).1

/-- The lowercase words of a name of ASCII are settled. -/
theorem isSettled_of_mem_lowerWord {name : String} (ascii : IsAscii name) {word : List Char}
    (inside : word ∈ words name) : ∀ character ∈ lowerWord word, isSettled character = true := by
  have characters := ascii_of_mem_words ascii inside
  rw [lowerWord_of_ascii characters]
  intro character member
  obtain ⟨source, held, rfl⟩ := List.mem_map.mp member
  have alphanumeric := isAlphanumeric_of_mem_words inside held
  rw [isAlphanumeric_of_ascii (characters source held)] at alphanumeric
  exact isSettled_toLower (characters source held) alphanumeric

/-! ### Settled words -/

theorem lowerWord_of_isSettled {word : List Char}
    (settled : ∀ character ∈ word, isSettled character = true) : lowerWord word = word := by
  rw [lowerWord_of_ascii fun character member => (isSettled_iff.mp (settled character member)).1.1]
  calc word.map Char.toLower
      = word.map id := List.map_congr_left fun character member =>
        toLower_of_isSettled (settled character member)
    _ = word := List.map_id word

/-- A run of settled characters is one word. -/
theorem wordsFrom_of_isSettled {run : Run} {word text : List Char} (nonempty : text ≠ [])
    (settled : ∀ character ∈ text, isSettled character = true) :
    wordsFrom run word text = [word.reverse ++ text] := by
  induction text generalizing run word with
  | nil => exact absurd rfl nonempty
  | cons first rest inductionHypothesis =>
    cases rest with
    | nil => simp [wordsFrom]
    | cons second rest =>
      have notFirst := isUppercase_of_isSettled (settled first List.mem_cons_self)
      have notSecond := isUppercase_of_isSettled
        (settled second (List.mem_cons_of_mem _ List.mem_cons_self))
      unfold wordsFrom
      simp only [notFirst, notSecond, Bool.false_eq_true, and_false, false_and, if_false]
      rw [inductionHypothesis (List.cons_ne_nil _ _)
        fun character member => settled character (List.mem_cons_of_mem _ member)]
      simp

/-- The pieces between underscores are the pieces that were joined with them. -/
theorem splitOnP_intercalate {separates : Char → Bool} {separator : Char}
    {pieces : List (List Char)} (isSeparator : separates separator = true) (nonempty : pieces ≠ [])
    (kept : ∀ piece ∈ pieces, ∀ character ∈ piece, separates character = false) :
    ([separator].intercalate pieces).splitOnP separates = pieces := by
  induction pieces with
  | nil => exact absurd rfl nonempty
  | cons first rest inductionHypothesis =>
    have head := kept first List.mem_cons_self
    cases rest with
    | nil => simpa using List.splitOnP_eq_singleton head
    | cons second rest =>
      have more : [separator].intercalate (first :: second :: rest) =
          first ++ separator :: [separator].intercalate (second :: rest) := by
        simp [List.intercalate, List.intersperse]
      rw [more, List.splitOnP_append_cons_of_forall_mem head separator isSeparator,
        inductionHypothesis (List.cons_ne_nil _ _)
          fun piece member => kept piece (List.mem_cons_of_mem _ member)]

/-- The words of settled runs between underscores are these runs. -/
theorem words_join {pieces : List (List Char)} (nonempty : ∀ piece ∈ pieces, piece ≠ [])
    (settled : ∀ piece ∈ pieces, ∀ character ∈ piece, isSettled character = true) :
    words (join "_" (pieces.map String.ofList)) = pieces := by
  by_cases none : pieces = []
  · subst none
    rfl
  have joined : (join "_" (pieces.map String.ofList)).toList = ['_'].intercalate pieces := by
    simp [join, String.toList_intercalate, Function.comp_def]
  have split : (['_'].intercalate pieces).splitOnP (fun character => !isAlphanumeric character) =
      pieces := by
    refine splitOnP_intercalate (by decide) none fun piece member character inside => ?_
    rw [isAlphanumeric_of_isSettled (settled piece member character inside)]
    rfl
  unfold words
  rw [joined, split]
  calc pieces.flatMap (wordsFrom .fresh [])
      = pieces.flatMap fun piece => [piece] := List.flatMap_congr fun piece member =>
        wordsFrom_of_isSettled (nonempty piece member) (settled piece member)
    _ = pieces := List.flatMap_singleton' pieces

/-- Settled words between underscores are a name in snake case. -/
theorem snakeCase_join {pieces : List (List Char)} (nonempty : ∀ piece ∈ pieces, piece ≠ [])
    (settled : ∀ piece ∈ pieces, ∀ character ∈ piece, isSettled character = true) :
    snakeCase (join "_" (pieces.map String.ofList)) = join "_" (pieces.map String.ofList) := by
  unfold snakeCase
  rw [words_join nonempty settled]
  refine congrArg (join "_") (List.map_congr_left fun piece member => ?_)
  rw [lowerWord_of_isSettled (settled piece member)]

/-- A name in snake case is made of words in lowercase. -/
theorem snakeCase_eq_join (name : String) :
    snakeCase name = join "_" (((words name).map lowerWord).map String.ofList) := by
  rw [List.map_map]
  rfl

/-- A name of ASCII in snake case stays as it is. -/
theorem snakeCase_snakeCase {name : String} (ascii : IsAscii name) :
    snakeCase (snakeCase name) = snakeCase name := by
  rw [snakeCase_eq_join name]
  refine snakeCase_join ?_ ?_
  · intro piece member
    obtain ⟨word, inside, rfl⟩ := List.mem_map.mp member
    rw [lowerWord_of_ascii (ascii_of_mem_words ascii inside)]
    simpa using ne_nil_of_mem_words inside
  · intro piece member
    obtain ⟨word, inside, rfl⟩ := List.mem_map.mp member
    exact isSettled_of_mem_lowerWord ascii inside

end ServiceForge.Text

namespace ServiceForge.Naming

open ServiceForge.Text

/-- A module name of ASCII stays as it is. -/
theorem moduleName_moduleName {segment : String} (ascii : IsAscii segment) :
    moduleName (moduleName segment) = moduleName segment :=
  snakeCase_snakeCase ascii

end ServiceForge.Naming
