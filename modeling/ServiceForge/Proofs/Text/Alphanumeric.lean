/-
This file proves that a letter or number stays one in lowercase, so a name in snake case is
empty exactly if the name has neither, and that it is a lowercase letter or a digit if it is
of ASCII then, so a name of ASCII in snake case stays as it is. The set of letters and numbers
is searched by bisection; what lies in one of its ranges is found.
-/

import Mathlib.Data.List.Chain
import ServiceForge.Proofs.Text.Marks

namespace ServiceForge.Text

/-! ### Sets of code points -/

namespace CodePoints

/-- Whether a range that is not empty ends before another one. -/
def Before (left right : Nat × Nat) : Prop := left.1 ≤ left.2 ∧ left.2 < right.1

instance (left right : Nat × Nat) : Decidable (Before left right) :=
  inferInstanceAs (Decidable (_ ∧ _))

instance : IsTrans (Nat × Nat) Before where
  trans _ _ _ first second := ⟨first.1, Nat.lt_trans (Nat.lt_of_lt_of_le first.2 second.1) second.2⟩

/-- Bisection finds the range that a code point lies in. -/
theorem search_of_getElem? {ranges : Array (Nat × Nat)} {point low high index : Nat}
    {range : Nat × Nat} (ascending : ranges.toList.Pairwise Before)
    (found : ranges[index]? = some range) (inside : range.1 ≤ point ∧ point ≤ range.2)
    (above : low ≤ index) (below : index < high) (bounded : high ≤ ranges.size) :
    search ranges point low high = true := by
  have apart {left right : Nat} {first last : Nat × Nat} (isFirst : ranges[left]? = some first)
      (isLast : ranges[right]? = some last) (less : left < right) : Before first last := by
    obtain ⟨_, rfl⟩ := Array.getElem?_eq_some_iff.mp isFirst
    obtain ⟨_, rfl⟩ := Array.getElem?_eq_some_iff.mp isLast
    exact List.pairwise_iff_getElem.mp ascending left right _ _ less
  fun_induction search ranges point low high with
  | case1 low high proper middle none =>
    have outside := Array.getElem?_eq_none_iff.mp none
    omega
  | case2 low high proper middle first last isMiddle before inductionHypothesis =>
    refine inductionHypothesis above (Nat.lt_of_not_le fun reached => ?_) (by omega)
    rcases Nat.eq_or_lt_of_le reached with same | less
    · rw [← same, isMiddle] at found
      cases found
      omega
    · have order := apart isMiddle found less
      unfold Before at order
      omega
  | case3 low high proper middle first last isMiddle _ after inductionHypothesis =>
    refine inductionHypothesis (Nat.lt_of_not_le fun reached => ?_) below bounded
    rcases Nat.eq_or_lt_of_le reached with same | less
    · rw [same, isMiddle] at found
      cases found
      omega
    · have order := apart found isMiddle less
      unfold Before at order
      omega
  | case4 => rfl
  | case5 => omega

theorem contains_of_mem {set : CodePoints} (ascending : set.ranges.toList.Pairwise Before)
    {range : Nat × Nat} (member : range ∈ set.ranges.toList) {character : Char}
    (inside : range.1 ≤ character.toNat ∧ character.toNat ≤ range.2) :
    set.contains character = true := by
  obtain ⟨index, found⟩ := List.mem_iff_getElem?.mp member
  rw [Array.getElem?_toList] at found
  obtain ⟨bound, -⟩ := Array.getElem?_eq_some_iff.mp found
  exact search_of_getElem? ascending found inside (Nat.zero_le index) bound (Nat.le_refl _)

/-- Whether all code points from one to another lie in the same range. -/
def spans (set : CodePoints) (first last : Nat) : Bool :=
  set.ranges.toList.any fun range => range.1.ble first && last.ble range.2

end CodePoints

theorem alphanumericPoints_ascending :
    alphanumericPoints.ranges.toList.Pairwise CodePoints.Before := by
  rw [← List.isChain_iff_pairwise]
  decide +kernel

/-- Code points of letters and numbers are above ASCII and stand for characters. -/
theorem alphanumericPoints_proper : ∀ range ∈ alphanumericPoints.ranges.toList,
    128 ≤ range.1 ∧ (range.2 < 0xD800 ∨ 0xDFFF < range.1 ∧ range.2 < 0x110000) := by
  decide +kernel

theorem exists_range_of_spans {first last point : Nat}
    (spans : alphanumericPoints.spans first last = true) (inside : first ≤ point ∧ point ≤ last) :
    ∃ range ∈ alphanumericPoints.ranges.toList, range.1 ≤ point ∧ point ≤ range.2 := by
  obtain ⟨range, member, holds⟩ := List.any_eq_true.mp spans
  obtain ⟨low, high⟩ := Bool.and_eq_true_iff.mp holds
  exact ⟨range, member, (Nat.le_of_ble_eq_true low).trans inside.1,
    inside.2.trans (Nat.le_of_ble_eq_true high)⟩

/-- What lies in a range of letters and numbers stands for a character above ASCII. -/
theorem toNat_of_spans {first last point : Nat}
    (spans : alphanumericPoints.spans first last = true) (inside : first ≤ point ∧ point ≤ last) :
    (Char.ofNat point).toNat = point ∧ 128 ≤ point := by
  obtain ⟨range, member, low, high⟩ := exists_range_of_spans spans inside
  obtain ⟨above, valid⟩ := alphanumericPoints_proper range member
  refine ⟨?_, above.trans low⟩
  have isValid : point.isValidChar := by
    rcases valid with below | ⟨above, below⟩
    · exact Or.inl (by omega)
    · exact Or.inr ⟨by omega, by omega⟩
  rw [Char.ofNat, dif_pos isValid]
  rfl

theorem isAlphanumeric_of_spans {first last point : Nat}
    (spans : alphanumericPoints.spans first last = true) (inside : first ≤ point ∧ point ≤ last) :
    isAlphanumeric (Char.ofNat point) = true := by
  obtain ⟨isPoint, above⟩ := toNat_of_spans spans inside
  obtain ⟨range, member, bounds⟩ := exists_range_of_spans spans inside
  rw [isAlphanumeric, isPoint, if_neg (Nat.not_lt.mpr above)]
  exact CodePoints.contains_of_mem alphanumericPoints_ascending member (isPoint.symm ▸ bounds)

/-! ### Letters in lowercase -/

/-- Whether a code point is a letter or number of ASCII. -/
def isAsciiLetter (point : Nat) : Bool := decide (point < 128) && (Char.ofNat point).isAlphanum

theorem isAlphanumeric_of_isAsciiLetter {point : Nat} (letter : isAsciiLetter point = true) :
    isAlphanumeric (Char.ofNat point) = true := by
  obtain ⟨below, alphanumeric⟩ := Bool.and_eq_true_iff.mp letter
  have isPoint : (Char.ofNat point).toNat = point := by
    refine toNat_ofNat fun null => ?_
    rw [null] at alphanumeric
    cases alphanumeric
  rw [isAlphanumeric_of_ascii (isPoint.symm ▸ of_decide_eq_true below)]
  exact alphanumeric

/-- Letters move to letters: all of them into one range, or a single one into ASCII. -/
theorem lowerMapping_shifts : ∀ shift ∈ lowerMapping.shifts,
    (shift.first = shift.last ∧ isAsciiLetter (shift.image shift.first) = true) ∨
      alphanumericPoints.spans (shift.image shift.first) (shift.image shift.last) = true := by
  decide +kernel

theorem lowerMapping_expansions : ∀ expansion ∈ lowerMapping.expansions,
    ∃ point ∈ expansion.2, isAsciiLetter point = true := by
  decide +kernel

theorem CaseShift.image_mono {shift : CaseShift} {left right : Nat} (less : left ≤ right) :
    shift.image left ≤ shift.image right := by
  unfold image
  split <;> omega

/-- Only lowercase letters of ASCII are lowercase forms of other characters. -/
theorem lowerMapping_settles :
    (∀ shift ∈ lowerMapping.shifts, isAsciiLetter (shift.image shift.first) = true →
      isSettled (Char.ofNat (shift.image shift.first)) = true) ∧
    ∀ expansion ∈ lowerMapping.expansions, ∀ point ∈ expansion.2,
      128 ≤ (Char.ofNat point).toNat ∨ isSettled (Char.ofNat point) = true := by
  decide +kernel

/-- A letter or number is settled in lowercase where that is of ASCII. -/
theorem isSettled_of_mem_lowerCharacter {source letter : Char}
    (alphanumeric : isAlphanumeric source = true) (member : letter ∈ lowerCharacter source)
    (below : letter.toNat < 128) : isSettled letter = true := by
  unfold lowerCharacter at member
  split at member
  · next ascii =>
    rw [isAlphanumeric_of_ascii ascii] at alphanumeric
    rw [List.mem_singleton.mp member]
    exact isSettled_toLower ascii alphanumeric
  · next above =>
    obtain ⟨point, image, rfl⟩ := List.mem_map.mp member
    rcases CaseMapping.mem_images_cases image with ⟨expansion, held, inside⟩ |
      ⟨shift, held, covered, rfl⟩ | rfl
    · exact (lowerMapping_settles.2 expansion held point inside).resolve_left (Nat.not_le.mpr below)
    -- Only single letters are moved into ASCII; what is moved as a range stays above it.
    · rcases lowerMapping_shifts shift held with ⟨single, letter⟩ | spans
      · rw [CaseShift.eq_of_covers covered single]
        exact lowerMapping_settles.1 shift held letter
      · have bounds : shift.first ≤ source.toNat ∧ source.toNat ≤ shift.last ∧
            (source.toNat - shift.first) % shift.step = 0 := by
          simpa [CaseShift.covers] using covered
        obtain ⟨isPoint, outside⟩ := toNat_of_spans spans
          ⟨CaseShift.image_mono bounds.1, CaseShift.image_mono bounds.2.1⟩
        omega
    · rw [Char.ofNat_toNat] at below
      exact absurd below above

theorem exists_isAlphanumeric_lowerCharacter {character : Char}
    (alphanumeric : isAlphanumeric character = true) :
    ∃ letter ∈ lowerCharacter character, isAlphanumeric letter = true := by
  unfold lowerCharacter
  split
  · next ascii =>
    rw [isAlphanumeric_of_ascii ascii] at alphanumeric
    exact ⟨_, List.mem_singleton_self _,
      isAlphanumeric_of_isSettled (isSettled_toLower ascii alphanumeric)⟩
  · have image {point : Nat} (member : point ∈ lowerMapping.images character.toNat)
        (isLetter : isAlphanumeric (Char.ofNat point) = true) :
        ∃ letter ∈ lowerMapping.apply character, isAlphanumeric letter = true :=
      ⟨_, List.mem_map_of_mem member, isLetter⟩
    unfold CaseMapping.images at image
    split at image
    · next expansion found =>
      obtain ⟨before, after, whole, -⟩ := List.lookup_eq_some_iff.mp found
      have held : (character.toNat, expansion) ∈ lowerMapping.expansions := by simp [whole]
      obtain ⟨point, member, letter⟩ := lowerMapping_expansions _ held
      exact image member (isAlphanumeric_of_isAsciiLetter letter)
    · split at image
      · next shift found =>
        refine image (List.mem_singleton_self _) ?_
        have covered : shift.covers character.toNat = true := by simpa using List.find?_some found
        have bounds : shift.first ≤ character.toNat ∧ character.toNat ≤ shift.last ∧
            (character.toNat - shift.first) % shift.step = 0 := by
          simpa [CaseShift.covers] using covered
        have member := List.mem_of_find?_eq_some found
        rcases lowerMapping_shifts shift member with ⟨single, letter⟩ | spans
        · have same : character.toNat = shift.first := by omega
          rw [same]
          exact isAlphanumeric_of_isAsciiLetter letter
        · exact isAlphanumeric_of_spans spans
            ⟨CaseShift.image_mono bounds.1, CaseShift.image_mono bounds.2.1⟩
      · exact image (List.mem_singleton_self _) ((Char.ofNat_toNat character).symm ▸ alphanumeric)

theorem exists_isAlphanumeric_lowerWord {word : List Char} (nonempty : word ≠ [])
    (alphanumeric : ∀ character ∈ word, isAlphanumeric character = true) :
    ∃ letter ∈ lowerWord word, isAlphanumeric letter = true := by
  cases word with
  | nil => exact absurd rfl nonempty
  | cons first rest =>
    obtain ⟨letter, member, isLetter⟩ :=
      exists_isAlphanumeric_lowerCharacter (alphanumeric first List.mem_cons_self)
    cases rest with
    | nil =>
      unfold lowerWord
      split
      · have spans : alphanumericPoints.spans 0x3C2 0x3C2 = true := by decide +kernel
        exact ⟨'ς', List.mem_singleton_self _, isAlphanumeric_of_spans spans (by decide)⟩
      · exact ⟨letter, member, isLetter⟩
    | cons second rest => exact ⟨letter, List.mem_append_left _ member, isLetter⟩

/-! ### Words -/

/-- Each character that does not separate lies in a piece. -/
theorem exists_mem_splitOnP {separates : Char → Bool} {text : List Char} {character : Char}
    (member : character ∈ text) (kept : separates character = false) :
    ∃ piece ∈ text.splitOnP separates, character ∈ piece := by
  induction text with
  | nil => cases member
  | cons first rest inductionHypothesis =>
    rw [List.splitOnP_cons_eq_if_modifyHead]
    rcases List.mem_cons.mp member with rfl | later
    · rw [if_neg (by simp [kept])]
      obtain ⟨head, others, pieces⟩ :=
        List.exists_cons_of_ne_nil (List.splitOnP_ne_nil separates rest)
      rw [pieces]
      exact ⟨_, List.mem_cons_self, List.mem_cons_self⟩
    · obtain ⟨piece, inside, held⟩ := inductionHypothesis later
      split
      · exact ⟨piece, List.mem_cons_of_mem _ inside, held⟩
      · obtain ⟨head, others, pieces⟩ :=
          List.exists_cons_of_ne_nil (List.splitOnP_ne_nil separates rest)
        rw [pieces] at inside ⊢
        rcases List.mem_cons.mp inside with rfl | inOthers
        · exact ⟨_, List.mem_cons_self, List.mem_cons_of_mem _ held⟩
        · exact ⟨piece, List.mem_cons_of_mem _ inOthers, held⟩

theorem wordsFrom_ne_nil {run : Run} {word text : List Char} (nonempty : text ≠ []) :
    wordsFrom run word text ≠ [] := by
  fun_induction wordsFrom run word text with
  | case1 => exact absurd rfl nonempty
  | case2 => exact List.cons_ne_nil _ _
  | case3 => exact List.cons_ne_nil _ _
  | case4 => exact List.cons_ne_nil _ _
  | case5 _ _ _ _ _ _ _ _ inductionHypothesis => exact inductionHypothesis (List.cons_ne_nil _ _)

/-- A name has words exactly if it has letters or numbers. -/
theorem words_eq_nil_iff {name : String} :
    words name = [] ↔ ∀ character ∈ name.toList, isAlphanumeric character = false := by
  constructor
  · intro none character member
    by_contra letter
    obtain ⟨piece, inside, held⟩ : ∃ piece ∈ name.toList.splitOnP fun character =>
        !isAlphanumeric character, character ∈ piece :=
      exists_mem_splitOnP member (by simpa using letter)
    exact wordsFrom_ne_nil (List.ne_nil_of_mem held) (List.flatMap_eq_nil_iff.mp none piece inside)
  · intro symbols
    refine List.eq_nil_iff_forall_not_mem.mpr fun word inside => ?_
    obtain ⟨character, rest, rfl⟩ := List.exists_cons_of_ne_nil (ne_nil_of_mem_words inside)
    have letter := isAlphanumeric_of_mem_words inside List.mem_cons_self
    obtain ⟨piece, held, part⟩ := List.mem_flatMap.mp inside
    rcases mem_of_mem_wordsFrom part List.mem_cons_self with none | source
    · cases none
    · rw [symbols character (mem_of_mem_splitOnP held source).1] at letter
      cases letter

theorem mem_intercalate_of_mem {separator : List Char} {pieces : List (List Char)}
    {piece : List Char} {character : Char} (inside : piece ∈ pieces) (member : character ∈ piece) :
    character ∈ separator.intercalate pieces := by
  induction pieces with
  | nil => cases inside
  | cons first rest inductionHypothesis =>
    cases rest with
    | nil =>
      rw [List.intercalate_singleton]
      exact List.mem_singleton.mp inside ▸ member
    | cons second rest =>
      rw [List.intercalate_cons_cons]
      rcases List.mem_cons.mp inside with rfl | later
      · exact List.mem_append_left _ (List.mem_append_left _ member)
      · exact List.mem_append_right _ (inductionHypothesis later)

theorem snakeCase_eq_empty_iff {name : String} :
    snakeCase name = "" ↔ ∀ character ∈ name.toList, isAlphanumeric character = false := by
  have none : snakeCase "" = "" := rfl
  rw [← words_eq_nil_iff, ← none, snakeCase_eq_iff]
  exact List.map_eq_nil_iff

/-- A name in snake case keeps a letter or number of each word. -/
theorem snakeCase_snakeCase_eq_empty_iff {name : String} :
    snakeCase (snakeCase name) = "" ↔ snakeCase name = "" := by
  constructor
  · intro none
    rw [snakeCase_eq_empty_iff, toList_snakeCase] at none
    rw [snakeCase_eq_empty_iff, ← words_eq_nil_iff]
    refine List.eq_nil_iff_forall_not_mem.mpr fun word inside => ?_
    obtain ⟨letter, member, isLetter⟩ := exists_isAlphanumeric_lowerWord
      (ne_nil_of_mem_words inside) fun _ => isAlphanumeric_of_mem_words inside
    rw [none letter (mem_intercalate_of_mem (List.mem_map_of_mem inside) member)] at isLetter
    cases isLetter
  · intro empty
    rw [empty]
    rfl

/-- A name of ASCII in snake case stays as it is, also if it is made from one that is not. -/
theorem snakeCase_of_isAscii {name : String} (ascii : IsAscii (snakeCase name)) :
    snakeCase (snakeCase name) = snakeCase name := by
  unfold IsAscii at ascii
  rw [toList_snakeCase] at ascii
  rw [snakeCase_eq_join name]
  refine snakeCase_join ?_ ?_
  · intro piece member
    obtain ⟨word, inside, rfl⟩ := List.mem_map.mp member
    exact lowerWord_ne_nil (ne_nil_of_mem_words inside)
  · intro piece member character held
    have below := ascii character (mem_intercalate_of_mem member held)
    obtain ⟨word, inside, rfl⟩ := List.mem_map.mp member
    rcases mem_lowerWord_cases held with rfl | ⟨source, isSource, lowered⟩
    · exact absurd below (by decide)
    · have letter := isAlphanumeric_of_mem_words inside isSource
      exact isSettled_of_mem_lowerCharacter letter lowered below

end ServiceForge.Text

namespace ServiceForge.Naming

open ServiceForge.Text

theorem moduleName_eq_empty_iff {segment : String} :
    moduleName segment = "" ↔ ∀ character ∈ segment.toList, isAlphanumeric character = false :=
  snakeCase_eq_empty_iff

theorem moduleName_moduleName_eq_empty_iff {segment : String} :
    moduleName (moduleName segment) = "" ↔ moduleName segment = "" :=
  snakeCase_snakeCase_eq_empty_iff

end ServiceForge.Naming
