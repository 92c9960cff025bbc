/-
This file says what the names of types look like that are made from names of ASCII: an
uppercase letter and then letters and digits, with marks and further digits after them. Such
a name is an identifier, unless it is the only keyword that begins with an uppercase letter.
The hints for names stay in ASCII whatever the lowering makes of them.
-/

import ServiceForge.Proofs.Text.Marks

namespace ServiceForge.Text

/-! ### Texts of ASCII -/

theorem toNat_lt_of_isAlphanum {character : Char} (alphanumeric : character.isAlphanum = true) :
    character.toNat < 128 := by
  unfold Char.isAlphanum Char.isAlpha Char.isUpper Char.isLower Char.isDigit at alphanumeric
  simp only [Bool.or_eq_true, Bool.and_eq_true, decide_eq_true_eq, UInt32.le_iff_toNat_le,
    ge_iff_le] at alphanumeric
  have upper : 'Z'.val.toNat = 90 := rfl
  have lower : 'z'.val.toNat = 122 := rfl
  have digit : '9'.val.toNat = 57 := rfl
  have point : character.toNat = character.val.toNat := rfl
  omega

theorem IsAscii.append {first second : String} (left : IsAscii first) (right : IsAscii second) :
    IsAscii (first ++ second) := by
  intro character member
  rw [String.toList_append] at member
  rcases List.mem_append.mp member with here | there
  · exact left character here
  · exact right character there

theorem IsAscii.of_subset {first second : String} (ascii : IsAscii second)
    (inside : first.toList ⊆ second.toList) : IsAscii first :=
  fun character member => ascii character (inside member)

/-- What is before the end of a text has no other characters than the text. -/
theorem toList_beforeEnd?_subset {finish text stem : String}
    (found : beforeEnd? finish text = some stem) : stem.toList ⊆ text.toList := by
  unfold beforeEnd? at found
  split at found
  · cases found
    rw [String.toList_ofList]
    exact List.take_subset _ _
  · cases found

/-! ### Words of ASCII in camel case -/

/-- A capital letter, or a digit in the place of one. -/
theorem isUpper_or_isDigit_toUpper {character : Char}
    (alphanumeric : character.isAlphanum = true) :
    character.toUpper.isUpper = true ∨ character.toUpper.isDigit = true := by
  have each : ∀ point < 128, (Char.ofNat point).isAlphanum = true →
      (Char.ofNat point).toUpper.isUpper = true ∨ (Char.ofNat point).toUpper.isDigit = true := by
    decide
  exact forall_lt_of_ofNat (P := fun character => character.isAlphanum = true →
    character.toUpper.isUpper = true ∨ character.toUpper.isDigit = true) each character
    (toNat_lt_of_isAlphanum alphanumeric) alphanumeric

theorem isAlphanum_of_isUpper_or_isDigit {character : Char}
    (either : character.isUpper = true ∨ character.isDigit = true) :
    character.isAlphanum = true := by
  unfold Char.isAlphanum Char.isAlpha
  rcases either with upper | digit
  · rw [upper]
    rfl
  · rw [digit, Bool.or_true]

theorem isDigit_of_isUpper {character : Char} (upper : character.isUpper = true) :
    character.isDigit = false := by
  have each : ∀ point < 128, (Char.ofNat point).isUpper = true →
      (Char.ofNat point).isDigit = false := by decide
  exact forall_lt_of_ofNat (P := fun character => character.isUpper = true →
    character.isDigit = false) each character
    (toNat_lt_of_isAlphanum (isAlphanum_of_isUpper_or_isDigit (Or.inl upper))) upper

/-- A word of ASCII begins with a capital letter or a digit and goes on with lowercase letters and
digits. -/
theorem capitalWord_of_ascii {name : String} (ascii : IsAscii name) {word : List Char}
    (inside : word ∈ words name) :
    ∃ first rest, capitalWord word = first :: rest ∧
      (first.isUpper = true ∨ first.isDigit = true) ∧
        ∀ character ∈ rest, character.isAlphanum = true := by
  have points := ascii_of_mem_words ascii inside
  have alphanumeric : ∀ character ∈ word, character.isAlphanum = true := by
    intro character member
    have known := isAlphanumeric_of_mem_words inside member
    rwa [isAlphanumeric_of_ascii (points character member)] at known
  obtain ⟨first, rest, rfl⟩ := List.exists_cons_of_ne_nil (ne_nil_of_mem_words inside)
  obtain ⟨pointFirst, pointsRest⟩ := List.forall_mem_cons.mp points
  obtain ⟨alphanumericFirst, alphanumericRest⟩ := List.forall_mem_cons.mp alphanumeric
  refine ⟨first.toUpper, rest.map Char.toLower, ?_, isUpper_or_isDigit_toUpper alphanumericFirst, ?_⟩
  · rw [capitalWord, upperCharacter, if_pos pointFirst, lowerWord_of_ascii pointsRest]
    rfl
  · intro character member
    obtain ⟨source, held, rfl⟩ := List.mem_map.mp member
    exact (isSettled_iff.mp (isSettled_toLower (pointsRest source held)
      (alphanumericRest source held))).1.2

/-- A name in camel case is its words with a capital each. -/
theorem toList_camelCase (name : String) :
    (camelCase name).toList = (words name).flatMap capitalWord := String.toList_ofList

/-- The camel case of a name in ASCII has only letters and digits. -/
theorem characters_camelCase {name : String} (ascii : IsAscii name) :
    ∀ character ∈ (camelCase name).toList, character.isAlphanum = true := by
  intro character member
  rw [toList_camelCase] at member
  obtain ⟨word, inside, held⟩ := List.mem_flatMap.mp member
  obtain ⟨first, rest, whole, start, others⟩ := capitalWord_of_ascii ascii inside
  rw [whole] at held
  rcases List.mem_cons.mp held with rfl | later
  · exact isAlphanum_of_isUpper_or_isDigit start
  · exact others character later

/-- A name in camel case begins with an uppercase letter if it begins with no digit. -/
theorem start_camelCase {name : String} (ascii : IsAscii name) (filled : camelCase name ≠ "")
    (noDigit : Naming.startsWithDigit (camelCase name) = false) :
    (camelCase name).toList.head?.any Char.isUpper = true := by
  rw [Naming.startsWithDigit, toList_camelCase] at noDigit
  rw [toList_camelCase]
  cases whole : words name with
  | nil =>
    refine absurd ?_ filled
    rw [camelCase, whole]
    rfl
  | cons word others =>
    have inside : word ∈ words name := whole ▸ List.mem_cons_self
    obtain ⟨first, rest, same, start, -⟩ := capitalWord_of_ascii ascii inside
    rw [whole, List.flatMap_cons, same, List.cons_append, List.head?_cons, Option.any_some]
      at noDigit
    rw [List.flatMap_cons, same, List.cons_append, List.head?_cons, Option.any_some]
    exact start.resolve_right (by simp [noDigit])

end ServiceForge.Text

namespace ServiceForge.Naming

open ServiceForge.Text

/-! ### Names of types -/

/-- The form of the names of types and variants: letters, digits and marks after an uppercase
letter. -/
structure IsCapitalized (name : String) : Prop where
  characters : ∀ character ∈ name.toList, character.isAlphanum = true ∨ character = '_'
  start : name.toList.head?.any Char.isUpper = true

instance (name : String) : Decidable (IsCapitalized name) :=
  letI : Decidable (∀ character ∈ name.toList, character.isAlphanum = true ∨ character = '_') :=
    List.decidableBAll _ _
  decidable_of_iff
    ((∀ character ∈ name.toList, character.isAlphanum = true ∨ character = '_') ∧
      name.toList.head?.any Char.isUpper = true)
    ⟨fun ⟨characters, start⟩ => ⟨characters, start⟩, fun name => ⟨name.characters, name.start⟩⟩

/-- The name of a type in ASCII is capitalized. -/
theorem isCapitalized_typeName {hint : String} (ascii : IsAscii hint) :
    IsCapitalized (typeName hint) := by
  have characters := characters_camelCase ascii
  unfold typeName
  simp only
  split
  · decide
  · next nonempty =>
    split
    · refine ⟨fun character member => ?_, by rw [String.toList_append]; rfl⟩
      rw [String.toList_append] at member
      rcases List.mem_cons.mp member with rfl | own
      · exact Or.inl (by decide)
      · exact Or.inl (characters character own)
    · next plain =>
      exact ⟨fun character member => Or.inl (characters character member),
        start_camelCase ascii (by simpa using nonempty) (by simpa using plain)⟩

namespace IsCapitalized

variable {name : String}

theorem nonempty (isName : IsCapitalized name) : name.toList ≠ [] := by
  intro empty
  have start := isName.start
  rw [empty] at start
  cases start

/-- A name with more letters, digits and marks after it is still one. -/
theorem append {suffix : String} (isName : IsCapitalized name)
    (more : ∀ character ∈ suffix.toList, character.isAlphanum = true ∨ character = '_') :
    IsCapitalized (name ++ suffix) where
  characters character member := by
    rw [String.toList_append] at member
    rcases List.mem_append.mp member with own | added
    · exact isName.characters character own
    · exact more character added
  start := by
    rw [String.toList_append, List.head?_append_of_ne_nil _ isName.nonempty]
    exact isName.start

/-- A capitalized name stays one with a number at its end. -/
theorem append_toString (isName : IsCapitalized name) (number : Nat) :
    IsCapitalized (name ++ toString number) :=
  isName.append fun _ member => Or.inl (isAlphanum_of_mem_toString member)

/-- A capitalized name stays one however often a suffix of letters and digits is appended. -/
theorem iterate {suffix : String} (isName : IsCapitalized name)
    (more : ∀ character ∈ suffix.toList, character.isAlphanum = true ∨ character = '_')
    (count : Nat) : IsCapitalized ((· ++ suffix)^[count] name) := by
  induction count with
  | zero => exact isName
  | succ count inductionHypothesis =>
    rw [Function.iterate_succ_apply']
    exact inductionHypothesis.append more

theorem ascii (isName : IsCapitalized name) : IsAscii name := by
  intro character member
  rcases isName.characters character member with alphanumeric | rfl
  · exact toNat_lt_of_isAlphanum alphanumeric
  · decide

/-- Only one keyword begins with an uppercase letter. -/
theorem isIdentifier_iff (isName : IsCapitalized name) : IsIdentifier name ↔ name ≠ "Self" := by
  constructor
  · rintro identifier rfl
    exact absurd identifier.notKeyword (by decide)
  · intro other
    have only : ∀ keyword ∈ keywords, keyword.toList.head?.any Char.isUpper = true →
        keyword = "Self" := by decide
    have start := isName.start
    refine ⟨isName.characters, ?_, ?_, ?_, ?_⟩
    · unfold startsWithDigit
      cases first : name.toList.head? with
      | none => rfl
      | some character =>
        rw [first, Option.any_some] at start
        exact isDigit_of_isUpper start
    · rintro rfl
      exact isName.nonempty rfl
    · rintro rfl
      exact absurd start (by decide)
    · refine Bool.eq_false_iff.mpr fun keyword => other ?_
      exact only name (List.contains_iff_mem.mp keyword) start

end IsCapitalized

/-! ### Hints -/

/-- The singular of a noun in ASCII is in ASCII. -/
theorem isAscii_singularize {noun : String} (ascii : IsAscii noun) :
    IsAscii (singularize noun) := by
  unfold singularize
  split
  · next stem found =>
    exact (ascii.of_subset (toList_beforeEnd?_subset found)).append (by decide)
  · split
    · refine ascii.of_subset ?_
      rw [String.toList_ofList]
      exact List.take_subset _ _
    · split
      · exact ascii
      · cases found : beforeEnd? "s" noun with
        | none => exact ascii
        | some stem => exact ascii.of_subset (toList_beforeEnd?_subset found)

theorem isAscii_versionSuffix (version : String) : IsAscii (versionSuffix version) := by
  intro character member
  rw [versionSuffix, String.toList_ofList] at member
  exact toNat_lt_of_isAlphanum (List.mem_filter.mp member).2

theorem isAscii_toString (number : Nat) : IsAscii (toString number) :=
  fun _ member => toNat_lt_of_isAlphanum (isAlphanum_of_mem_toString member)

end ServiceForge.Naming
