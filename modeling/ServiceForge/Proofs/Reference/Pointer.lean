/-
This file proves that the reference to a component names the component: the key
of an entry survives being escaped as the step of a pointer, whatever characters
it has, and the pointer of the reference leads through the components and the
section to the entry. The rules of pointers are stated beside the lookup, which finds
whatever they lead to, so the entry is the one that every other reader of the reference
finds.
-/

import ServiceForge.OpenApi.Reference
import ServiceForge.Proofs.Text.Words

namespace ServiceForge.OpenApi.Reference

open ServiceForge.Text

/-! ### Escaped keys -/

/-- The characters that stand for a tilde. -/
def escapeTilde (character : Char) : List Char :=
  if character = '~' then ['~', '0'] else [character]

/-- The characters that stand for a character of a key. -/
def escapeKeyCharacter (character : Char) : List Char :=
  if character = '/' then ['~', '1'] else escapeTilde character

theorem toList_escape (key : String) :
    (escape key).toList = key.toList.flatMap escapeKeyCharacter := by
  have pieces : ∀ character : Char,
      ((if character = '~' then "~0".toList else [character]).flatMap fun piece =>
        if piece = '/' then "~1".toList else [piece]) = escapeKeyCharacter character := by
    intro character
    by_cases tilde : character = '~'
    · subst tilde
      rfl
    · by_cases slash : character = '/'
      · subst slash
        rfl
      · simp [escapeKeyCharacter, escapeTilde, tilde, slash]
  simp only [escape, replaceCharacter, String.toList_ofList, List.flatMap_assoc, pieces]

theorem slash_not_mem_escape (key : String) : '/' ∉ (escape key).toList := by
  rw [toList_escape, List.mem_flatMap]
  rintro ⟨character, -, member⟩
  unfold escapeKeyCharacter escapeTilde at member
  split at member
  · simp at member
  · next notSlash =>
    split at member
    · simp at member
    · exact notSlash (List.mem_singleton.mp member).symm

/-- Reading the escaped slashes back leaves the escaped tildes. -/
theorem replaceFrom_slash (characters : List Char) :
    replaceFrom ['~', '1'] ['/'] 0 (characters.flatMap escapeKeyCharacter) =
      characters.flatMap escapeTilde := by
  induction characters with
  | nil => rfl
  | cons character rest inductionHypothesis =>
    rw [List.flatMap_cons, List.flatMap_cons, ← inductionHypothesis]
    by_cases slash : character = '/'
    · subst slash
      simp [escapeKeyCharacter, escapeTilde, replaceFrom]
    · by_cases tilde : character = '~'
      · subst tilde
        simp [escapeKeyCharacter, escapeTilde, replaceFrom]
      · simp [escapeKeyCharacter, escapeTilde, replaceFrom, slash, tilde, Ne.symm tilde]

/-- Reading the escaped tildes back leaves the key. -/
theorem replaceFrom_tilde (characters : List Char) :
    replaceFrom ['~', '0'] ['~'] 0 (characters.flatMap escapeTilde) = characters := by
  induction characters with
  | nil => rfl
  | cons character rest inductionHypothesis =>
    rw [List.flatMap_cons]
    by_cases tilde : character = '~'
    · subst tilde
      simp [escapeTilde, replaceFrom, inductionHypothesis]
    · simp [escapeTilde, replaceFrom, tilde, Ne.symm tilde, inductionHypothesis]

theorem toList_unescape (step : String) :
    (unescape step).toList =
      replaceFrom ['~', '0'] ['~'] 0 (replaceFrom ['~', '1'] ['/'] 0 step.toList) := by
  simp [unescape, replace]

theorem unescape_escape (key : String) : unescape (escape key) = key := by
  rw [← String.toList_inj, toList_unescape, toList_escape, replaceFrom_slash, replaceFrom_tilde]

theorem escape_injective : Function.Injective escape := fun first second same => by
  rw [← unescape_escape first, same, unescape_escape]

/-- A step without tildes names itself. -/
theorem unescape_of_not_mem (step : String) (plain : '~' ∉ step.toList) : unescape step = step := by
  have kept : ∀ (mark : Char) (new characters : List Char), '~' ∉ characters →
      replaceFrom ['~', mark] new 0 characters = characters := by
    intro mark new characters
    induction characters with
    | nil => intro _; rfl
    | cons character rest inductionHypothesis =>
      intro absent
      rw [List.mem_cons, not_or] at absent
      simp [replaceFrom, absent.1, inductionHypothesis absent.2]
  rw [← String.toList_inj, toList_unescape, kept _ _ _ plain, kept _ _ _ plain]

/-! ### Targets are parts of the document -/

/-- What holds of a document and passes from a node to what a step leads to holds of the targets of
references. -/
theorem target?_induction {P : Json → Prop} {document target : Json} {reference : String}
    (step : ∀ {source value : Json} {name : String}, P source → step? source name = some value →
      P value)
    (holds : P document) (found : target? document reference = some target) : P target := by
  have steps : ∀ (names : List String) (start : Option Json), (∀ source ∈ start, P source) →
      ∀ value ∈ names.foldl (fun found name => found.bind (step? · (unescape name))) start,
        P value := by
    intro names
    induction names with
    | nil => exact fun _ holds => holds
    | cons name rest inductionHypothesis =>
      intro start holds
      refine inductionHypothesis _ fun value reached => ?_
      obtain ⟨source, isStart, next⟩ := Option.bind_eq_some_iff.mp reached
      exact step (holds source isStart) next
  unfold target? find? at found
  split at found
  · cases found
    exact holds
  · split at found
    · refine steps _ (some document) (fun source isDocument => ?_) target found
      cases isDocument
      exact holds
    · cases found

/-! ### References to components -/

theorem step?_of_get? {node value : Json} {key : String} (found : node.get? key = some value) :
    step? node key = some value := by
  cases node with
  | object members => exact found
  | _ => cases found

/-- A step that names no position leads to a member or nowhere. -/
theorem step?_of_index? {key : String} (word : index? key = none) (node : Json) :
    step? node key = node.get? key := by
  cases node with
  | array items =>
    rw [step?, word]
    rfl
  | _ => rfl

theorem split_ofComponent (section_ name : String) (noSlash : '/' ∉ section_.toList) :
    split '/' (trimStart (· = '#') (ofComponent section_ name)) =
      ["", "components", section_, escape name] := by
  have characters : (trimStart (· = '#') (ofComponent section_ name)).toList =
      [] ++ '/' :: ("components".toList ++ '/' :: (section_.toList ++ '/' ::
        (escape name).toList)) := by
    simp [trimStart, ofComponent]
  unfold split
  rw [characters, List.splitOn_append_cons_self_of_not_mem (by simp),
    List.splitOn_append_cons_self_of_not_mem (by decide),
    List.splitOn_append_cons_self_of_not_mem noSlash,
    List.splitOn_eq_singleton (slash_not_mem_escape name)]
  simp

/-- A section of the components of a document. -/
def section? (document : Json) (name : String) : Option Json :=
  (document.get? "components").bind (·.get? name)

/-- The reference to a component leads through the section. -/
theorem target?_eq_bind_section? {section_ : String} (listed : section_ ∈ sections)
    (document : Json) (name : String) :
    target? document (ofComponent section_ name) =
      (section? document section_).bind (step? · name) := by
  have simple : ∀ other ∈ sections,
      '/' ∉ other.toList ∧ '~' ∉ other.toList ∧ index? other = none := by decide
  obtain ⟨noSlash, noTilde, noIndex⟩ := simple section_ listed
  have start : trimStart (· = '#') (ofComponent section_ name) =
      String.ofList ('/' :: ("components/" ++ section_ ++ "/" ++ escape name).toList) := by
    simp [trimStart, ofComponent]
  have pointer : (trimStart (· = '#') (ofComponent section_ name)).isEmpty = false ∧
      startsWith "/" (trimStart (· = '#') (ofComponent section_ name)) = true := by
    rw [start]
    simp [startsWith]
  unfold target? find?
  rw [if_neg (by simp [pointer.1]), if_pos pointer.2, split_ofComponent section_ name noSlash]
  simp only [List.drop_succ_cons, List.drop_zero, List.foldl_cons, List.foldl_nil,
    Option.bind_some, unescape_of_not_mem "components" (by decide),
    unescape_of_not_mem section_ noTilde, unescape_escape,
    step?_of_index? (show index? "components" = none by decide), step?_of_index? noIndex, section?]

/-- The reference to a component leads to the entry of its section. -/
theorem target?_ofComponent {document : Json} {entries : List (String × Json)}
    {section_ : String} (listed : section_ ∈ sections)
    (held : section? document section_ = some (.object entries)) (name : String) :
    target? document (ofComponent section_ name) = OrderedMap.get? entries name := by
  rw [target?_eq_bind_section? listed, held]
  rfl

/-! ### The rules of pointers -/

/-- How a step of a pointer spells a key: a tilde and a slash take two characters each, and any
other character stands for itself. -/
inductive Spells : List Char → List Char → Prop where
  | nil : Spells [] []
  | tilde {step key : List Char} (rest : Spells step key) : Spells ('~' :: '0' :: step) ('~' :: key)
  | slash {step key : List Char} (rest : Spells step key) : Spells ('~' :: '1' :: step) ('/' :: key)
  | plain {character : Char} {step key : List Char} (notTilde : character ≠ '~')
      (notSlash : character ≠ '/') (rest : Spells step key) :
      Spells (character :: step) (character :: key)

/-- What a pointer leads to, by the rules of pointers: each step goes to the member of an object
with the key that it spells, or to the item of an array at the position that it gives in digits. -/
inductive Leads : Json → List Char → Json → Prop where
  | whole (document : Json) : Leads document [] document
  | member {members : List (String × Json)} {key : String} {step rest : List Char}
      {value target : Json} (spells : Spells step key.toList)
      (found : OrderedMap.get? members key = some value) (leads : Leads value rest target) :
      Leads (.object members) ('/' :: (step ++ rest)) target
  | item {items : List Json} {position : Nat} {rest : List Char} {value target : Json}
      (found : items[position]? = some value) (leads : Leads value rest target) :
      Leads (.array items) ('/' :: ((toString position).toList ++ rest)) target

/-- Each key is spelled in exactly one way. -/
theorem spells_iff {step key : List Char} :
    Spells step key ↔ step = key.flatMap escapeKeyCharacter := by
  constructor
  · intro spells
    induction spells with
    | nil => rfl
    | tilde _ inductionHypothesis | slash _ inductionHypothesis =>
      rw [inductionHypothesis]
      rfl
    | plain notTilde notSlash _ inductionHypothesis =>
      rw [inductionHypothesis, List.flatMap_cons, escapeKeyCharacter, if_neg notSlash, escapeTilde,
        if_neg notTilde]
      rfl
  · rintro rfl
    induction key with
    | nil => exact .nil
    | cons character rest inductionHypothesis =>
      by_cases slash : character = '/'
      · subst slash
        exact .slash inductionHypothesis
      by_cases tilde : character = '~'
      · subst tilde
        exact .tilde inductionHypothesis
      have own : escapeKeyCharacter character = [character] := by
        rw [escapeKeyCharacter, if_neg slash, escapeTilde, if_neg tilde]
      rw [List.flatMap_cons, own]
      exact .plain tilde slash inductionHypothesis

theorem spells_escape {step : List Char} {key : String} :
    Spells step key.toList ↔ step = (escape key).toList := by
  rw [spells_iff, toList_escape]

/-- Only the number zero begins with the digit zero. -/
theorem head?_toDigits {number : Nat} (zero : (Nat.toDigits 10 number).head? = some '0') :
    number = 0 := by
  induction number using Nat.strongRecOn with
  | ind number inductionHypothesis =>
    rw [Nat.toDigits_eq_if (by decide)] at zero
    split at zero
    · next single =>
      have each : ∀ digit < 10, Nat.digitChar digit = '0' → digit = 0 := by decide
      exact each number single (Option.some.inj zero)
    · next several =>
      have filled : Nat.toDigits 10 (number / 10) ≠ [] := Nat.toDigits_ne_nil
      rw [List.head?_append_of_ne_nil _ filled] at zero
      have less : number / 10 < number := Nat.div_lt_self (by omega) (by decide)
      have none := inductionHypothesis (number / 10) less zero
      omega

/-- A position is named by its digits. -/
theorem index?_toString (position : Nat) : index? (toString position) = some position := by
  have digits : (toString position).toList = Nat.toDigits 10 position := Nat.toList_repr
  have filled : Nat.toDigits 10 position ≠ [] := Nat.toDigits_ne_nil
  have all : (Nat.toDigits 10 position).all Char.isDigit = true := List.all_eq_true.mpr
    fun _ member => Nat.isDigit_of_mem_toDigits (by decide) (by decide) member
  have value : (Nat.toDigits 10 position).foldl
      (fun value digit => value * 10 + (digit.toNat - '0'.toNat)) 0 = position := by
    have read : Nat.ofDigitChars 10 (Nat.toDigits 10 position) 0 = position :=
      Nat.ofDigitChars_ten_toDigits
    simp only [Nat.ofDigitChars, Nat.mul_comm 10] at read
    exact read
  have single : ¬ ((Nat.toDigits 10 position).head? = some '0' ∧
      (Nat.toDigits 10 position).length ≠ 1) := by
    rintro ⟨zero, several⟩
    rw [head?_toDigits zero] at several
    exact several rfl
  unfold index?
  simp only [digits]
  rw [if_neg (by simp [filled, all]), if_neg single, value]

/-- A pointer is empty or begins with a slash. -/
theorem Leads.pointer_eq {document target : Json} {pointer : List Char}
    (leads : Leads document pointer target) : pointer = [] ∨ ∃ more, pointer = '/' :: more := by
  cases leads with
  | whole => exact Or.inl rfl
  | member | item => exact Or.inr ⟨_, rfl⟩

/-- The first step of a pointer ends where the pointer goes on. -/
theorem splitOn_step {step rest : List Char} (noSlash : '/' ∉ step)
    (goesOn : rest = [] ∨ ∃ more, rest = '/' :: more) :
    (step ++ rest).splitOn '/' = step :: (rest.splitOn '/').drop 1 := by
  rcases goesOn with rfl | ⟨more, rfl⟩
  · rw [List.append_nil, List.splitOn_eq_singleton noSlash]
    rfl
  · rw [List.splitOn_append_cons_self_of_not_mem noSlash, ← List.nil_append ('/' :: more),
      List.splitOn_append_cons_self_of_not_mem List.not_mem_nil]
    rfl

/-- Where the steps of a pointer lead to, one after another. -/
def walk? (document : Json) (pointer : List Char) : Option Json :=
  (((pointer.splitOn '/').drop 1).map String.ofList).foldl
    (fun found step => found.bind (step? · (unescape step))) (some document)

theorem walk?_cons {source value : Json} {step rest : List Char} (noSlash : '/' ∉ step)
    (goesOn : rest = [] ∨ ∃ more, rest = '/' :: more)
    (first : step? source (unescape (String.ofList step)) = some value) :
    walk? source ('/' :: (step ++ rest)) = walk? value rest := by
  have begins : ('/' :: (step ++ rest)).splitOn '/' = [] :: (step ++ rest).splitOn '/' :=
    List.splitOn_append_cons_self_of_not_mem List.not_mem_nil (step ++ rest)
  unfold walk?
  rw [begins, List.drop_one, List.tail_cons, splitOn_step noSlash goesOn, List.map_cons,
    List.foldl_cons, Option.bind_some, first]

/-- The steps of a pointer end where it leads to. -/
theorem walk?_of_leads {document target : Json} {pointer : List Char}
    (leads : Leads document pointer target) : walk? document pointer = some target := by
  induction leads with
  | whole => rfl
  | @member members key step rest value target spells found leads inductionHypothesis =>
    have isStep := spells_escape.mp spells
    have first : step? (.object members) (unescape (String.ofList step)) = some value := by
      rw [isStep, String.ofList_toList, unescape_escape]
      exact found
    exact (walk?_cons (isStep ▸ slash_not_mem_escape key) leads.pointer_eq first).trans
      inductionHypothesis
  | @item items position rest value target found leads inductionHypothesis =>
    have digits {character : Char} (other : character.isDigit = false) :
        character ∉ (toString position).toList := fun member => by
      rw [isDigit_of_mem_toString member] at other
      cases other
    have first : step? (.array items) (unescape (String.ofList (toString position).toList)) =
        some value := by
      rw [String.ofList_toList, unescape_of_not_mem _ (digits (by decide)), step?, index?_toString]
      exact found
    exact (walk?_cons (digits (by decide)) leads.pointer_eq first).trans inductionHypothesis

/-- The lookup finds what a pointer leads to. -/
theorem find?_of_leads {document target : Json} {pointer : List Char}
    (leads : Leads document pointer target) :
    find? document (String.ofList pointer) = some target := by
  have ended := walk?_of_leads leads
  rcases leads.pointer_eq with rfl | ⟨more, rfl⟩
  · exact ended
  · unfold find? split
    rw [if_neg (by simp), if_pos (by simp [startsWith]), String.toList_ofList, ← List.map_drop]
    exact ended

/-- What a reference to a part of its own document points to. -/
def PointsTo (document : Json) (reference : String) (target : Json) : Prop :=
  ∃ pointer, reference.toList = '#' :: pointer ∧ Leads document pointer target

theorem target?_of_pointsTo {document target : Json} {reference : String}
    (points : PointsTo document reference target) : target? document reference = some target := by
  obtain ⟨pointer, fragment, leads⟩ := points
  have whole : trimStart (· = '#') reference = String.ofList pointer := by
    unfold trimStart
    rw [fragment]
    rcases leads.pointer_eq with rfl | ⟨more, rfl⟩ <;> rfl
  rw [target?, whole, find?_of_leads leads]

/-! ### Entries of components -/

/-- A reference to a component tells its section and its name. -/
theorem ofComponent_inj {first second name other : String} (listed : first ∈ sections)
    (alsoListed : second ∈ sections) :
    ofComponent first name = ofComponent second other ↔ first = second ∧ name = other := by
  have noSlash : ∀ section_ ∈ sections, '/' ∉ section_.toList := by decide
  constructor
  · intro same
    have steps := congrArg (fun reference => split '/' (trimStart (· = '#') reference)) same
    simp only [split_ofComponent _ _ (noSlash _ listed),
      split_ofComponent _ _ (noSlash _ alsoListed), List.cons.injEq] at steps
    exact ⟨steps.2.2.1, escape_injective steps.2.2.2.1⟩
  · rintro ⟨rfl, rfl⟩
    rfl

theorem exists_members_of_get? {document value : Json} {key : String}
    (found : document.get? key = some value) :
    ∃ members, document = .object members ∧ OrderedMap.get? members key = some value := by
  cases document with
  | object members => exact ⟨members, rfl, found⟩
  | _ => cases found

/-- The reference to a component points to the entry of its section. -/
theorem pointsTo_ofComponent {document value : Json} {entries : List (String × Json)}
    {section_ name : String} (listed : section_ ∈ sections)
    (held : section? document section_ = some (.object entries))
    (found : OrderedMap.get? entries name = some value) :
    PointsTo document (ofComponent section_ name) value := by
  have plain : ∀ key ∈ "components" :: sections, key.toList = (escape key).toList := by decide
  have spelled {key : String} (member : key ∈ "components" :: sections) :
      Spells key.toList key.toList := spells_escape.mpr (plain key member)
  obtain ⟨components, isComponents, isSection⟩ := Option.bind_eq_some_iff.mp held
  obtain ⟨members, rfl, isComponents⟩ := exists_members_of_get? isComponents
  obtain ⟨contents, rfl, isSection⟩ := exists_members_of_get? isSection
  have leads := Leads.member (spelled List.mem_cons_self) isComponents
    (.member (spelled (List.mem_cons_of_mem _ listed)) isSection
      (.member (spells_escape.mpr rfl) found (.whole value)))
  exact ⟨_, by simp [ofComponent], leads⟩

/-- A reference that is built for a component section finds the entry of the given name and nothing
else, whatever characters the name has, and points to it by the rules of pointers. It is built for
no other section and no other name. -/
theorem ofComponent_finds_entry :
    (∀ document, ∀ section_ ∈ sections,
      ∀ entries, section? document section_ = some (.object entries) →
      ∀ name, target? document (ofComponent section_ name) = OrderedMap.get? entries name ∧
        ∀ value, PointsTo document (ofComponent section_ name) value ↔
          OrderedMap.get? entries name = some value) ∧
      ∀ first ∈ sections, ∀ second ∈ sections, ∀ name other,
        ofComponent first name = ofComponent second other ↔ first = second ∧ name = other := by
  refine ⟨fun document section_ listed entries held name => ?_,
    fun first listed second alsoListed name other => ofComponent_inj listed alsoListed⟩
  have finds := target?_ofComponent listed held name
  -- The rules lead to nothing that the lookup does not find.
  refine ⟨finds, fun value => ⟨fun points => ?_, pointsTo_ofComponent listed held⟩⟩
  rw [← finds, target?_of_pointsTo points]

/-- A document with schemas whose names are escaped forms of each other. -/
def escapedDocument : Json :=
  .object
    [("components", .object
      [("schemas", .object
        [("/", .string "slash"), ("~1", .string "escaped slash"), ("~01", .string "escaped twice"),
          ("#", .string "hash"), ("", .string "empty")])])]

theorem ofComponent_finds_entry_escaped :
    target? escapedDocument "#/components/schemas/~1" = some (.string "slash") ∧
      target? escapedDocument "#/components/schemas/~01" = some (.string "escaped slash") ∧
      target? escapedDocument "#/components/schemas/~001" = some (.string "escaped twice") ∧
      PointsTo escapedDocument "#/components/schemas/#" (.string "hash") ∧
      PointsTo escapedDocument "#/components/schemas/" (.string "empty") ∧
      ofComponent "schemas" "~1" ≠ ofComponent "schemas" "/" := by
  obtain ⟨finds, distinct⟩ := ofComponent_finds_entry
  have listed : "schemas" ∈ sections := by decide
  have each := finds escapedDocument _ listed _ rfl
  refine ⟨(each "/").1, (each "~1").1, (each "~01").1, ((each "#").2 _).mpr rfl,
    ((each "").2 _).mpr rfl, fun same => ?_⟩
  exact absurd ((distinct _ listed _ listed _ _).mp same).2 (by decide)

end ServiceForge.OpenApi.Reference
