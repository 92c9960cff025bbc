/-
This file reads the expressions that the generated sources give endpoints with, a literal
or a format string with named arguments, and says what they evaluate to. An escaped literal
is read as the text that it was written for. A format string has no value, because it does
not compile, if two arguments have one name, if an argument is not shown, or if a hole has
no argument.
-/

import Mathlib.Data.List.Basic
import ServiceForge.Proofs.Generation.Records
import ServiceForge.Proofs.Source.Template
import ServiceForge.Source.Literal

namespace ServiceForge.Source

open ServiceForge.Naming (IsPlain)
open ServiceForge.Text

/-! ### Code points -/

/-- The value of a digit in hexadecimal. -/
def hexDigit? (character : Char) : Option Nat :=
  let point := character.toNat
  if 48 ≤ point ∧ point ≤ 57 then some (point - 48)
  else if 97 ≤ point ∧ point ≤ 102 then some (point - 87)
  else if 65 ≤ point ∧ point ≤ 70 then some (point - 55)
  else none

/-- The number with the given digits in hexadecimal. -/
def hexNumber? (digits : List Char) : Option Nat :=
  digits.foldlM (fun value digit => (hexDigit? digit).map (value * 16 + ·)) 0

/-- The character whose code point has the given digits, at most six. -/
def codePoint? (digits : List Char) : Option Char :=
  if digits.isEmpty || 6 < digits.length then none
  else (hexNumber? digits).bind fun point =>
    if point.isValidChar then some (Char.ofNat point) else none

theorem hexDigit?_lowerHex : ∀ digit < 16, hexDigit? (Nat.digitChar digit).toLower = some digit := by
  decide

theorem lowerHex_step {number : Nat} (more : 16 ≤ number) :
    lowerHex number = lowerHex (number / 16) ++ [(Nat.digitChar (number % 16)).toLower] := by
  unfold lowerHex
  rw [Nat.toDigits_eq_if (by decide), if_neg (Nat.not_lt.mpr more), List.map_append]
  rfl

theorem hexNumber?_lowerHex (number : Nat) : hexNumber? (lowerHex number) = some number := by
  induction number using Nat.strongRecOn with
  | ind number inductionHypothesis =>
    rcases Nat.lt_or_ge number 16 with single | more
    · have digit : lowerHex number = [(Nat.digitChar number).toLower] := by
        rw [lowerHex, Nat.toDigits_of_lt_base single]
        rfl
      rw [digit]
      simp [hexNumber?, hexDigit?_lowerHex number single]
    · have before := inductionHypothesis (number / 16) (Nat.div_lt_self (by omega) (by decide))
      have last := hexDigit?_lowerHex (number % 16) (Nat.mod_lt number (by decide))
      unfold hexNumber? at before ⊢
      rw [lowerHex_step more, List.foldlM_append, before]
      simp only [Option.bind_eq_bind, Option.bind_some, List.foldlM_cons, last, Option.map_some,
        List.foldlM_nil, Option.pure_def]
      exact congrArg some (by omega)

/-- Digits hold no brace. -/
theorem brace_notMem_lowerHex (number : Nat) : '\x7d' ∉ lowerHex number := by
  induction number using Nat.strongRecOn with
  | ind number inductionHypothesis =>
    have digits : ∀ digit < 16, '\x7d' ≠ (Nat.digitChar digit).toLower := by decide
    rcases Nat.lt_or_ge number 16 with single | more
    · rw [lowerHex, Nat.toDigits_of_lt_base single, List.map_singleton, List.mem_singleton]
      exact digits number single
    · rw [lowerHex_step more, List.mem_append, List.mem_singleton, not_or]
      exact ⟨inductionHypothesis _ (Nat.div_lt_self (by omega) (by decide)),
        digits _ (Nat.mod_lt number (by decide))⟩

theorem codePoint?_lowerHex (character : Char) :
    codePoint? (lowerHex character.toNat) = some character := by
  have filled : 0 < (lowerHex character.toNat).length := by
    rw [lowerHex, List.length_map]
    exact Nat.length_toDigits_pos
  have short : (lowerHex character.toNat).length ≤ 6 := by
    rw [lowerHex, List.length_map, Nat.length_toDigits_le_iff (by decide) (by decide)]
    have bound := character.valid
    simp only [UInt32.isValidChar, Nat.isValidChar] at bound
    show character.val.toNat < 16 ^ 6
    omega
  have some : ((lowerHex character.toNat).isEmpty || 6 < (lowerHex character.toNat).length) =
      false := by
    simp [List.isEmpty_eq_false_iff, List.ne_nil_of_length_pos filled, Nat.not_lt.mpr short]
  have valid : character.toNat.isValidChar := character.valid
  rw [codePoint?, some, hexNumber?_lowerHex]
  simp [valid]

/-! ### Literals -/

/-- The character that a letter after a backslash stands for. -/
def escaped? (letter : Char) : Option Char :=
  match letter with
  | '0' => some '\x00'
  | 't' => some '\t'
  | 'n' => some '\n'
  | 'r' => some '\r'
  | '"' => some '"'
  | '\\' => some '\\'
  | '\'' => some '\''
  | _ => none

/-- Puts a character before the text of a literal. -/
def withCharacter (character : Char) (read : Option (List Char × List Char)) :
    Option (List Char × List Char) :=
  read.map fun (text, rest) => (character :: text, rest)

/-- The text of a literal up to the quote that ends it, and what follows. `digits` holds those of a
code point that is being read. -/
def readInside : Option (List Char) → List Char → Option (List Char × List Char)
  | _, [] => none
  | some digits, character :: rest =>
    if character = '\x7d' then
      (codePoint? digits).bind fun point => withCharacter point (readInside none rest)
    else readInside (some (digits ++ [character])) rest
  | none, '"' :: rest => some ([], rest)
  | none, '\\' :: 'u' :: '\x7b' :: rest => readInside (some []) rest
  | none, '\\' :: letter :: rest =>
    (escaped? letter).bind fun character => withCharacter character (readInside none rest)
  | none, character :: rest =>
    if character = '\r' then none else withCharacter character (readInside none rest)

/-- The text of the literal that begins a source, and what follows it. -/
def readLiteral? : List Char → Option (List Char × List Char)
  | '"' :: rest => readInside none rest
  | _ => none

theorem readInside_digits {digits more rest : List Char} (plain : '\x7d' ∉ more) :
    readInside (some digits) (more ++ '\x7d' :: rest) =
      (codePoint? (digits ++ more)).bind fun point => withCharacter point (readInside none rest) := by
  induction more generalizing digits with
  | nil => simp [readInside]
  | cons character more inductionHypothesis =>
    obtain ⟨apart, plain⟩ := not_or.mp (mt List.mem_cons.mpr plain)
    rw [List.cons_append, readInside, if_neg (Ne.symm apart), inductionHypothesis plain,
      List.append_assoc]
    rfl

/-- An escaped character is read as the character. -/
theorem readInside_escapeCharacter (character : Char) (rest : List Char) :
    readInside none (escapeCharacter character ++ rest) =
      withCharacter character (readInside none rest) := by
  unfold escapeCharacter
  split
  · next same => subst same; rfl
  split
  · next same => subst same; rfl
  split
  · next same => subst same; rfl
  split
  · next same => subst same; rfl
  split
  · next same => subst same; rfl
  split
  · next same => subst same; rfl
  next carriage _ backslash =>
  split
  · simp [readInside, carriage, backslash]
  · have code : ['\\', 'u', '\x7b'] ++ lowerHex character.toNat ++ ['\x7d'] ++ rest =
        '\\' :: 'u' :: '\x7b' :: (lowerHex character.toNat ++ '\x7d' :: rest) := by
      simp
    rw [code, readInside, readInside_digits (brace_notMem_lowerHex _), List.nil_append,
      codePoint?_lowerHex, Option.bind_some]

/-- An escaped literal is read as the text that it was written for. -/
theorem readLiteral?_escapedLiteral (text : String) (rest : List Char) :
    readLiteral? ((escapedLiteral text).toList ++ rest) = some (text.toList, rest) := by
  have inside : ∀ characters : List Char,
      readInside none (characters.flatMap escapeCharacter ++ '"' :: rest) =
        some (characters, rest) := by
    intro characters
    induction characters with
    | nil => rfl
    | cons character characters inductionHypothesis =>
      rw [List.flatMap_cons, List.append_assoc, readInside_escapeCharacter, inductionHypothesis]
      rfl
  unfold escapedLiteral
  rw [String.toList_ofList]
  simpa [readLiteral?] using inside text.toList

/-! ### Format strings -/

/-- Where a reader of a format string is: outside holes, after a brace that closes none, or in a
hole, whose name it has read so far. -/
inductive Reading where
  | outside
  | closing
  | inside (name : List Char)

/-- The parts of a format string. Doubled braces stand for single ones. -/
def readFormat : Reading → List Char → Option (List Part)
  | .outside, [] => some []
  | .closing, [] => none
  | .inside _, [] => none
  | .outside, character :: rest =>
    if character = '\x7b' then readFormat (.inside []) rest
    else if character = '\x7d' then readFormat .closing rest
    else (readFormat .outside rest).map (.literal character :: ·)
  | .closing, character :: rest =>
    if character = '\x7d' then (readFormat .outside rest).map (.literal character :: ·) else none
  | .inside name, character :: rest =>
    if character = '\x7d' then
      (readFormat .outside rest).map (.hole (String.ofList name) :: ·)
    else if character = '\x7b' then
      if name.isEmpty then (readFormat .outside rest).map (.literal character :: ·) else none
    else readFormat (.inside (name ++ [character])) rest

theorem readFormat_inside {name more rest : List Char}
    (braceless : ∀ character ∈ more, isBrace character = false) :
    readFormat (.inside name) (more ++ '\x7d' :: rest) =
      (readFormat .outside rest).map (.hole (String.ofList (name ++ more)) :: ·) := by
  induction more generalizing name with
  | nil => simp [readFormat]
  | cons character more inductionHypothesis =>
    obtain ⟨first, others⟩ := List.forall_mem_cons.mp braceless
    obtain ⟨opens, closes⟩ : character ≠ '\x7b' ∧ character ≠ '\x7d' := by
      simpa [isBrace] using first
    rw [List.cons_append, readFormat, if_neg closes, if_neg opens, inductionHypothesis others,
      List.append_assoc]
    rfl

/-- A template is read as a format string with the same parts. -/
theorem readFormat_templateText {parts : List Part}
    (braceless : ∀ part ∈ parts, part.IsBraceless) :
    readFormat .outside (templateText parts) = some parts := by
  induction parts with
  | nil => rfl
  | cons part rest inductionHypothesis =>
    obtain ⟨first, others⟩ := List.forall_mem_cons.mp braceless
    have later : readFormat .outside (rest.flatMap Part.characters) = some rest :=
      inductionHypothesis others
    unfold templateText
    rw [List.flatMap_cons]
    cases part with
    | literal character =>
      obtain ⟨opens, closes⟩ : character ≠ '\x7b' ∧ character ≠ '\x7d' := by
        simpa [Part.IsBraceless, isBrace] using first
      simp only [Part.characters, List.singleton_append]
      rw [readFormat, if_neg opens, if_neg closes, later]
      rfl
    | hole name =>
      simp only [Part.characters, toList_hole, List.cons_append, List.append_assoc,
        List.nil_append]
      rw [readFormat, if_pos rfl, readFormat_inside first, later]
      simp

/-! ### Expressions -/

/-- A named argument of a format string, which shows a member of the request. -/
structure Argument where
  name : String
  member : String
deriving DecidableEq, Repr

/-- An expression that gives a text. -/
inductive Expression where
  | literal (text : List Char)
  | format (parts : List Part) (arguments : List Argument)
deriving DecidableEq, Repr

namespace Expression

/-- What an expression gives if the members of the request are shown so. -/
def value? (shown : String → String) : Expression → Option (List Char)
  | .literal text => some text
  | .format parts arguments =>
    let names := arguments.map Argument.name
    if names.Nodup ∧ ∀ name ∈ names, Part.hole name ∈ parts then
      fill? (fun name => (arguments.find? (·.name = name)).map fun argument =>
        shown argument.member) parts
    else none

end Expression

/-! ### Sources of expressions -/

/-- Whether a character occurs in names. Letters above ASCII do. -/
def isNameCharacter (character : Char) : Bool := !isSymbol character || character == '_'

/-- An argument is given by a member, as it is or as a reference. -/
def readArgument? (source : List Char) : Option Argument :=
  let name := source.takeWhile isNameCharacter
  ((source.dropWhile isNameCharacter).dropPrefix? " = self.".toList).bind fun rest =>
    let member := rest.takeWhile isNameCharacter
    let after := rest.dropWhile isNameCharacter
    if after = [] ∨ after = ".as_ref()".toList then
      some ⟨String.ofList name, String.ofList member⟩
    else none

/-- The arguments of a format string stand after it, each after a comma. -/
def readArguments? (source : List Char) : Option (List Argument) :=
  match source.splitOn ',' with
  | [] :: pieces => pieces.mapM fun piece => (piece.dropPrefix? [' ']).bind readArgument?
  | _ => none

/-- What stands after a literal. -/
def afterLiteral : List Char := ".to_string().into()".toList

/-- What stands after the arguments of a format string. -/
def afterArguments : List Char := ").into()".toList

/-- Reads the expression of a path: a text, or a format with its arguments. -/
def readExpression? (source : List Char) : Option Expression :=
  match source.dropPrefix? "format!(".toList with
  | some rest =>
    (readLiteral? rest).bind fun (template, rest) =>
      (readFormat .outside template).bind fun parts =>
        ((rest.dropSuffix? afterArguments).bind readArguments?).map (.format parts)
  | none =>
    (readLiteral? source).bind fun (text, rest) =>
      if rest = afterLiteral then some (.literal text) else none

/-- What the source of an expression gives if the members of the request are shown so. -/
def evaluate? (shown : String → String) (source : String) : Option (List Char) :=
  (readExpression? source.toList).bind (Expression.value? shown)

/-! ### Expressions that are read -/

/-- A name is read up to the first character that is not in names. -/
theorem span_isNameCharacter {name : String} {rest : List Char} (plain : IsPlain name)
    (stops : rest.head?.any isNameCharacter = false) :
    (name.toList ++ rest).takeWhile isNameCharacter = name.toList ∧
      (name.toList ++ rest).dropWhile isNameCharacter = rest := by
  have inside : ∀ character ∈ name.toList, isNameCharacter character = true := by
    intro character member
    unfold isNameCharacter
    cases symbol : isSymbol character with
    | false => rfl
    | true =>
      rw [plain character member symbol]
      rfl
  rw [List.takeWhile_append_of_pos inside, List.dropWhile_append_of_pos inside]
  cases rest with
  | nil => simp
  | cons stop rest =>
    have stops : isNameCharacter stop = false := by simpa using stops
    rw [List.takeWhile_cons_of_neg (by simp [stops]), List.dropWhile_cons_of_neg (by simp [stops])]
    simp

theorem dropPrefix?_append (start rest : List Char) :
    (start ++ rest).dropPrefix? start = some rest :=
  List.dropPrefix?_append_of_beq rest (beq_self_eq_true start)

theorem readArgument?_eq {name member : String} {after : List Char} (plainName : IsPlain name)
    (plainMember : IsPlain member) (ends : after = [] ∨ after = ".as_ref()".toList) :
    readArgument? (name.toList ++ (" = self.".toList ++ (member.toList ++ after))) =
      some ⟨name, member⟩ := by
  have stops : after.head?.any isNameCharacter = false := by
    rcases ends with rfl | rfl <;> decide
  have between : (" = self.".toList ++ (member.toList ++ after)).head?.any isNameCharacter =
      false := by rfl
  obtain ⟨taken, left⟩ := span_isNameCharacter plainName between
  obtain ⟨second, last⟩ := span_isNameCharacter plainMember stops
  unfold readArgument?
  simp only [taken, left]
  rw [dropPrefix?_append, Option.bind_some]
  simp only [second, last]
  rw [if_pos ends, String.ofList_toList, String.ofList_toList]

/-- Pieces joined by a separator are the first piece and the others, each after a separator. -/
theorem intercalate_cons {α : Type} (separator first : List α) (rest : List (List α)) :
    separator.intercalate (first :: rest) = first ++ rest.flatMap (separator ++ ·) := by
  induction rest generalizing first with
  | nil => simp
  | cons second rest inductionHypothesis =>
    rw [List.intercalate_cons_cons, inductionHypothesis, List.flatMap_cons, List.append_assoc,
      List.append_assoc]

theorem append_intercalate {α : Type} (separator : List α) {pieces : List (List α)}
    (some : pieces ≠ []) :
    separator ++ separator.intercalate pieces = pieces.flatMap (separator ++ ·) := by
  obtain ⟨first, rest, rfl⟩ := List.exists_cons_of_ne_nil some
  rw [intercalate_cons, List.flatMap_cons, List.append_assoc]

section Arguments

variable {α : Type} {items : List α} {source : α → List Char} {argument : α → Argument}
  (read : ∀ item ∈ items, readArgument? (source item) = some (argument item))
  (apart : ∀ item ∈ items, ',' ∉ source item)

include read apart

/-- Arguments without commas are read one by one. -/
theorem readArguments?_eq :
    readArguments? (items.flatMap fun item => ", ".toList ++ source item) =
      some (items.map argument) := by
  have pieces : (items.flatMap fun item => ", ".toList ++ source item).splitOn ',' =
      [] :: items.map fun item => ' ' :: source item := by
    have whole : (items.flatMap fun item => ", ".toList ++ source item) =
        [','].intercalate ([] :: items.map fun item => ' ' :: source item) := by
      rw [intercalate_cons, List.flatMap_map]
      rfl
    rw [whole]
    refine splitOnP_intercalate (by decide) (List.cons_ne_nil _ _) ?_
    refine List.forall_mem_cons.mpr ⟨nofun, List.forall_mem_map.mpr fun item member => ?_⟩
    refine List.forall_mem_cons.mpr ⟨by decide, fun character inside => ?_⟩
    exact beq_false_of_ne fun same => apart item member (same ▸ inside)
  have each : ∀ item, ((' ' :: source item).dropPrefix? [' ']).bind readArgument? =
      readArgument? (source item) := fun item => by
    rw [← List.singleton_append, dropPrefix?_append, Option.bind_some]
  unfold readArguments?
  rw [pieces]
  simp only [List.mapM_map, Function.comp_def, each]
  clear pieces each apart
  induction items with
  | nil => rfl
  | cons item rest inductionHypothesis =>
    obtain ⟨first, others⟩ := List.forall_mem_cons.mp read
    rw [List.mapM_cons, first, inductionHypothesis others]
    rfl

/-- A format string is read as the parts of its template and the arguments after it. -/
theorem readExpression?_format {template : String} {parts : List Part}
    (isTemplate : IsTemplate template parts) :
    readExpression? ("format!(".toList ++ ((escapedLiteral template).toList ++
      ((items.flatMap fun item => ", ".toList ++ source item) ++ afterArguments))) =
        some (.format parts (items.map argument)) := by
  have ended : ((items.flatMap fun item => ", ".toList ++ source item) ++
      afterArguments).dropSuffix? afterArguments =
        some (items.flatMap fun item => ", ".toList ++ source item) :=
    List.dropSuffix?_eq_some_iff.mpr ⟨_, rfl, beq_self_eq_true _⟩
  unfold readExpression?
  rw [dropPrefix?_append]
  simp only [readLiteral?_escapedLiteral, Option.bind_some, isTemplate.whole,
    readFormat_templateText isTemplate.braceless, ended, readArguments?_eq read apart,
    Option.map_some]

end Arguments

/-- A literal is read as its text. -/
theorem readExpression?_literal (text : String) :
    readExpression? ((escapedLiteral text).toList ++ afterLiteral) =
      some (.literal text.toList) := by
  have other : ((escapedLiteral text).toList ++ afterLiteral).dropPrefix? "format!(".toList =
      none := by
    unfold escapedLiteral
    rw [String.toList_ofList]
    rfl
  unfold readExpression?
  rw [other]
  simp only [readLiteral?_escapedLiteral, Option.bind_some, if_true]

end ServiceForge.Source
