/-
This file cuts templates into characters and holes. Replacing a hole in the text of a
template renames the holes with its name and leaves everything else, because no hole is
found inside another or across characters. Holes that are replaced one after the other are
renamed one after the other, which is not the same as all at once: a hole that has its new
name already can be taken for one that is still to be replaced.
-/

import ServiceForge.Generation.Bindings

namespace ServiceForge.Source

open ServiceForge.Generation (hole)
open ServiceForge.Text

/-! ### Parts -/

/-- Whether a character opens or closes a hole. -/
def isBrace (character : Char) : Bool := character == '\x7b' || character == '\x7d'

/-- A part of a template: a character that stands for itself, or a hole with a name. -/
inductive Part where
  | literal (character : Char)
  | hole (name : String)
deriving DecidableEq, Repr

namespace Part

/-- The characters that a part is written with. -/
def characters : Part → List Char
  | .literal character => [character]
  | .hole name => (Generation.hole name).toList

/-- Only the braces around a hole are braces. -/
def IsBraceless : Part → Prop
  | .literal character => isBrace character = false
  | .hole name => ∀ character ∈ name.toList, isBrace character = false

instance : DecidablePred IsBraceless
  | .literal character => inferInstanceAs (Decidable (isBrace character = false))
  | .hole name => List.decidableBAll (fun character => isBrace character = false) name.toList

/-- Renames the hole that a part is. -/
def rename (give : String → String) : Part → Part
  | .literal character => .literal character
  | .hole name => .hole (give name)

/-- The text of a part, a hole filled with a value. -/
def fill? (value : String → Option String) : Part → Option (List Char)
  | .literal character => some [character]
  | .hole name => (value name).map String.toList

theorem rename_rename (first second : String → String) (part : Part) :
    (part.rename first).rename second = part.rename (second ∘ first) := by
  cases part <;> rfl

theorem rename_id (part : Part) : part.rename id = part := by
  cases part <;> rfl

theorem fill?_rename (value : String → Option String) (give : String → String) (part : Part) :
    (part.rename give).fill? value = part.fill? (value ∘ give) := by
  cases part <;> rfl

end Part

/-- The text of a template. -/
def templateText (parts : List Part) : List Char := parts.flatMap Part.characters

/-- A text is the template with these parts. -/
structure IsTemplate (text : String) (parts : List Part) : Prop where
  whole : text.toList = templateText parts
  braceless : ∀ part ∈ parts, part.IsBraceless

/-- The text of a template with a value in each hole. -/
def fill? (value : String → Option String) : List Part → Option (List Char)
  | [] => some []
  | part :: rest => (part.fill? value).bind fun filled => (fill? value rest).map (filled ++ ·)

/-! ### Filling -/

section Filling

variable {value : String → Option String} {parts : List Part}

theorem fill?_rename (give : String → String) (parts : List Part) :
    fill? value (parts.map (Part.rename give)) = fill? (value ∘ give) parts := by
  induction parts with
  | nil => rfl
  | cons part rest inductionHypothesis =>
    rw [List.map_cons, fill?, fill?, Part.fill?_rename, inductionHypothesis]

theorem fill?_congr {other : String → Option String}
    (same : ∀ name, Part.hole name ∈ parts → value name = other name) :
    fill? value parts = fill? other parts := by
  induction parts with
  | nil => rfl
  | cons part rest inductionHypothesis =>
    have first : part.fill? value = part.fill? other := by
      cases part with
      | literal character => rfl
      | hole name => exact congrArg (Option.map String.toList) (same name List.mem_cons_self)
    rw [fill?, fill?, first,
      inductionHypothesis fun name inside => same name (List.mem_cons_of_mem _ inside)]

/-- What can be filled has a value for each hole. -/
theorem isSome_of_fill? {filled : List Char} (given : fill? value parts = some filled)
    {name : String} (inside : Part.hole name ∈ parts) : (value name).isSome = true := by
  induction parts generalizing filled with
  | nil => cases inside
  | cons part rest inductionHypothesis =>
    obtain ⟨first, here, given⟩ := Option.bind_eq_some_iff.mp given
    obtain ⟨others, later, -⟩ := Option.map_eq_some_iff.mp given
    rcases List.mem_cons.mp inside with rfl | inside
    · obtain ⟨text, found, -⟩ := Option.map_eq_some_iff.mp here
      rw [found]
      rfl
    · exact inductionHypothesis later inside

theorem exists_fill? (given : ∀ name, Part.hole name ∈ parts → (value name).isSome = true) :
    ∃ filled, fill? value parts = some filled := by
  induction parts with
  | nil => exact ⟨[], rfl⟩
  | cons part rest inductionHypothesis =>
    obtain ⟨others, later⟩ := inductionHypothesis fun name inside =>
      given name (List.mem_cons_of_mem _ inside)
    have first : ∃ filled, part.fill? value = some filled := by
      cases part with
      | literal character => exact ⟨_, rfl⟩
      | hole name =>
        obtain ⟨text, found⟩ := Option.isSome_iff_exists.mp (given name List.mem_cons_self)
        exact ⟨_, congrArg (Option.map String.toList) found⟩
    obtain ⟨filled, here⟩ := first
    exact ⟨filled ++ others, by rw [fill?, here, later]; rfl⟩

/-- A template without holes gives its text. -/
theorem fill?_of_no_holes (none : ∀ name, Part.hole name ∉ parts) :
    fill? value parts = some (templateText parts) := by
  induction parts with
  | nil => rfl
  | cons part rest inductionHypothesis =>
    have later := inductionHypothesis fun name inside => none name (List.mem_cons_of_mem _ inside)
    cases part with
    | literal character =>
      rw [fill?, later]
      rfl
    | hole name => exact absurd List.mem_cons_self (none name)

end Filling

/-! ### Replaced holes -/

section Replacing

variable {name old new : String} {parts : List Part}

theorem toList_hole (name : String) :
    (hole name).toList = '\x7b' :: (name.toList ++ ['\x7d']) := by
  unfold hole
  rw [String.toList_append, String.toList_append]
  rfl

theorem notMem_of_isBraceless {brace : Char} (isBrace : isBrace brace = true)
    (braceless : (Part.hole name).IsBraceless) : brace ∉ name.toList := by
  have each : ∀ character ∈ name.toList, Source.isBrace character = false := braceless
  exact fun member => Bool.false_ne_true ((each brace member).symm.trans isBrace)

theorem takeWhile_hole {more : List Char} (braceless : (Part.hole name).IsBraceless) :
    (name.toList ++ '\x7d' :: more).takeWhile (· ≠ '\x7d') = name.toList := by
  have inside : ∀ character ∈ name.toList, decide (character ≠ '\x7d') = true :=
    fun character member => decide_eq_true fun same =>
      notMem_of_isBraceless (by decide : isBrace '\x7d' = true) braceless (same ▸ member)
  rw [List.takeWhile_append_of_pos inside, List.takeWhile_cons_of_neg (by simp), List.append_nil]

/-- A hole begins a text that begins with a hole exactly if the holes have one name. -/
theorem hole_isPrefix_iff {more : List Char} (first : (Part.hole old).IsBraceless)
    (second : (Part.hole name).IsBraceless) :
    (hole old).toList <+: (hole name).toList ++ more ↔ name = old := by
  constructor
  · rintro ⟨rest, same⟩
    rw [toList_hole, toList_hole] at same
    have inside : old.toList ++ '\x7d' :: rest = name.toList ++ '\x7d' :: more := by
      simpa using same
    have names := congrArg (List.takeWhile (· ≠ '\x7d')) inside
    rw [takeWhile_hole first, takeWhile_hole second] at names
    exact (String.toList_inj.mp names).symm
  · rintro rfl
    exact List.prefix_append _ _

theorem replaceFrom_skip (old new passed rest : List Char) :
    replaceFrom old new passed.length (passed ++ rest) = replaceFrom old new 0 rest := by
  induction passed with
  | nil => rfl
  | cons character passed inductionHypothesis => exact inductionHypothesis

/-- What has no character that begins the text to be replaced is passed as it is. -/
theorem replaceFrom_pass {start : Char} {old new passed : List Char} (absent : start ∉ passed)
    (rest : List Char) :
    replaceFrom (start :: old) new 0 (passed ++ rest) =
      passed ++ replaceFrom (start :: old) new 0 rest := by
  induction passed with
  | nil => rfl
  | cons character passed inductionHypothesis =>
    obtain ⟨apart, absent⟩ := not_or.mp (mt List.mem_cons.mpr absent)
    have differs : (start :: old).isPrefixOf (character :: (passed ++ rest)) = false := by
      rw [List.isPrefixOf, beq_false_of_ne apart, Bool.false_and]
    rw [List.cons_append, replaceFrom, differs, if_neg Bool.false_ne_true,
      inductionHypothesis absent]
    rfl

/-- Replacing a hole renames the holes with its name. -/
theorem replaceFrom_hole (sought : (Part.hole old).IsBraceless)
    (braceless : ∀ part ∈ parts, part.IsBraceless) :
    replaceFrom (hole old).toList (hole new).toList 0 (templateText parts) =
      templateText (parts.map (Part.rename fun name => if name = old then new else name)) := by
  induction parts with
  | nil => rfl
  | cons part rest inductionHypothesis =>
    obtain ⟨first, others⟩ := List.forall_mem_cons.mp braceless
    have later := inductionHypothesis others
    unfold templateText at later ⊢
    rw [List.map_cons, List.flatMap_cons, List.flatMap_cons, ← later]
    cases part with
    | literal character =>
      have absent : '\x7b' ∉ [character] := fun member =>
        Bool.false_ne_true (Eq.trans (Eq.symm first) (List.mem_singleton.mp member ▸ rfl))
      rw [toList_hole old]
      exact replaceFrom_pass absent _
    | hole name =>
      have begins : (hole old).toList <+: (hole name).toList ++ rest.flatMap Part.characters ↔
          name = old := hole_isPrefix_iff sought first
      by_cases same : name = old
      · subst same
        have found : (hole name).toList.isPrefixOf
            ((hole name).toList ++ rest.flatMap Part.characters) = true :=
          List.isPrefixOf_iff_prefix.mpr (begins.mpr rfl)
        simp only [Part.characters, Part.rename, if_pos]
        rw [toList_hole name, List.cons_append] at found ⊢
        rw [replaceFrom, found, if_pos rfl]
        exact congrArg (_ ++ ·) (replaceFrom_skip _ _ _ _)
      · have missing : (hole old).toList.isPrefixOf
            ((hole name).toList ++ rest.flatMap Part.characters) = false :=
          Bool.eq_false_iff.mpr fun found => same (begins.mp (List.isPrefixOf_iff_prefix.mp found))
        have passed : '\x7b' ∉ name.toList ++ ['\x7d'] := by
          simp [notMem_of_isBraceless (by decide : isBrace '\x7b' = true) first]
        simp only [Part.characters, Part.rename, if_neg same]
        rw [toList_hole name, toList_hole old, List.cons_append] at missing ⊢
        rw [replaceFrom, missing, if_neg Bool.false_ne_true, replaceFrom_pass passed]
        rfl

theorem IsTemplate.replace {text : String} (isTemplate : IsTemplate text parts)
    (sought : (Part.hole old).IsBraceless) (given : (Part.hole new).IsBraceless) :
    IsTemplate (replace (hole old) (hole new) text)
      (parts.map (Part.rename fun name => if name = old then new else name)) where
  whole := by
    unfold Text.replace
    rw [String.toList_ofList, isTemplate.whole, replaceFrom_hole sought isTemplate.braceless]
  braceless := by
    intro _ member
    obtain ⟨part, inside, rfl⟩ := List.mem_map.mp member
    have braceless := isTemplate.braceless part inside
    cases part with
    | literal character => exact braceless
    | hole name =>
      unfold Part.rename
      simp only
      split
      · exact given
      · exact braceless

/-- What stands before the first hole or another character is dropped from a template. -/
theorem IsTemplate.trimStart {text : String} (isTemplate : IsTemplate text parts)
    {dropped : Char} (plain : isBrace dropped = false) :
    IsTemplate (trimStart (· = dropped) text) (parts.dropWhile (· = .literal dropped)) where
  whole := by
    unfold Text.trimStart
    rw [String.toList_ofList, isTemplate.whole]
    clear isTemplate
    induction parts with
    | nil => rfl
    | cons part rest inductionHypothesis =>
      cases part with
      | literal character =>
        by_cases same : character = dropped
        · subst same
          rw [List.dropWhile_cons_of_pos (by simp), ← inductionHypothesis]
          exact List.dropWhile_cons_of_pos (by simp)
        · rw [List.dropWhile_cons_of_neg (by simpa using same)]
          exact List.dropWhile_cons_of_neg (by simpa using same)
      | hole name =>
        have other : '\x7b' ≠ dropped := by
          rintro rfl
          exact absurd plain (by decide)
        rw [List.dropWhile_cons_of_neg (by simp)]
        unfold templateText
        rw [List.flatMap_cons, Part.characters, toList_hole]
        exact List.dropWhile_cons_of_neg (by simpa using other)
  braceless part member := isTemplate.braceless part (List.dropWhile_sublist _ |>.subset member)

theorem hole_mem_dropWhile {dropped : Char} :
    Part.hole name ∈ parts.dropWhile (· = .literal dropped) ↔ Part.hole name ∈ parts := by
  induction parts with
  | nil => rfl
  | cons part rest inductionHypothesis =>
    by_cases same : part = .literal dropped
    · subst same
      rw [List.dropWhile_cons_of_pos (by simp), inductionHypothesis, List.mem_cons,
        or_iff_right nofun]
    · rw [List.dropWhile_cons_of_neg (by simpa using same)]

end Replacing

/-! ### Places of holes -/

section Places

variable {part text : List Char} {position : Nat}

theorem isPrefix_drop_of_findFrom (found : findFrom part text = some position) :
    part <+: text.drop position := by
  induction text generalizing position with
  | nil =>
    unfold findFrom at found
    split at found
    · next empty => rw [List.isEmpty_iff.mp empty]; exact List.nil_prefix
    · cases found
  | cons character rest inductionHypothesis =>
    unfold findFrom at found
    split at found
    · next here =>
      cases found
      exact List.isPrefixOf_iff_prefix.mp here
    · obtain ⟨later, foundLater, rfl⟩ := Option.map_eq_some_iff.mp found
      exact inductionHypothesis foundLater

theorem exists_findFrom (inside : part <:+: text) : ∃ position, findFrom part text = some position := by
  induction text with
  | nil =>
    rw [List.infix_nil.mp inside]
    exact ⟨0, rfl⟩
  | cons character rest inductionHypothesis =>
    by_cases here : part.isPrefixOf (character :: rest) = true
    · exact ⟨0, by rw [findFrom, if_pos here]⟩
    · have later : part <:+: rest := by
        rcases List.infix_cons_iff.mp inside with start | later
        · exact absurd (List.isPrefixOf_iff_prefix.mpr start) here
        · exact later
      obtain ⟨position, found⟩ := inductionHypothesis later
      exact ⟨position + 1, by rw [findFrom, if_neg here, found]; rfl⟩

/-- The place of the first hole with a name in a template, after which parameters are sorted. -/
def holePlace (template name : String) : Nat :=
  ((find? (hole name) template).map (· + 1)).getD 0

variable {template : String} {parts : List Part} {first second : String}

theorem IsTemplate.exists_find? (isTemplate : IsTemplate template parts)
    (inside : Part.hole first ∈ parts) :
    ∃ position, find? (hole first) template = some position := by
  obtain ⟨before, after, rfl⟩ := List.append_of_mem inside
  refine exists_findFrom ⟨templateText before, templateText after, ?_⟩
  rw [isTemplate.whole]
  simp [templateText, Part.characters]

/-- Holes in one place have one name. -/
theorem IsTemplate.holePlace_inj (isTemplate : IsTemplate template parts)
    (firstInside : Part.hole first ∈ parts) (secondInside : Part.hole second ∈ parts)
    (same : holePlace template first = holePlace template second) : first = second := by
  obtain ⟨position, found⟩ := isTemplate.exists_find? firstInside
  obtain ⟨other, otherFound⟩ := isTemplate.exists_find? secondInside
  unfold holePlace at same
  rw [found, otherFound] at same
  cases Nat.succ.inj same
  have bracelessFirst := isTemplate.braceless _ firstInside
  have bracelessSecond := isTemplate.braceless _ secondInside
  have begins := isPrefix_drop_of_findFrom found
  have otherBegins := isPrefix_drop_of_findFrom otherFound
  rcases List.prefix_or_prefix_of_prefix begins otherBegins with start | start
  · rw [← List.append_nil (hole second).toList] at start
    exact ((hole_isPrefix_iff bracelessFirst bracelessSecond).mp start).symm
  · rw [← List.append_nil (hole first).toList] at start
    exact (hole_isPrefix_iff bracelessSecond bracelessFirst).mp start

end Places

/-! ### Holes replaced one after the other -/

/-- The name of a hole after the holes of pairs are replaced one after the other, the old name of
each pair by the new one. -/
def renamed (pairs : List (String × String)) (name : String) : String :=
  pairs.foldl (fun name pair => if name = pair.2 then pair.1 else name) name

section Renaming

variable {name old new target : String} {pairs : List (String × String)}

/-- Replacing holes one after the other renames them one after the other. -/
theorem IsTemplate.replaceAll {text : String} {parts : List Part}
    (isTemplate : IsTemplate text parts)
    (braceless : ∀ pair ∈ pairs, (Part.hole pair.1).IsBraceless ∧ (Part.hole pair.2).IsBraceless) :
    IsTemplate (pairs.foldl (fun text pair => Text.replace (hole pair.2) (hole pair.1) text) text)
      (parts.map (Part.rename (renamed pairs))) := by
  induction pairs generalizing text parts with
  | nil =>
    have same : parts.map (Part.rename (renamed [])) = parts := by
      rw [show Part.rename (renamed []) = id from funext Part.rename_id, List.map_id]
    rw [same]
    exact isTemplate
  | cons pair rest inductionHypothesis =>
    obtain ⟨⟨given, sought⟩, others⟩ := List.forall_mem_cons.mp braceless
    have later := inductionHypothesis (isTemplate.replace sought given) others
    rw [List.map_map] at later
    have step : Part.rename (renamed rest) ∘
        Part.rename (fun name => if name = pair.2 then pair.1 else name) =
          Part.rename (renamed (pair :: rest)) := funext (Part.rename_rename _ _)
    rw [step] at later
    exact later

theorem renamed_of_notMem (absent : name ∉ pairs.map Prod.snd) : renamed pairs name = name := by
  induction pairs with
  | nil => rfl
  | cons pair rest inductionHypothesis =>
    obtain ⟨apart, absent⟩ := not_or.mp (mt List.mem_cons.mpr absent)
    unfold renamed at inductionHypothesis ⊢
    rw [List.foldl_cons, if_neg apart]
    exact inductionHypothesis absent

/-- A hole gets the new name of its pair unless that is the old name of a later pair. -/
theorem renamed_of_mem (distinct : (pairs.map Prod.snd).Nodup)
    (apart : pairs.Pairwise fun earlier later => earlier.1 ≠ later.2)
    (member : (new, old) ∈ pairs) : renamed pairs old = new := by
  induction pairs with
  | nil => cases member
  | cons pair rest inductionHypothesis =>
    obtain ⟨absent, distinct⟩ := List.nodup_cons.mp distinct
    obtain ⟨before, apart⟩ := List.pairwise_cons.mp apart
    show renamed rest (if old = pair.2 then pair.1 else old) = new
    rcases List.mem_cons.mp member with rfl | member
    · rw [if_pos rfl]
      refine renamed_of_notMem fun inside => ?_
      obtain ⟨later, held, same⟩ := List.mem_map.mp inside
      exact before later held same.symm
    · have other : old ≠ pair.2 := fun same =>
        absent (List.mem_map.mpr ⟨_, member, same⟩)
      rw [if_neg other]
      exact inductionHypothesis distinct apart member

/-- Only a pair gives a hole a new name. -/
theorem renamed_ne (absent : target ∉ pairs.map Prod.fst) (differs : name ≠ target) :
    renamed pairs name ≠ target := by
  induction pairs generalizing name with
  | nil => exact differs
  | cons pair rest inductionHypothesis =>
    obtain ⟨apart, absent⟩ := not_or.mp (mt List.mem_cons.mpr absent)
    show renamed rest (if name = pair.2 then pair.1 else name) ≠ target
    refine inductionHypothesis absent ?_
    split
    · exact Ne.symm apart
    · exact differs

/-- No hole keeps a name that a pair replaces and none gives. -/
theorem renamed_ne_of_mem (absent : target ∉ pairs.map Prod.fst)
    (replaced : target ∈ pairs.map Prod.snd) : renamed pairs name ≠ target := by
  induction pairs generalizing name with
  | nil => cases replaced
  | cons pair rest inductionHypothesis =>
    obtain ⟨apart, absent⟩ := not_or.mp (mt List.mem_cons.mpr absent)
    show renamed rest (if name = pair.2 then pair.1 else name) ≠ target
    rcases List.mem_cons.mp replaced with rfl | replaced
    · refine renamed_ne absent ?_
      split
      · exact Ne.symm apart
      · next differs => exact differs
    · exact inductionHypothesis absent replaced

/-- If every new name is given to a hole, none of them is the old name of a later pair. -/
theorem pairwise_of_renamed (distinct : (pairs.map Prod.fst).Nodup)
    (given : ∀ pair ∈ pairs, ∃ name, renamed pairs name = pair.1) :
    pairs.Pairwise fun earlier later => earlier.1 ≠ later.2 := by
  induction pairs with
  | nil => exact List.Pairwise.nil
  | cons pair rest inductionHypothesis =>
    obtain ⟨absent, distinct⟩ := List.nodup_cons.mp distinct
    refine List.pairwise_cons.mpr ⟨fun later held same => ?_, ?_⟩
    · obtain ⟨name, found⟩ := given pair List.mem_cons_self
      exact renamed_ne_of_mem absent (List.mem_map.mpr ⟨later, held, same.symm⟩) found
    · refine inductionHypothesis distinct fun other held => ?_
      obtain ⟨name, found⟩ := given other (List.mem_cons_of_mem _ held)
      exact ⟨_, found⟩

end Renaming

end ServiceForge.Source
