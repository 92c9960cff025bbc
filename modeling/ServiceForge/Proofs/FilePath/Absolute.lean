/-
This file proves where paths lead by their text alone. A path joined to a base leads where it
leads from there, and the directory of a file leads to where the file is. A path as seen from
a directory leads from that directory to where the path itself leads.
-/

import ServiceForge.Proofs.FilePath

namespace ServiceForge.FilePath

open ServiceForge.Text

/-! ### Steps -/

/-- Whether a text is one segment of a path that leads somewhere. -/
structure IsStep (step : String) : Prop where
  plain : '/' ∉ step.toList
  proper : isIdle step = false

/-- A slash between two texts separates their steps. -/
theorem steps_append_slash (first second : String) :
    steps (first ++ "/" ++ second) = steps first ++ steps second := by
  rw [steps, split_append_slash, List.filter_append]
  rfl

/-- Each step of a path is a segment that leads somewhere. -/
theorem isStep_of_mem_steps {path step : String} (member : step ∈ steps path) : IsStep step := by
  obtain ⟨inside, proper⟩ := List.mem_filter.mp member
  exact ⟨notMem_of_mem_split inside, by simpa using proper⟩

theorem steps_of_isStep {step : String} (isStep : IsStep step) : steps step = [step] := by
  simp [steps, split_of_notMem isStep.plain, isStep.proper]

/-- An absolute path begins with an empty segment before another one. -/
theorem isAbsolute_iff_split {path : String} :
    isAbsolute path = true ↔ ∃ second rest, split '/' path = "" :: second :: rest := by
  rw [isAbsolute_iff]
  constructor
  · rintro ⟨rest, characters⟩
    have whole : path = "" ++ "/" ++ String.ofList rest := by
      rw [← String.toList_inj, characters]
      simp
    have some : split '/' (String.ofList rest) ≠ [] := by
      rw [split]
      exact mt List.map_eq_nil_iff.mp (List.splitOn_ne_nil _ _)
    obtain ⟨second, more, pieces⟩ := List.exists_cons_of_ne_nil some
    rw [whole, split_append_slash, split_empty, pieces]
    exact ⟨second, more, rfl⟩
  · rintro ⟨second, rest, pieces⟩
    have joined := join_split path
    rw [pieces, Text.join, String.intercalate_cons_cons] at joined
    exact ⟨("/".intercalate (second :: rest)).toList, by simp [← joined]⟩

section Names

variable {names : List String} (each : ∀ name ∈ names, IsStep name)

include each

theorem split_joined (some : names ≠ []) : split '/' (Text.join "/" names) = names :=
  split_join some fun name member => (each name member).plain

/-- Joined names lead through each of them. -/
theorem steps_joined : steps (Text.join "/" names) = names := by
  by_cases none : names = []
  · subst none
    rfl
  · rw [steps, split_joined each none]
    exact List.filter_eq_self.mpr fun name member => by simp [(each name member).proper]

/-- Joined names make a relative path. -/
theorem isAbsolute_joined : isAbsolute (Text.join "/" names) = false := by
  refine Bool.eq_false_iff.mpr fun absolute => ?_
  obtain ⟨second, rest, pieces⟩ := isAbsolute_iff_split.mp absolute
  by_cases none : names = []
  · subst none
    cases absolute
  · rw [split_joined each none] at pieces
    subst pieces
    cases (each "" List.mem_cons_self).proper

end Names

/-! ### Joined paths -/

section Relative

variable {path : String} (relative : isAbsolute path = false)

include relative

/-- The pieces of a joined path are those of the path, after some that lead to the base. -/
theorem exists_split_join (base : String) :
    ∃ above, split '/' (join base path) = above ++ split '/' path ∧
      (above.filter fun segment => !isIdle segment) = steps base := by
  by_cases filled : base = ""
  · rw [filled, join_empty]
    exact ⟨[], rfl, rfl⟩
  by_cases ends : ∃ before, base = before ++ "/"
  · obtain ⟨before, rfl⟩ := ends
    have idle : steps (before ++ "/") = steps before := by
      rw [← String.append_empty (s := before ++ "/"), steps_append_slash]
      exact List.append_nil _
    rw [join_slash relative, split_append_slash, idle]
    exact ⟨split '/' before, rfl, rfl⟩
  · rw [join_open relative filled (not_exists.mp ends), split_append_slash]
    exact ⟨split '/' base, rfl, rfl⟩

/-- A relative path leads on from the base that it is joined to. -/
theorem steps_join (base : String) : steps (join base path) = steps base ++ steps path := by
  obtain ⟨above, pieces, leads⟩ := exists_split_join relative base
  rw [steps, pieces, List.filter_append, leads]
  rfl

end Relative

/-- A path joined to a base leads where it leads from the base. -/
theorem absoluteSteps_join (current : List String) (base path : String) :
    absoluteSteps current (join base path) = absoluteSteps (absoluteSteps current base) path := by
  cases absolute : isAbsolute path with
  | true => simp [join, absoluteSteps, absolute]
  | false =>
    rw [absoluteSteps, isAbsolute_join absolute, steps_join absolute, absoluteSteps, absolute,
      absoluteSteps]
    cases isAbsolute base
    · exact (List.append_assoc _ _ _).symm
    · rfl

/-- A name below a directory is one step further. -/
theorem absoluteSteps_join_name (current : List String) (base : String) {name : String}
    (isStep : IsStep name) :
    absoluteSteps current (join base name) = absoluteSteps current base ++ [name] := by
  rw [absoluteSteps_join, absoluteSteps, isAbsolute_of_notMem isStep.plain,
    steps_of_isStep isStep]
  rfl

/-! ### Directories -/

/-- Segments without the idle ones at the end, but with a point that begins them. -/
def trimmed : List String → List String
  | [] => []
  | first :: rest => if first = "." then first :: dropIdleEnd rest else dropIdleEnd (first :: rest)

theorem exists_idle_of_dropIdleEnd (segments : List String) :
    ∃ idle, segments = dropIdleEnd segments ++ idle ∧ ∀ segment ∈ idle, isIdle segment = true := by
  induction segments with
  | nil => exact ⟨[], rfl, List.forall_mem_nil _⟩
  | cons first rest inductionHypothesis =>
    obtain ⟨idle, whole, each⟩ := inductionHypothesis
    rw [dropIdleEnd]
    split
    · next none =>
      rw [none, List.nil_append] at whole
      subst whole
      split
      · next isIdle => exact ⟨first :: rest, rfl, List.forall_mem_cons.mpr ⟨isIdle, each⟩⟩
      · exact ⟨rest, rfl, each⟩
    · exact ⟨idle, congrArg (first :: ·) whole, each⟩

theorem proper_of_getLast?_dropIdleEnd {segments : List String} {last : String}
    (isLast : (dropIdleEnd segments).getLast? = some last) : isIdle last = false := by
  induction segments with
  | nil => cases isLast
  | cons first rest inductionHypothesis =>
    rw [dropIdleEnd] at isLast
    split at isLast
    · split at isLast
      · cases isLast
      · next proper =>
        cases isLast
        exact Bool.eq_false_iff.mpr proper
    · next some =>
      rw [List.getLast?_cons_of_ne_nil some] at isLast
      exact inductionHypothesis isLast

/-- Only idle segments are trimmed. -/
theorem exists_idle_of_trimmed (segments : List String) :
    ∃ idle, segments = trimmed segments ++ idle ∧ ∀ segment ∈ idle, isIdle segment = true := by
  cases segments with
  | nil => exact ⟨[], rfl, List.forall_mem_nil _⟩
  | cons first rest =>
    rw [trimmed]
    split
    · obtain ⟨idle, whole, each⟩ := exists_idle_of_dropIdleEnd rest
      exact ⟨idle, congrArg (first :: ·) whole, each⟩
    · exact exists_idle_of_dropIdleEnd (first :: rest)

theorem proper_of_getLast?_trimmed {segments : List String} {last : String}
    (isLast : (trimmed segments).getLast? = some last) (other : last ≠ ".") :
    isIdle last = false := by
  cases segments with
  | nil => cases isLast
  | cons first rest =>
    rw [trimmed] at isLast
    split at isLast
    · next point =>
      by_cases none : dropIdleEnd rest = []
      · rw [none] at isLast
        cases isLast
        exact absurd point other
      · rw [List.getLast?_cons_of_ne_nil none] at isLast
        exact proper_of_getLast?_dropIdleEnd isLast
    · exact proper_of_getLast?_dropIdleEnd isLast

/-- Trimmed segments have the same steps. -/
theorem filter_trimmed (segments : List String) :
    (trimmed segments).filter (fun segment => !isIdle segment) =
      segments.filter fun segment => !isIdle segment := by
  obtain ⟨idle, whole, each⟩ := exists_idle_of_trimmed segments
  have none : idle.filter (fun segment => !isIdle segment) = [] :=
    List.filter_eq_nil_iff.mpr fun segment member => by simp [each segment member]
  conv_rhs => rw [whole, List.filter_append, none, List.append_nil]

theorem parts_eq (path : String) : parts path = trimmed (split '/' path) := by
  unfold parts
  cases split '/' path <;> rfl

section Above

variable {path name : String} {above : List String}

theorem split_joined_trimmed (begins : above <+: split '/' path) (some : trimmed above ≠ []) :
    split '/' (Text.join "/" (trimmed above)) = trimmed above := by
  obtain ⟨idle, whole, -⟩ := exists_idle_of_trimmed above
  refine split_join some fun piece member => notMem_of_mem_split (begins.subset ?_)
  rw [whole]
  exact List.mem_append_left idle member

/-- Trimmed segments make an absolute path if they begin one. -/
theorem isAbsolute_joined_trimmed (begins : above <+: split '/' path) (some : trimmed above ≠ []) :
    isAbsolute (Text.join "/" (trimmed above)) = isAbsolute path := by
  obtain ⟨idle, whole, -⟩ := exists_idle_of_trimmed above
  have own := split_joined_trimmed begins some
  obtain ⟨rest, pieces⟩ := begins
  rw [whole, List.append_assoc] at pieces
  rw [Bool.eq_iff_iff, isAbsolute_iff_split, isAbsolute_iff_split, own, ← pieces]
  constructor
  · rintro ⟨second, more, same⟩
    rw [same]
    exact ⟨second, more ++ (idle ++ rest), rfl⟩
  · rintro ⟨second, more, same⟩
    match kept : trimmed above with
    | [] => exact absurd kept some
    | [first] =>
      rw [kept] at same
      cases List.head_eq_of_cons_eq same
      have ends : (trimmed above).getLast? = Option.some "" := by rw [kept]; rfl
      cases proper_of_getLast?_trimmed ends (by decide)
    | first :: next :: others =>
      rw [kept] at same
      cases List.head_eq_of_cons_eq same
      exact ⟨next, others, rfl⟩

variable (named : parts path = above ++ [name])

include named

/-- The directory of a path is the path of the trimmed segments above its name. -/
theorem directory_eq :
    directory path =
      if (trimmed above).isEmpty && isAbsolute path then "/"
      else Text.join "/" (trimmed above) := by
  unfold directory parent?
  rw [named]
  cases above with
  | nil => cases isAbsolute path <;> rfl
  | cons first rest =>
    have kept : trimmed (first :: rest) =
        if first = "." then "." :: dropIdleEnd rest else dropIdleEnd (first :: rest) := by
      rw [trimmed]
      split
      · next point => rw [point]
      · rfl
    have above : (first :: rest ++ [name]).dropLast = first :: rest := List.dropLast_concat
    simp only [List.cons_append] at above
    simp [above, kept]

theorem prefix_of_parts : above <+: split '/' path := by
  obtain ⟨idle, whole, -⟩ := exists_idle_of_trimmed (split '/' path)
  rw [whole, ← parts_eq, named, List.append_assoc]
  exact List.prefix_append _ _

/-- The directory of a path is absolute exactly if the path is. -/
theorem isAbsolute_directory : isAbsolute (directory path) = isAbsolute path := by
  rw [directory_eq named]
  by_cases none : trimmed above = []
  · rw [none]
    cases isAbsolute path <;> rfl
  · simp only [List.isEmpty_eq_false_iff.mpr none, Bool.false_and, Bool.false_eq_true, if_false]
    exact isAbsolute_joined_trimmed (prefix_of_parts named) none

/-- The steps to the directory of a path are those of the segments above its name. -/
theorem steps_directory :
    steps (directory path) = above.filter fun segment => !isIdle segment := by
  rw [directory_eq named, ← filter_trimmed]
  by_cases none : trimmed above = []
  · rw [none]
    cases isAbsolute path <;> rfl
  · simp only [List.isEmpty_eq_false_iff.mpr none, Bool.false_and, Bool.false_eq_true, if_false]
    rw [steps, split_joined_trimmed (prefix_of_parts named) none]

end Above

/-- The name of a file is a step that does not lead up. -/
theorem isStep_of_fileName? {path name : String} (file : fileName? path = some name) :
    IsStep name ∧ name ≠ ".." := by
  obtain ⟨isLast, proper⟩ := Option.filter_eq_some_iff.mp file
  obtain ⟨point, forward⟩ := Bool.and_eq_true_iff.mp proper
  rw [parts_eq] at isLast
  obtain ⟨idle, whole, -⟩ := exists_idle_of_trimmed (split '/' path)
  have inside : name ∈ split '/' path := by
    rw [whole]
    exact List.mem_append_left idle (List.mem_of_getLast? isLast)
  exact ⟨⟨notMem_of_mem_split inside,
    proper_of_getLast?_trimmed isLast (of_decide_eq_true point)⟩, of_decide_eq_true forward⟩

/-- The name of a file comes after the steps to its directory. -/
theorem absoluteSteps_directory (current : List String) {path name : String}
    (file : fileName? path = some name) :
    absoluteSteps current path = absoluteSteps current (directory path) ++ [name] := by
  obtain ⟨isStep, -⟩ := isStep_of_fileName? file
  obtain ⟨above, named⟩ := List.getLast?_eq_some_iff.mp (Option.filter_eq_some_iff.mp file).1
  have whole : steps path = steps (directory path) ++ [name] := by
    rw [steps_directory named, steps, ← filter_trimmed, ← parts_eq, named, List.filter_append]
    simp [isStep.proper]
  rw [absoluteSteps, absoluteSteps, isAbsolute_directory named, whole]
  cases isAbsolute path
  · exact (List.append_assoc _ _ _).symm
  · rfl

/-- A file below a directory has the name that was joined to the directory. -/
theorem fileName?_join (base : String) {name : String} (isStep : IsStep name)
    (forward : name ≠ "..") : fileName? (join base name) = some name := by
  obtain ⟨above, pieces, -⟩ := exists_split_join (isAbsolute_of_notMem isStep.plain) base
  rw [split_of_notMem isStep.plain] at pieces
  obtain ⟨idle, whole, each⟩ := exists_idle_of_trimmed (above ++ [name])
  have none : idle = [] := by
    by_contra some
    have isLast := congrArg List.getLast? whole
    rw [List.getLast?_concat, List.getLast?_append_of_ne_nil _ some] at isLast
    have idle := each name (List.mem_of_getLast? isLast.symm)
    rw [isStep.proper] at idle
    cases idle
  have point : name ≠ "." := by
    rintro rfl
    cases isStep.proper
  rw [none, List.append_nil] at whole
  rw [fileName?, parts_eq, pieces, ← whole, List.getLast?_concat]
  simp [point, forward]

/-! ### Paths as seen from directories -/

/-- Replacing a character that does not occur changes nothing. -/
theorem replaceCharacter_of_notMem {old : Char} {text : String} (absent : old ∉ text.toList)
    (new : String) : replaceCharacter old new text = text := by
  have each : ∀ character ∈ text.toList,
      (if character = old then new.toList else [character]) = [character] :=
    fun _ member => if_neg (ne_of_mem_of_not_mem member absent)
  rw [replaceCharacter, List.flatMap_congr each]
  simp

/-- A character that is in no name and is no slash is not in the joined names. -/
theorem notMem_joined {character : Char} (apart : character ≠ '/') {names : List String}
    (each : ∀ name ∈ names, character ∉ name.toList) :
    character ∉ (Text.join "/" names).toList := by
  intro member
  rw [Text.join, String.toList_intercalate] at member
  rcases mem_of_mem_intercalate member with slash | ⟨piece, isPiece, inside⟩
  · exact apart (List.mem_singleton.mp slash)
  · obtain ⟨name, held, rfl⟩ := List.mem_map.mp isPiece
    exact each name held inside

/-- The steps that a file is seen by from a directory: those below the directory, or all of them if
the file is not below it. -/
def seenSteps (current : List String) (path directory : String) : List String :=
  if directory.isEmpty then absoluteSteps current path
  else
    ((absoluteSteps current directory).isPrefixOf? (absoluteSteps current path)).getD
      (absoluteSteps current path)

/-- A path as seen from a directory is its absolute one or the joined steps below the directory. -/
theorem relativeTo_cases (current : List String) (path directory : String) :
    (seenSteps current path directory = absoluteSteps current path ∧
      relativeTo current path directory = replaceCharacter '\\' "/" (absolute current path)) ∨
    (absoluteSteps current directory ++ seenSteps current path directory =
        absoluteSteps current path ∧
      relativeTo current path directory =
        replaceCharacter '\\' "/" (Text.join "/" (seenSteps current path directory))) := by
  rw [relativeTo, seenSteps]
  split
  · exact .inl ⟨rfl, rfl⟩
  · cases below : (absoluteSteps current directory).isPrefixOf? (absoluteSteps current path) with
    | none => exact .inl ⟨rfl, rfl⟩
    | some rest => exact .inr ⟨List.isPrefixOf?_eq_some_iff_append_eq.mp below, rfl⟩

/-- All steps to a path are those to the current directory and its own, or only its own. -/
theorem seenSteps_subset (current : List String) (path directory : String) :
    seenSteps current path directory ⊆ absoluteSteps current path := by
  rcases relativeTo_cases current path directory with ⟨same, -⟩ | ⟨whole, -⟩
  · exact same ▸ List.Subset.refl _
  · exact whole ▸ List.subset_append_right _ _

/-- Replaced characters do not occur. -/
theorem notMem_replaceCharacter {old : Char} {new : String} (other : old ∉ new.toList)
    (text : String) : old ∉ (replaceCharacter old new text).toList := by
  rw [replaceCharacter, String.toList_ofList, List.mem_flatMap]
  rintro ⟨character, -, member⟩
  split at member
  · exact other member
  · next apart => exact apart (List.mem_singleton.mp member).symm

/-- A character that is not in a path is in none of its steps. -/
theorem notMem_of_mem_steps {path step : String} {character : Char}
    (absent : character ∉ path.toList) (member : step ∈ steps path) : character ∉ step.toList := by
  obtain ⟨piece, isPiece, rfl⟩ := List.mem_map.mp (List.mem_filter.mp member).1
  rw [String.toList_ofList]
  rw [List.splitOn_eq_splitOnP] at isPiece
  exact fun inside => absent (mem_of_mem_splitOnP isPiece inside).1

theorem notMem_of_mem_absoluteSteps {current : List String} {path step : String} {character : Char}
    (above : ∀ step ∈ current, character ∉ step.toList) (absent : character ∉ path.toList)
    (member : step ∈ absoluteSteps current path) : character ∉ step.toList := by
  rw [absoluteSteps] at member
  split at member
  · exact notMem_of_mem_steps absent member
  · exact (List.mem_append.mp member).elim (above step) (notMem_of_mem_steps absent)

/-- A path stays absolute when another character than the slash is replaced. -/
theorem isAbsolute_replaceCharacter {old : Char} {path : String} (apart : old ≠ '/') (new : String)
    (absolute : isAbsolute path = true) : isAbsolute (replaceCharacter old new path) = true := by
  obtain ⟨rest, characters⟩ := isAbsolute_iff.mp absolute
  rw [isAbsolute_iff, replaceCharacter, characters, String.toList_ofList, List.flatMap_cons,
    if_neg apart.symm]
  exact ⟨_, rfl⟩

section Seen

variable {current : List String} (located : ∀ step ∈ current, IsStep step)

include located

theorem isStep_of_mem_absoluteSteps {path step : String}
    (member : step ∈ absoluteSteps current path) : IsStep step := by
  rw [absoluteSteps] at member
  split at member
  · exact isStep_of_mem_steps member
  · exact (List.mem_append.mp member).elim (located step) isStep_of_mem_steps

variable {path : String}

/-- The absolute path of a file leads to it from everywhere. -/
theorem absoluteSteps_absolute (start : List String) :
    absoluteSteps start (absolute current path) = absoluteSteps current path := by
  have own : steps (ofSteps (absoluteSteps current path)) = absoluteSteps current path :=
    (steps_append_slash "" _).trans
      (steps_joined fun step => isStep_of_mem_absoluteSteps located)
  have begins (rest : String) : isAbsolute ("/" ++ rest) = true :=
    isAbsolute_iff.mpr ⟨rest.toList, by simp⟩
  rw [absolute]
  split
  · rw [absoluteSteps, begins, if_pos rfl]
    exact (steps_append_slash "" _).trans own
  · rw [String.empty_append, absoluteSteps, ofSteps, if_pos (begins _), ← ofSteps, own]

omit located in
theorem isAbsolute_absolute : isAbsolute (absolute current path) = true := by
  rw [isAbsolute_iff, absolute, ofSteps]
  split
  · exact ⟨('/' :: (Text.join "/" (absoluteSteps current path)).toList), by simp⟩
  · exact ⟨(Text.join "/" (absoluteSteps current path)).toList, by simp⟩

/-- A path as seen from a directory leads from there to where the path leads exactly if the steps
that it is seen by have no backslash, since a backslash is written as a slash. -/
theorem absoluteSteps_relativeTo_iff (directory : String) :
    absoluteSteps (absoluteSteps current directory) (relativeTo current path directory) =
        absoluteSteps current path ↔
      ∀ step ∈ seenSteps current path directory, '\\' ∉ step.toList := by
  have absent : '\\' ∉ (relativeTo current path directory).toList :=
    notMem_replaceCharacter (by decide) _
  constructor
  · intro back step member
    -- What is written has no backslash, and it leads through all the steps that are seen.
    refine notMem_of_mem_steps absent ?_
    rw [absoluteSteps] at back
    split at back
    · exact back ▸ seenSteps_subset current path directory member
    · next relative =>
      rcases relativeTo_cases current path directory with ⟨-, written⟩ | ⟨whole, -⟩
      · refine absurd ?_ relative
        rw [written]
        exact isAbsolute_replaceCharacter (by decide) "/" isAbsolute_absolute
      · exact List.append_cancel_left (back.trans whole.symm) ▸ member
  · intro plain
    rcases relativeTo_cases current path directory with ⟨same, written⟩ | ⟨whole, written⟩
    · rw [same] at plain
      have none : '\\' ∉ (absolute current path).toList := by
        have joined := notMem_joined (by decide) plain
        rw [absolute, ofSteps]
        split <;> simp [joined]
      rw [written, replaceCharacter_of_notMem none, absoluteSteps_absolute located]
    · have each : ∀ step ∈ seenSteps current path directory, IsStep step := fun step member =>
        isStep_of_mem_absoluteSteps located (seenSteps_subset current path directory member)
      rw [written, replaceCharacter_of_notMem (notMem_joined (by decide) plain), absoluteSteps,
        isAbsolute_joined each, steps_joined each]
      exact whole

end Seen

end ServiceForge.FilePath
