/-
This file proves what writing leaves behind. A file cannot be written if another one is in the
way to its directory, if a directory has its place, or if its path ends with no name. Otherwise
its path leads to what was written, the directories on the way exist, and no other file is
changed. Files that are written one after another are all there in the end, each where its path
leads; of several with one place the last one is there.
-/

import ServiceForge.Proofs.FilePath.Absolute

namespace ServiceForge.Workspace

open ServiceForge.FilePath (directory isAbsolute isIdle steps)
open ServiceForge.Text

/-! ### Places on the way -/

/-- The places that segments lead through, the last of them included. -/
def along (here : Location) : List String → List Location
  | [] => []
  | segment :: rest => step here segment :: along (step here segment) rest

/-- The directories that have to exist for a file at a path. -/
def needs (workspace : Workspace) (path : String) : List Location :=
  along (workspace.start (directory path)) (split '/' (directory path))

theorem step_of_isIdle {here : Location} {segment : String} (idle : isIdle segment = true) :
    step here segment = here := by
  rw [step, if_pos idle]

/-- Idle segments lead nowhere. -/
theorem foldl_step_filter (here : Location) (segments : List String) :
    (segments.filter fun segment => !isIdle segment).foldl step here = segments.foldl step here := by
  induction segments generalizing here with
  | nil => rfl
  | cons segment rest inductionHypothesis =>
    by_cases idle : isIdle segment = true
    · rw [List.filter_cons_of_neg (by simp [idle]), List.foldl_cons, step_of_isIdle idle]
      exact inductionHypothesis here
    · rw [List.filter_cons_of_pos (by simp [idle])]
      exact inductionHypothesis (step here segment)

/-- Without idle segments the same places are passed, but not the first one again. -/
theorem mem_along_filter {here place : Location} {segments : List String}
    (passed : place ∈ along here segments) :
    place = here ∨ place ∈ along here (segments.filter fun segment => !isIdle segment) := by
  induction segments generalizing here with
  | nil => cases passed
  | cons segment rest inductionHypothesis =>
    by_cases idle : isIdle segment = true
    · rw [along, step_of_isIdle idle] at passed
      rw [List.filter_cons_of_neg (by simp [idle])]
      exact (List.mem_cons.mp passed).elim Or.inl inductionHypothesis
    · rw [List.filter_cons_of_pos (by simp [idle]), along, List.mem_cons]
      rcases List.mem_cons.mp passed with same | later
      · exact Or.inr (Or.inl same)
      · exact Or.inr (inductionHypothesis later)

theorem mem_along_of_filter {here place : Location} {segments : List String}
    (passed : place ∈ along here (segments.filter fun segment => !isIdle segment)) :
    place ∈ along here segments := by
  induction segments generalizing here with
  | nil => cases passed
  | cons segment rest inductionHypothesis =>
    by_cases idle : isIdle segment = true
    · rw [List.filter_cons_of_neg (by simp [idle])] at passed
      rw [along, step_of_isIdle idle]
      exact List.mem_cons_of_mem _ (inductionHypothesis passed)
    · rw [List.filter_cons_of_pos (by simp [idle])] at passed
      rcases List.mem_cons.mp passed with same | later
      · exact List.mem_cons.mpr (Or.inl same)
      · exact List.mem_cons_of_mem _ (inductionHypothesis later)

/-- Segments can be followed if the places before the last one are directories. -/
theorem follow?_concat {workspace : Workspace} {here : Location} {segments : List String}
    {last : String} (start : workspace.isDirectory here = true)
    (passed : ∀ place ∈ along here segments, workspace.isDirectory place = true) :
    workspace.follow? here (segments ++ [last]) = some (step (segments.foldl step here) last) := by
  induction segments generalizing here with
  | nil =>
    rw [List.nil_append, follow?, if_pos start]
    rfl
  | cons segment rest inductionHypothesis =>
    obtain ⟨first, later⟩ := List.forall_mem_cons.mp passed
    rw [List.cons_append, follow?, if_pos start]
    exact inductionHypothesis first later

/-- What can be followed can be followed where more directories exist. -/
theorem follow?_mono {workspace other : Workspace} {here location : Location}
    {segments : List String}
    (more : ∀ place, workspace.isDirectory place = true → other.isDirectory place = true)
    (followed : workspace.follow? here segments = some location) :
    other.follow? here segments = some location := by
  induction segments generalizing here with
  | nil => exact followed
  | cons segment rest inductionHypothesis =>
    rw [follow?] at followed ⊢
    split at followed
    · next found =>
      rw [if_pos (more here found)]
      exact inductionHypothesis followed
    · cases followed

section Current

variable {workspace other : Workspace} (current : other.current = workspace.current)

include current

/-- Where a path starts depends on the current directory alone. -/
theorem start_of_current (path : String) : other.start path = workspace.start path := by
  rw [start, start, current]

theorem target_of_current (path : String) : other.target path = workspace.target path := by
  rw [target, target, start_of_current current]

theorem needs_of_current (path : String) : other.needs path = workspace.needs path := by
  rw [needs, needs, start_of_current current]

theorem locate?_mono {path : String} {location : Location}
    (more : ∀ place, workspace.isDirectory place = true → other.isDirectory place = true)
    (located : workspace.locate? path = some location) : other.locate? path = some location := by
  rw [locate?] at located ⊢
  split at located
  · cases located
  · next filled =>
    rw [if_neg filled, start_of_current current]
    exact follow?_mono more located

end Current

/-! ### Named paths -/

section Named

variable {path name : String} (last : (split '/' path).getLast? = some name)
  (proper : isIdle name = false)

include last proper

/-- A path that ends with a name has it as its last part. -/
theorem parts_of_named : ∃ above, split '/' path = above ++ [name] ∧
    FilePath.parts path = above ++ [name] := by
  obtain ⟨above, whole⟩ := List.getLast?_eq_some_iff.mp last
  refine ⟨above, whole, ?_⟩
  obtain ⟨idle, pieces, each⟩ := FilePath.exists_idle_of_trimmed (split '/' path)
  rw [FilePath.parts_eq, ← whole]
  rcases List.eq_nil_or_concat idle with rfl | ⟨before, final, rfl⟩
  · rw [List.append_nil] at pieces
    exact pieces.symm
  · rw [List.concat_eq_append] at pieces each
    rw [pieces, ← List.append_assoc, List.getLast?_concat] at last
    cases last
    rw [each name (by simp)] at proper
    cases proper

variable (workspace : Workspace)

theorem start_directory : workspace.start (directory path) = workspace.start path := by
  obtain ⟨above, -, named⟩ := parts_of_named last proper
  rw [start, start, FilePath.isAbsolute_directory named]

/-- A file stands in the place that the path of its directory leads to, under its own name. -/
theorem target_of_named (forward : name ≠ "..") :
    workspace.target path =
      (split '/' (directory path)).foldl step (workspace.start (directory path)) ++ [name] := by
  obtain ⟨above, whole, named⟩ := parts_of_named last proper
  have leads : (split '/' (directory path)).foldl step (workspace.start path) =
      above.foldl step (workspace.start path) := by
    rw [← foldl_step_filter, ← foldl_step_filter _ above]
    exact congrArg _ (FilePath.steps_directory named)
  rw [target, whole, List.foldl_concat, start_directory last proper, leads, step,
    if_neg (Bool.eq_false_iff.mp proper), if_neg forward]

end Named

/-! ### Directories -/

/-- Nothing but its directories changes when directories are created. -/
theorem unchanged_addDirectory (workspace : Workspace) (location : Location) :
    (workspace.addDirectory location).files = workspace.files ∧
      (workspace.addDirectory location).current = workspace.current := by
  unfold addDirectory
  split <;> exact ⟨rfl, rfl⟩

theorem isDirectory_addDirectory (workspace : Workspace) (location place : Location) :
    (workspace.addDirectory location).isDirectory place = true ↔
      workspace.isDirectory place = true ∨ place = location := by
  unfold addDirectory
  split
  · next already =>
    refine ⟨Or.inl, fun given => given.elim id ?_⟩
    rintro rfl
    exact already
  · simp [isDirectory, or_assoc]

theorem unchanged_createAlong (workspace : Workspace) (here : Location) (segments : List String) :
    (workspace.createAlong here segments).1.files = workspace.files ∧
      (workspace.createAlong here segments).1.current = workspace.current := by
  induction segments generalizing workspace here with
  | nil => exact ⟨rfl, rfl⟩
  | cons segment rest inductionHypothesis =>
    rw [createAlong]
    split
    · exact ⟨rfl, rfl⟩
    · obtain ⟨files, current⟩ :=
        inductionHypothesis (workspace.addDirectory (step here segment)) (step here segment)
      obtain ⟨sameFiles, sameCurrent⟩ := unchanged_addDirectory workspace (step here segment)
      exact ⟨files.trans sameFiles, current.trans sameCurrent⟩

theorem isFile_addDirectory (workspace : Workspace) (location place : Location) :
    (workspace.addDirectory location).isFile place = workspace.isFile place := by
  rw [isFile, isFile, (unchanged_addDirectory workspace location).1]

/-- Directories are created along segments unless a file is in the way. -/
theorem createAlong_eq_none_iff {workspace : Workspace} {here : Location}
    {segments : List String} :
    (workspace.createAlong here segments).2 = none ↔
      ∃ place ∈ along here segments, workspace.isFile place = true := by
  induction segments generalizing workspace here with
  | nil => exact ⟨nofun, fun ⟨_, passed, _⟩ => nomatch passed⟩
  | cons segment rest inductionHypothesis =>
    rw [createAlong, along]
    by_cases blocked : workspace.isFile (step here segment) = true
    · simp [blocked]
    · simp only [blocked, Bool.false_eq_true, if_false, inductionHypothesis, isFile_addDirectory,
        List.exists_mem_cons_iff, false_or]

theorem createAlong_of_free {workspace : Workspace} {here : Location} {segments : List String}
    (free : ∀ place ∈ along here segments, workspace.isFile place = false) :
    (workspace.createAlong here segments).2 = some (segments.foldl step here) ∧
      ∀ place, (workspace.createAlong here segments).1.isDirectory place = true ↔
        workspace.isDirectory place = true ∨ place ∈ along here segments := by
  induction segments generalizing workspace here with
  | nil => exact ⟨rfl, fun _ => ⟨Or.inl, fun given => given.elim id nofun⟩⟩
  | cons segment rest inductionHypothesis =>
    obtain ⟨first, later⟩ := List.forall_mem_cons.mp free
    have free : ∀ place ∈ along (step here segment) rest,
        (workspace.addDirectory (step here segment)).isFile place = false :=
      fun place member => (isFile_addDirectory _ _ _).trans (later place member)
    obtain ⟨found, directories⟩ := inductionHypothesis free
    rw [createAlong]
    simp only [first, Bool.false_eq_true, if_false]
    refine ⟨found, fun place => ?_⟩
    rw [directories, isDirectory_addDirectory, along, List.mem_cons, or_assoc]

/-! ### One file -/

theorem lookup_addFile_self (workspace : Workspace) (location : Location) (content : String) :
    (workspace.addFile location content).files.lookup location = some content := by
  have none : (workspace.files.filter (·.1 ≠ location)).lookup location = none :=
    List.lookup_eq_none_iff.mpr fun entry member => by
      have apart : entry.1 ≠ location := of_decide_eq_true (List.mem_filter.mp member).2
      exact bne_iff_ne.mpr apart.symm
  rw [addFile, List.lookup_append, none, List.lookup_cons_self]
  rfl

theorem lookup_addFile_of_ne (workspace : Workspace) {location other : Location}
    (apart : other ≠ location) (content : String) :
    (workspace.addFile location content).files.lookup other = workspace.files.lookup other := by
  have kept : (workspace.files.filter (·.1 ≠ location)).lookup other =
      workspace.files.lookup other := by
    induction workspace.files with
    | nil => rfl
    | cons entry rest inductionHypothesis =>
      obtain ⟨place, held⟩ := entry
      by_cases here : place = location
      · rw [List.filter_cons_of_neg (by simp [here]), inductionHypothesis, List.lookup_cons,
          beq_eq_false_iff_ne.mpr (here ▸ apart)]
      · rw [List.filter_cons_of_pos (by simp [here]), List.lookup_cons, List.lookup_cons,
          inductionHypothesis]
  rw [addFile, List.lookup_append, kept, List.lookup_cons, beq_eq_false_iff_ne.mpr apart,
    List.lookup_nil, Option.or_none]

/-- What stands in the way of a file at a path. -/
inductive Blocks (workspace : Workspace) (path : String) : Prop where
  /-- The path ends with no name. -/
  | unnamed (idle : ∀ name ∈ (split '/' path).getLast?, isIdle name = true ∨ name = "..")
  /-- A file stands where a directory is needed. -/
  | file {place : Location} (needed : place ∈ workspace.needs path)
      (taken : workspace.isFile place = true)
  /-- A directory stands in the place of the file. -/
  | directory (taken : workspace.isDirectory (workspace.target path) = true)
  /-- The path leads back to a directory that it needs. -/
  | passed (needed : workspace.target path ∈ workspace.needs path)

/-- The place of a blocked file is refused once the way to its directory has been gone. -/
theorem refused_of_blocks {workspace : Workspace} {path name : String}
    (blocked : workspace.Blocks path)
    (free : ∀ place ∈ workspace.needs path, workspace.isFile place = false)
    (last : (split '/' path).getLast? = some name) :
    (isIdle name || name = ".." ||
      (workspace.createAlong (workspace.start (directory path))
        (split '/' (directory path))).1.isDirectory
          ((split '/' (directory path)).foldl step (workspace.start (directory path)) ++
            [name])) = true := by
  obtain ⟨-, directories⟩ := createAlong_of_free free
  by_contra accepted
  simp only [Bool.or_eq_true, not_or, decide_eq_true_eq] at accepted
  obtain ⟨⟨named, forward⟩, vacant⟩ := accepted
  have proper := Bool.eq_false_iff.mpr named
  rw [← target_of_named last proper workspace forward, directories, not_or] at vacant
  cases blocked with
  | unnamed idle => exact (idle name last).elim named forward
  | file needed taken =>
    rw [free _ needed] at taken
    cases taken
  | directory taken => exact vacant.1 taken
  | passed needed => exact vacant.2 needed

/-- A blocked file is not written, and no other file changes. -/
theorem write_of_blocks {workspace : Workspace} {path : String} (blocked : workspace.Blocks path)
    (content : String) :
    (workspace.write path content).2 = false ∧
      (workspace.write path content).1.files = workspace.files ∧
      (workspace.write path content).1.current = workspace.current := by
  obtain ⟨files, current⟩ := unchanged_createAlong workspace
    (workspace.start (directory path)) (split '/' (directory path))
  unfold write
  cases found : (workspace.createAlong (workspace.start (directory path))
      (split '/' (directory path))).2 with
  | none => exact ⟨by simp [found], by simp [found, files], by simp [found, current]⟩
  | some place =>
    cases last : (split '/' path).getLast? with
    | none => exact ⟨by simp [found], by simp [found, files], by simp [found, current]⟩
    | some name =>
      have free : ∀ place ∈ workspace.needs path, workspace.isFile place = false := by
        intro place needed
        by_contra taken
        have stuck := createAlong_eq_none_iff.mpr
          ⟨place, needed, Bool.not_eq_false _ ▸ taken⟩
        rw [found] at stuck
        cases stuck
      have leads := (createAlong_of_free free).1
      rw [found] at leads
      cases leads
      have refused := refused_of_blocks blocked free last
      exact ⟨by simp [found, refused], by simp [found, refused, files],
        by simp [found, refused, current]⟩

section Free

variable {workspace : Workspace} {path : String} (free : ¬ workspace.Blocks path)

include free

/-- The directories of a file that can be written are created. -/
theorem createAlong_needs :
    (workspace.createAlong (workspace.start (directory path)) (split '/' (directory path))).2 =
        some ((split '/' (directory path)).foldl step (workspace.start (directory path))) ∧
      ∀ place, (workspace.createAlong (workspace.start (directory path))
        (split '/' (directory path))).1.isDirectory place = true ↔
          workspace.isDirectory place = true ∨ place ∈ workspace.needs path :=
  createAlong_of_free fun _ needed => Bool.eq_false_iff.mpr fun taken => free (.file needed taken)

theorem exists_name :
    ∃ name, (split '/' path).getLast? = some name ∧ isIdle name = false ∧ name ≠ ".." := by
  by_contra unnamed
  refine free (.unnamed fun name last => ?_)
  by_contra apart
  obtain ⟨proper, forward⟩ := not_or.mp apart
  exact unnamed ⟨name, last, Bool.eq_false_iff.mpr proper, forward⟩

/-- A file that nothing stands in the way of is written where its path leads. -/
theorem write_of_free (content : String) :
    workspace.write path content =
      ((workspace.createAlong (workspace.start (directory path))
        (split '/' (directory path))).1.addFile (workspace.target path) content, true) := by
  obtain ⟨found, directories⟩ := createAlong_needs free
  obtain ⟨name, last, proper, forward⟩ := exists_name free
  have place := target_of_named last proper workspace forward
  have vacant : (workspace.createAlong (workspace.start (directory path))
      (split '/' (directory path))).1.isDirectory (workspace.target path) = false :=
    Bool.eq_false_iff.mpr fun taken =>
      ((directories _).mp taken).elim (fun held => free (.directory held))
        fun needed => free (.passed needed)
  unfold write
  simp only [found, last, ← place, proper, forward, vacant, decide_false, Bool.or_self,
    Bool.false_eq_true, if_false]

/-- The path of a file can be followed where the directories that it needs exist. -/
theorem locate?_of_needs {after : Workspace} (current : after.current = workspace.current)
    (standing : after.isDirectory after.current = true)
    (directories : ∀ place ∈ workspace.needs path, after.isDirectory place = true) :
    after.locate? path = some (workspace.target path) := by
  obtain ⟨name, last, proper, -⟩ := exists_name free
  obtain ⟨above, whole, named⟩ := parts_of_named last proper
  have begins : after.isDirectory (workspace.start path) = true := by
    rw [← start_of_current current, Workspace.start]
    split
    · rfl
    · exact standing
  have filled : path.isEmpty = false := by
    refine Bool.eq_false_iff.mpr fun empty => ?_
    rw [String.isEmpty_iff.mp empty, FilePath.split_empty] at last
    cases last
    cases proper
  have passed : ∀ place ∈ along (workspace.start path) above, after.isDirectory place = true := by
    intro place member
    rcases mem_along_filter member with rfl | later
    · exact begins
    · rw [← FilePath.steps_directory named, ← start_directory last proper] at later
      exact directories place (mem_along_of_filter later)
  rw [locate?, filled, if_neg Bool.false_ne_true, start_of_current current, whole,
    follow?_concat begins passed, target, whole, List.foldl_concat]

end Free

/-- A file can be written exactly if nothing stands in its way. -/
theorem write_iff {workspace : Workspace} {path content : String} :
    (workspace.write path content).2 = true ↔ ¬ workspace.Blocks path := by
  constructor
  · intro written blocked
    rw [(write_of_blocks blocked content).1] at written
    cases written
  · intro free
    rw [write_of_free free]

/-! ### Several files -/

/-- What a workspace holds after files were written, each a path with its content. -/
structure Holds (before after : Workspace) (written : List (String × String)) : Prop where
  current : after.current = before.current
  /-- In each place is what was written there last. -/
  content : ∀ earlier path content later, written = earlier ++ (path, content) :: later →
    (∀ other ∈ later, before.target other.1 ≠ before.target path) →
      after.files.lookup (before.target path) = some content
  /-- The path of each file leads to it. -/
  leads : before.isDirectory before.current = true →
    ∀ file ∈ written, after.locate? file.1 = some (before.target file.1)
  /-- No other file changes. -/
  others : ∀ location, (∀ file ∈ written, before.target file.1 ≠ location) →
    after.files.lookup location = before.files.lookup location
  /-- There are no other directories than before and those that the files need. -/
  directories : ∀ location, after.isDirectory location = true ↔
    before.isDirectory location = true ∨ ∃ file ∈ written, location ∈ before.needs file.1

namespace Holds

variable {before middle after : Workspace} {written more : List (String × String)}

theorem nil (workspace : Workspace) : Holds workspace workspace [] where
  current := rfl
  content earlier _ _ _ whole := by simp at whole
  leads _ _ member := nomatch member
  others _ _ := rfl
  directories _ := by simp

/-- What is written where nothing is in the way is there. -/
theorem write {workspace : Workspace} {path : String} (free : ¬ workspace.Blocks path)
    (content : String) :
    Holds workspace (workspace.write path content).1 [(path, content)] := by
  obtain ⟨files, current⟩ := unchanged_createAlong workspace
    (workspace.start (directory path)) (split '/' (directory path))
  obtain ⟨-, directories⟩ := createAlong_needs free
  rw [write_of_free free]
  generalize (workspace.createAlong (workspace.start (directory path))
    (split '/' (directory path))).1 = created at files current directories
  refine ⟨current, fun earlier other text later whole _ => ?_, fun standing file member => ?_,
    fun location apart => ?_, fun location => ?_⟩
  · cases earlier with
    | nil =>
      cases whole
      exact lookup_addFile_self _ _ _
    | cons => simp at whole
  · rw [List.mem_singleton.mp member]
    have stands : created.isDirectory created.current = true :=
      (directories _).mpr (Or.inl (current.symm ▸ standing))
    exact locate?_of_needs free current stands fun place needed =>
      (directories place).mpr (Or.inr needed)
  · rw [lookup_addFile_of_ne _ (Ne.symm (apart _ List.mem_cons_self)), files]
  · simp only [List.mem_singleton, exists_eq_left]
    exact directories location

/-- Files that are written after others are there beside them. -/
theorem append (first : Holds before middle written) (second : Holds middle after more) :
    Holds before after (written ++ more) := by
  have same := target_of_current first.current
  refine ⟨second.current.trans first.current, fun earlier path content later whole last => ?_,
    fun standing file member => ?_, fun location apart => ?_, fun location => ?_⟩
  · rcases List.append_eq_append_iff.mp whole with ⟨others, -, rest⟩ | ⟨others, before, rest⟩
    · rw [← same]
      exact second.content others path content later rest fun other member => by
        rw [same, same]
        exact last other member
    · cases others with
      | nil =>
        rw [← same]
        exact second.content [] path content later rest.symm fun other member => by
          rw [same, same]
          exact last other member
      | cons head others =>
        obtain ⟨rfl, rfl⟩ := List.cons.inj rest
        rw [second.others _ fun other member => same other.1 ▸ last other (List.mem_append_right _ member)]
        exact first.content earlier path content others before fun other member =>
          last other (List.mem_append_left _ member)
  · rcases List.mem_append.mp member with own | own
    · exact locate?_mono second.current (fun place held => (second.directories place).mpr (.inl held))
        (first.leads standing file own)
    · rw [← same]
      refine second.leads ?_ file own
      rw [first.current]
      exact (first.directories _).mpr (.inl standing)
  · rw [second.others location fun file member =>
        same file.1 ▸ apart file (List.mem_append_right _ member),
      first.others location fun file member => apart file (List.mem_append_left _ member)]
  · rw [second.directories, first.directories, or_assoc]
    simp only [needs_of_current first.current, List.mem_append, or_and_right, exists_or]

/-- A file that no later one takes the place of is read as it was written. -/
theorem read? (holds : Holds before after written)
    (standing : before.isDirectory before.current = true) {earlier later : List (String × String)}
    {path content : String} (whole : written = earlier ++ (path, content) :: later)
    (last : ∀ other ∈ later, before.target other.1 ≠ before.target path) :
    after.read? path = some content := by
  have led := holds.leads standing (path, content) (by simp [whole])
  rw [Workspace.read?, led]
  exact holds.content earlier path content later whole last

end Holds

end ServiceForge.Workspace
