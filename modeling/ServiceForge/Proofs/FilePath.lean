/-
This file proves what joining paths gives. The segments of a joined path are those of its
parts, so a relative path that never goes up leads below whatever it is joined to. The path
of segments has one slash between those that are not empty, and slashes that are repeated or
stand at an end add no segments.
-/

import Mathlib.Data.List.Induction
import ServiceForge.Proofs.Text.Marks
import ServiceForge.Workspace

namespace ServiceForge.FilePath

open ServiceForge.Text

/-! ### Slashes -/

theorem split_of_notMem {text : String} (plain : '/' ∉ text.toList) : split '/' text = [text] := by
  rw [split, List.splitOn_eq_singleton plain]
  simp

theorem split_empty : split '/' "" = [""] := split_of_notMem List.not_mem_nil

/-- A slash between two texts separates their pieces. -/
theorem split_append_slash (first second : String) :
    split '/' (first ++ "/" ++ second) = split '/' first ++ split '/' second := by
  have characters : (first ++ "/" ++ second).toList = first.toList ++ '/' :: second.toList := by
    simp
  rw [split, characters, List.splitOn_append_cons_self, List.map_append]
  rfl

/-- Pieces without slashes are found again in the text that they are joined to. -/
theorem split_join {pieces : List String} (some : pieces ≠ [])
    (plain : ∀ piece ∈ pieces, '/' ∉ piece.toList) : split '/' (Text.join "/" pieces) = pieces := by
  have characters : (Text.join "/" pieces).toList = ['/'].intercalate (pieces.map String.toList) :=
    String.toList_intercalate
  have apart : ∀ piece ∈ pieces.map String.toList, '/' ∉ piece := by simpa using plain
  rw [split, characters, List.splitOn_intercalate '/' apart (by simpa using some)]
  simp

/-- Two lists of pieces without slashes are joined to one path only if they are the same. -/
theorem join_inj {first second : List String} (someFirst : first ≠ []) (someSecond : second ≠ [])
    (plainFirst : ∀ piece ∈ first, '/' ∉ piece.toList)
    (plainSecond : ∀ piece ∈ second, '/' ∉ piece.toList) :
    Text.join "/" first = Text.join "/" second ↔ first = second := by
  refine ⟨fun same => ?_, congrArg _⟩
  rw [← split_join someFirst plainFirst, same, split_join someSecond plainSecond]

/-- The last piece follows the others after a slash. -/
theorem join_concat {pieces : List String} (some : pieces ≠ []) (last : String) :
    Text.join "/" (pieces ++ [last]) = Text.join "/" pieces ++ "/" ++ last := by
  rw [Text.join, String.intercalate_append_of_ne_nil some (List.cons_ne_nil last []),
    String.intercalate_singleton]
  rfl

theorem join_concat_append (pieces : List String) (last ending : String) :
    Text.join "/" (pieces ++ [last ++ ending]) = Text.join "/" (pieces ++ [last]) ++ ending := by
  by_cases some : pieces = []
  · subst some
    exact String.intercalate_singleton.trans
      (congrArg (· ++ ending) String.intercalate_singleton.symm)
  · rw [join_concat some, join_concat some, ← String.append_assoc]

/-- A path is absolute exactly if it begins with a slash. -/
theorem isAbsolute_iff {path : String} :
    isAbsolute path = true ↔ ∃ rest, path.toList = '/' :: rest := by
  have start : isAbsolute path = ['/'].isPrefixOf path.toList := rfl
  rw [start, List.isPrefixOf_iff_prefix, List.singleton_prefix_iff_head?_eq_some,
    List.head?_eq_some_iff]

theorem isAbsolute_of_notMem {path : String} (plain : '/' ∉ path.toList) :
    isAbsolute path = false := by
  refine Bool.eq_false_iff.mpr fun absolute => plain ?_
  obtain ⟨rest, characters⟩ := isAbsolute_iff.mp absolute
  rw [characters]
  exact List.mem_cons_self

/-- What follows a text that is not empty does not make it absolute. -/
theorem isAbsolute_append {first second : String} (filled : first ≠ "") :
    isAbsolute (first ++ second) = isAbsolute first := by
  obtain ⟨head, rest, characters⟩ := List.exists_cons_of_ne_nil
    fun empty => filled (String.toList_eq_nil_iff.mp empty)
  unfold isAbsolute startsWith
  rw [String.toList_append, characters]
  rfl

/-! ### Joined paths -/

theorem join_empty (path : String) : join "" path = path := by simp [join]

section Relative

variable {base path : String} (relative : isAbsolute path = false)

include relative

theorem join_slash (before : String) : join (before ++ "/") path = before ++ "/" ++ path := by
  have filled : (before ++ "/").isEmpty = false := by simp
  have ends : endsWith "/" (before ++ "/") = true := by
    rw [endsWith, List.isSuffixOf_iff_suffix, String.toList_append]
    exact List.suffix_append _ _
  rw [join, relative, filled, Bool.or_self, if_neg Bool.false_ne_true, if_pos ends]

/-- A slash comes between a path and what is appended to it, unless it ends with one. -/
theorem join_open (filled : base ≠ "") (unended : ∀ before, base ≠ before ++ "/") :
    join base path = base ++ "/" ++ path := by
  have proper : base.isEmpty = false := by simpa using filled
  have stops : endsWith "/" base ≠ true := by
    intro ends
    obtain ⟨before, whole⟩ := List.isSuffixOf_iff_suffix.mp ends
    refine unended (String.ofList before) (String.ext_iff.mpr ?_)
    rw [← whole]
    simp
  rw [join, relative, proper, Bool.or_self, if_neg Bool.false_ne_true, if_neg stops]

/-- A path joined to a base is absolute exactly if the base is. -/
theorem isAbsolute_join : isAbsolute (join base path) = isAbsolute base := by
  by_cases filled : base = ""
  · rw [filled, join_empty, relative]
    rfl
  by_cases ends : ∃ before, base = before ++ "/"
  · obtain ⟨before, rfl⟩ := ends
    rw [join_slash relative, isAbsolute_append filled]
  · rw [join_open relative filled (not_exists.mp ends), String.append_assoc,
      isAbsolute_append filled]

/-- An empty part changes nothing once another part follows. -/
theorem join_join_empty : join (join base "") path = join base path := by
  have none : isAbsolute "" = false := rfl
  by_cases filled : base = ""
  · rw [filled, join_empty]
  by_cases ends : ∃ before, base = before ++ "/"
  · obtain ⟨before, rfl⟩ := ends
    rw [join_slash none, String.append_empty]
  · rw [join_open none filled (not_exists.mp ends), String.append_empty, join_slash relative,
      join_open relative filled (not_exists.mp ends)]

/-- Relative paths are told apart after whatever base they are joined to. -/
theorem join_right_inj {other : String} (relativeOther : isAbsolute other = false) :
    join base path = join base other ↔ path = other := by
  unfold join
  rw [relative, relativeOther]
  split
  · rfl
  · split
    · exact String.append_right_inj base
    · exact String.append_right_inj (base ++ "/")

end Relative

/-! ### Paths of segments -/

/-- The segments that show in a path, which are those that are not empty. -/
def visible (segments : List String) : List String :=
  segments.filter fun segment => !segment.isEmpty

theorem join_append_singleton {pieces : List String} {last : String} (filled : last ≠ "")
    (plain : ∀ piece ∈ pieces ++ [last], '/' ∉ piece.toList) {name : String}
    (relative : isAbsolute name = false) :
    join (Text.join "/" (pieces ++ [last])) name =
      Text.join "/" (pieces ++ [last]) ++ "/" ++ name := by
  have found : split '/' (Text.join "/" (pieces ++ [last])) = pieces ++ [last] :=
    split_join (by simp) plain
  refine join_open relative (fun empty => ?_) fun before same => ?_
  · rw [empty, split_of_notMem (by simp)] at found
    have final := congrArg List.getLast? found
    simp [eq_comm, filled] at final
  · rw [same, ← String.append_empty (s := before ++ "/"), split_append_slash,
      split_empty] at found
    have final := congrArg List.getLast? found
    simp [eq_comm, filled] at final

/-- The path of a name below segments has one slash between those that are not empty. -/
theorem join_ofSegments {segments : List String} {name : String}
    (plain : ∀ segment ∈ segments, '/' ∉ segment.toList) (plainName : '/' ∉ name.toList) :
    join (ofSegments segments) name = Text.join "/" (visible segments ++ [name]) := by
  induction segments using List.reverseRecOn generalizing name with
  | nil =>
    rw [ofSegments, List.foldl_nil, join_empty]
    exact (String.intercalate_singleton).symm
  | append_singleton segments last inductionHypothesis =>
    have relative := isAbsolute_of_notMem plainName
    obtain ⟨plainSegments, plainLast⟩ := List.forall_mem_append.mp plain
    have plainLast := List.forall_mem_singleton.mp plainLast
    rw [ofSegments, List.foldl_append]
    show join (join (ofSegments segments) last) name = _
    by_cases empty : last = ""
    · rw [empty, join_join_empty relative, inductionHypothesis plainSegments plainName]
      simp [visible]
    · have kept : visible (segments ++ [last]) = visible segments ++ [last] := by
        simp [visible, empty]
      have plainKept : ∀ piece ∈ visible segments ++ [last], '/' ∉ piece.toList :=
        List.forall_mem_append.mpr ⟨fun piece member =>
          plainSegments piece (List.mem_filter.mp member).1,
          List.forall_mem_singleton.mpr plainLast⟩
      rw [inductionHypothesis plainSegments plainLast,
        join_append_singleton empty plainKept relative, kept,
        join_concat (List.concat_ne_nil last (visible segments))]

/-! ### Extensions -/

/-- Whether an ending makes a name of any plain name. -/
structure IsExtension (extension : String) : Prop where
  plain : '/' ∉ extension.toList
  proper : ∃ character ∈ extension.toList, character ≠ '.'

namespace IsExtension

theorem rust : IsExtension ".rs" := ⟨by decide, 'r', by decide⟩

theorem json : IsExtension ".json" := ⟨by decide, 'j', by decide⟩

theorem python : IsExtension ".py" := ⟨by decide, 'p', by decide⟩

variable {extension : String} (ending : IsExtension extension) (base : String)

include ending

theorem append_ne {dots : String} (only : dots.toList.all (· = '.') = true) :
    base ++ extension ≠ dots := by
  rintro rfl
  obtain ⟨character, member, other⟩ := ending.proper
  refine other (of_decide_eq_true (List.all_eq_true.mp only character ?_))
  rw [String.toList_append]
  exact List.mem_append_right _ member

/-- A name with an extension leads somewhere. -/
theorem isIdle_append : isIdle (base ++ extension) = false := by
  have filled : base ++ extension ≠ "" := ending.append_ne base (by decide)
  have apart : base ++ extension ≠ "." := ending.append_ne base (by decide)
  simp [isIdle, filled, apart]

end IsExtension

/-! ### Paths that lead down -/

/-- Whether a path is relative, never goes up, and ends with a name. -/
structure Descends (path : String) : Prop where
  relative : isAbsolute path = false
  forward : ".." ∉ split '/' path
  named : ∃ name ∈ (split '/' path).getLast?, isIdle name = false

/-- A path that descends has a step. -/
theorem Descends.steps_ne_nil {path : String} (descends : Descends path) : steps path ≠ [] := by
  obtain ⟨name, last, proper⟩ := descends.named
  exact List.ne_nil_of_mem (List.mem_filter.mpr ⟨List.mem_of_getLast? last, by simp [proper]⟩)

end ServiceForge.FilePath

namespace ServiceForge.Text

/-! ### Segments -/

/-- A slash between two texts separates their segments. -/
theorem segments_append_slash (first second : String) :
    segments '/' (first ++ "/" ++ second) = segments '/' first ++ segments '/' second := by
  rw [segments, FilePath.split_append_slash, List.filter_append]
  rfl

theorem segments_slash_append (path : String) : segments '/' ("/" ++ path) = segments '/' path :=
  segments_append_slash "" path

/-- A slash at the end adds no segment. -/
theorem segments_append_slash_empty (path : String) :
    segments '/' (path ++ "/") = segments '/' path := by
  rw [← String.append_empty (s := path ++ "/"), segments_append_slash]
  exact List.append_nil _

theorem segments_of_notMem {segment : String} (filled : segment ≠ "")
    (plain : '/' ∉ segment.toList) : segments '/' segment = [segment] := by
  rw [segments, FilePath.split_of_notMem plain]
  simp [filled]

/-! ### The last segment -/

/-- The pieces of a path are joined to the path again. -/
theorem join_split (path : String) : join "/" (split '/' path) = path := by
  rw [join, ← String.toList_inj, String.toList_intercalate, split, List.map_map]
  simp [Function.comp_def, List.intercalate_splitOn]

/-- No piece of a path has a slash. -/
theorem notMem_of_mem_split {path piece : String} (member : piece ∈ split '/' path) :
    '/' ∉ piece.toList := by
  obtain ⟨characters, inside, rfl⟩ := List.mem_map.mp member
  intro slash
  rw [String.toList_ofList] at slash
  rw [List.splitOn_eq_splitOnP] at inside
  simpa using (mem_of_mem_splitOnP inside slash).2

/-- A path ends with its last piece, after a slash unless it is the only one. -/
theorem append_of_getLast?_split {path last : String}
    (isLast : (split '/' path).getLast? = some last) :
    path = last ∨ ∃ before, path = before ++ "/" ++ last := by
  obtain ⟨others, whole⟩ := List.getLast?_eq_some_iff.mp isLast
  have joined := join_split path
  rw [whole] at joined
  by_cases none : others = []
  · rw [none] at joined
    exact Or.inl (joined.symm.trans String.intercalate_singleton)
  · rw [FilePath.join_concat none] at joined
    exact Or.inr ⟨_, joined.symm⟩

theorem getLast?_split_append_slash {before last : String} (plain : '/' ∉ last.toList) :
    (split '/' (before ++ "/" ++ last)).getLast? = some last := by
  rw [FilePath.split_append_slash, FilePath.split_of_notMem plain]
  exact List.getLast?_concat

/-- Slashes at the end make no segments. -/
theorem segments_trimEnd (path : String) :
    segments '/' (trimEnd (· = '/') path) = segments '/' path := by
  rw [trimEnd]
  obtain ⟨characters, rfl⟩ : ∃ characters, path = String.ofList characters :=
    ⟨path.toList, String.ofList_toList.symm⟩
  rw [String.toList_ofList]
  induction characters using List.reverseRecOn with
  | nil => rfl
  | append_singleton before last inductionHypothesis =>
    by_cases slash : last = '/'
    · rw [dropEndWhile_append_singleton (decide_eq_true slash), inductionHypothesis, slash,
        String.ofList_append]
      exact (segments_append_slash_empty _).symm
    · have kept : dropEndWhile (· = '/') (before ++ [last]) = before ++ [last] := by
        simp [dropEndWhile, slash]
      rw [kept]

/-- Nothing trimmed is left at the end. -/
theorem getLast?_trimEnd {condition : Char → Bool} {text : String} {character : Char}
    (isLast : (trimEnd condition text).toList.getLast? = some character) :
    condition character = false := by
  rw [trimEnd, String.toList_ofList, dropEndWhile, List.getLast?_reverse] at isLast
  have kept := List.head?_dropWhile_not condition text.toList.reverse
  rw [isLast] at kept
  exact kept

/-- The last segment is the last piece of the trimmed path. -/
theorem getLast?_split_trimEnd (path : String) :
    (split '/' (trimEnd (· = '/') path)).getLast?.getD "" =
      (segments '/' path).getLast?.getD "" := by
  rw [← segments_trimEnd]
  generalize trimmed : trimEnd (· = '/') path = text
  cases isLast : (split '/' text).getLast? with
  | none =>
    rw [segments, List.getLast?_eq_none_iff.mp isLast]
    rfl
  | some last =>
    by_cases empty : last = ""
    · subst empty
      rcases append_of_getLast?_split isLast with rfl | ⟨before, rfl⟩
      · rfl
      · have ends : (trimEnd (· = '/') path).toList.getLast? = some '/' := by simp [trimmed]
        cases getLast?_trimEnd ends
    · obtain ⟨others, whole⟩ := List.getLast?_eq_some_iff.mp isLast
      have kept : segments '/' text = FilePath.visible others ++ [last] := by
        simp [segments, FilePath.visible, whole, empty]
      rw [kept, List.getLast?_concat]

end ServiceForge.Text

namespace ServiceForge.Workspace

open ServiceForge.Text
open ServiceForge.FilePath (Descends isAbsolute isIdle steps)

/-- Where a path leads if the directories on the way exist. -/
def target (workspace : Workspace) (path : String) : Location :=
  (split '/' path).foldl step (workspace.start path)

/-- Segments that never go up lead down along those that are not idle. -/
theorem foldl_step {segments : List String} (forward : ".." ∉ segments) (here : Location) :
    segments.foldl step here = here ++ segments.filter fun segment => !isIdle segment := by
  induction segments generalizing here with
  | nil => exact (List.append_nil here).symm
  | cons segment rest inductionHypothesis =>
    obtain ⟨down, later⟩ := not_or.mp (mt List.mem_cons.mpr forward)
    rw [List.foldl_cons, inductionHypothesis later, step]
    by_cases idle : isIdle segment = true
    · simp [idle]
    · simp [idle, Ne.symm down]

/-- Joined to a root, a path that leads down leads from the root along its own steps. -/
theorem target_join {workspace : Workspace} {root path : String} (descends : Descends path) :
    workspace.target (FilePath.join root path) = workspace.target root ++ steps path := by
  have down := fun here => foldl_step descends.forward here
  have start : workspace.start (FilePath.join root path) = workspace.start root := by
    rw [Workspace.start, FilePath.isAbsolute_join descends.relative, Workspace.start]
  unfold target
  rw [start]
  by_cases filled : root = ""
  · rw [filled, FilePath.join_empty, down, FilePath.split_empty]
    rfl
  by_cases ends : ∃ before, root = before ++ "/"
  · obtain ⟨before, rfl⟩ := ends
    have ending : split '/' (before ++ "/") = split '/' before ++ [""] := by
      rw [← String.append_empty (s := before ++ "/"), FilePath.split_append_slash]
      rfl
    rw [FilePath.join_slash descends.relative, FilePath.split_append_slash, List.foldl_append,
      down, ending, List.foldl_append]
    rfl
  · rw [FilePath.join_open descends.relative filled (not_exists.mp ends),
      FilePath.split_append_slash, List.foldl_append, down]
    rfl

end ServiceForge.Workspace
