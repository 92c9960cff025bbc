/-
This file lists the modules of a generated tree: every directory with a module in
it or below it has its immediate children, for a file that declares them. The root
of the tree has none. Modules are recorded first; then each directory becomes a
child of the directory above it, round by round, until a round adds nothing.
-/

import ServiceForge.Generation.File
import ServiceForge.Naming
import ServiceForge.SortedSet

namespace ServiceForge.Generation

open ServiceForge.Text

/-- A child of a directory: a module or a directory. -/
structure Link where
  directory : List String
  child : String
deriving DecidableEq, Repr

/-- The link from the directory above a directory, unless that is the root. -/
def Link.toDirectory? (directory : List String) : Option Link :=
  match directory.dropLast, directory.getLast? with
  | top :: rest, some child => some ⟨top :: rest, child⟩
  | _, _ => none

theorem Link.toDirectory?_eq_some {directory : List String} {link : Link} :
    Link.toDirectory? directory = some link ↔
      link.directory ≠ [] ∧ directory = link.directory ++ [link.child] := by
  obtain ⟨parent, child⟩ := link
  constructor
  · intro found
    unfold Link.toDirectory? at found
    split at found
    · next top rest last above final =>
      cases found
      refine ⟨List.cons_ne_nil top rest, ?_⟩
      obtain ⟨before, rfl⟩ := List.getLast?_eq_some_iff.mp final
      rw [← above, List.dropLast_concat]
    · cases found
  · rintro ⟨filled, rfl⟩
    obtain ⟨top, rest, rfl⟩ := List.exists_cons_of_ne_nil filled
    simp only [Link.toDirectory?, List.dropLast_concat, List.getLast?_concat]

/-! ### Directories -/

/-- Directories with their children, both in ascending order. -/
abbrev Directories := List (List String × List String)

namespace Directories

/-- Adds a child to its directory, which is new if it had none. -/
def add (link : Link) : Directories → Directories
  | [] => [(link.directory, [link.child])]
  | (present, children) :: rest =>
    if link.directory = present then (present, SortedSet.insert link.child children) :: rest
    else if link.directory < present then
      (link.directory, [link.child]) :: (present, children) :: rest
    else (present, children) :: add link rest

/-- Adds links one after another. -/
def addAll (directories : Directories) (links : List Link) : Directories :=
  links.foldl (fun directories link => add link directories) directories

/-- Whether a child is in the list of its directory. -/
def lists (directories : Directories) (link : Link) : Bool :=
  directories.any fun (directory, children) =>
    directory = link.directory && children.contains link.child

/-- The directories that have an entry. -/
def present (directories : Directories) : List (List String) := directories.map Prod.fst

/-- The links that lead to the directories themselves. -/
def links (directories : Directories) : List Link :=
  directories.present.filterMap Link.toDirectory?

/-- The links to directories that their parents do not list. -/
def missing (directories : Directories) : List Link :=
  directories.links.filter fun link => !directories.lists link

theorem mem_lists {directories : Directories} {link : Link} :
    directories.lists link = true ↔
      ∃ children, (link.directory, children) ∈ directories ∧ link.child ∈ children := by
  simp only [lists, List.any_eq_true, Bool.and_eq_true, decide_eq_true_eq, List.contains_iff_mem]
  constructor
  · rintro ⟨⟨directory, children⟩, member, rfl, inside⟩
    exact ⟨children, member, inside⟩
  · rintro ⟨children, member, inside⟩
    exact ⟨(link.directory, children), member, rfl, inside⟩

theorem present_of_lists {directories : Directories} {link : Link}
    (listed : directories.lists link = true) : link.directory ∈ directories.present := by
  obtain ⟨children, member, -⟩ := mem_lists.mp listed
  exact List.mem_map.mpr ⟨_, member, rfl⟩

theorem mem_links {directories : Directories} {link : Link} :
    link ∈ directories.links ↔
      link.directory ≠ [] ∧ link.directory ++ [link.child] ∈ directories.present := by
  simp only [links, List.mem_filterMap, Link.toDirectory?_eq_some]
  constructor
  · rintro ⟨directory, member, filled, rfl⟩
    exact ⟨filled, member⟩
  · rintro ⟨filled, member⟩
    exact ⟨_, member, filled, rfl⟩

theorem mem_missing {directories : Directories} {link : Link} :
    link ∈ directories.missing ↔ link ∈ directories.links ∧ directories.lists link = false := by
  simp [missing, List.mem_filter]

theorem lists_cons (directory children : List String) (rest : Directories) (link : Link) :
    lists ((directory, children) :: rest) link = true ↔
      directory = link.directory ∧ link.child ∈ children ∨ rest.lists link = true := by
  simp [lists]

@[simp] theorem lists_add {directories : Directories} {link other : Link} :
    (directories.add link).lists other = true ↔
      other = link ∨ directories.lists other = true := by
  have same : other = link ↔ link.directory = other.directory ∧ other.child = link.child := by
    rw [Link.mk.injEq, eq_comm]
  induction directories with
  | nil => rw [add, lists_cons, List.mem_singleton, same]
  | cons entry rest inductionHypothesis =>
    obtain ⟨first, children⟩ := entry
    unfold add
    split
    · next hit =>
      rw [lists_cons, lists_cons, SortedSet.mem_insert, same, hit, and_or_left, or_assoc]
    · split
      · rw [lists_cons, List.mem_singleton, same]
      · rw [lists_cons, lists_cons]
        exact (or_congr_right inductionHypothesis).trans or_left_comm

@[simp] theorem mem_present_add {directories : Directories} {link : Link}
    {directory : List String} :
    directory ∈ (directories.add link).present ↔
      directory = link.directory ∨ directory ∈ directories.present := by
  induction directories with
  | nil => simp [add, present]
  | cons entry rest inductionHypothesis =>
    obtain ⟨first, children⟩ := entry
    unfold add
    split
    · next same => simp [present, same]
    · split
      · simp [present]
      · have tail : directory ∈ (add link rest).map Prod.fst ↔
            directory = link.directory ∨ directory ∈ rest.map Prod.fst := inductionHypothesis
        simp only [present, List.map_cons, List.mem_cons, tail, or_left_comm]

theorem lists_addAll {directories : Directories} {links : List Link} {other : Link} :
    (directories.addAll links).lists other = true ↔
      other ∈ links ∨ directories.lists other = true := by
  induction links generalizing directories with
  | nil => simp [addAll]
  | cons link rest inductionHypothesis =>
    have step : directories.addAll (link :: rest) = (directories.add link).addAll rest := rfl
    rw [step, inductionHypothesis, lists_add, List.mem_cons, or_assoc, or_left_comm]

theorem mem_present_addAll {directories : Directories} {links : List Link}
    {directory : List String} :
    directory ∈ (directories.addAll links).present ↔
      (∃ link ∈ links, directory = link.directory) ∨ directory ∈ directories.present := by
  induction links generalizing directories with
  | nil => simp [addAll]
  | cons link rest inductionHypothesis =>
    have step : directories.addAll (link :: rest) = (directories.add link).addAll rest := rfl
    simp [step, inductionHypothesis, or_assoc, or_left_comm]

/-! ### Rounds -/

/-- Adds each directory to the directory above it. -/
def round (directories : Directories) : Directories := directories.addAll directories.links

/-- A link that is missing after a round leads to a directory that was added by it, so it is
shorter than one that was missing before. -/
theorem exists_missing_of_round {directories : Directories} {link : Link}
    (open' : link ∈ directories.round.missing) :
    ∃ longer ∈ directories.missing, link.directory.length < longer.directory.length := by
  obtain ⟨leads, unlisted⟩ := mem_missing.mp open'
  obtain ⟨filled, member⟩ := mem_links.mp leads
  have fresh : link.directory ++ [link.child] ∉ directories.present := by
    intro old
    have listed : directories.round.lists link = true :=
      lists_addAll.mpr (Or.inl (mem_links.mpr ⟨filled, old⟩))
    exact Bool.false_ne_true (unlisted.symm.trans listed)
  rcases mem_present_addAll.mp member with ⟨longer, held, same⟩ | old
  · refine ⟨longer, mem_missing.mpr ⟨held, ?_⟩, ?_⟩
    · refine Bool.eq_false_iff.mpr fun listed => fresh ?_
      rw [same]
      exact present_of_lists listed
    · rw [← same, List.length_append]
      exact Nat.lt_succ_self _
  · exact absurd old fresh

/-- The length of the longest directory that lacks a child. -/
def depth (directories : Directories) : Nat :=
  (directories.missing.map fun link => link.directory.length).foldr max 0

theorem le_foldr_max {lengths : List Nat} {length : Nat} (member : length ∈ lengths) :
    length ≤ lengths.foldr max 0 := by
  induction lengths with
  | nil => cases member
  | cons first rest inductionHypothesis =>
    rcases List.mem_cons.mp member with rfl | member
    · exact Nat.le_max_left _ _
    · exact Nat.le_trans (inductionHypothesis member) (Nat.le_max_right _ _)

theorem foldr_max_lt {lengths : List Nat} {bound : Nat} (positive : 0 < bound)
    (below : ∀ length ∈ lengths, length < bound) : lengths.foldr max 0 < bound := by
  induction lengths with
  | nil => exact positive
  | cons first rest inductionHypothesis =>
    exact Nat.max_lt.mpr ⟨below first List.mem_cons_self,
      inductionHypothesis fun length member => below length (List.mem_cons_of_mem _ member)⟩

theorem length_le_depth {directories : Directories} {link : Link}
    (member : link ∈ directories.missing) : link.directory.length ≤ directories.depth :=
  le_foldr_max (List.mem_map.mpr ⟨link, member, rfl⟩)

theorem depth_round_lt {directories : Directories} (lacking : directories.missing ≠ []) :
    directories.round.depth < directories.depth := by
  obtain ⟨link, rest, whole⟩ := List.exists_cons_of_ne_nil lacking
  have member : link ∈ directories.missing := whole ▸ List.mem_cons_self
  have filled := (mem_links.mp (mem_missing.mp member).1).1
  refine foldr_max_lt ?_ ?_
  · exact Nat.lt_of_lt_of_le (List.length_pos_iff.mpr filled) (length_le_depth member)
  · intro length shorter
    obtain ⟨other, open', rfl⟩ := List.mem_map.mp shorter
    obtain ⟨longer, held, less⟩ := exists_missing_of_round open'
    exact Nat.lt_of_lt_of_le less (length_le_depth held)

/-- Repeats rounds until every directory is a child of the one above it. -/
def close (directories : Directories) : Directories :=
  if directories.missing = [] then directories else close directories.round
termination_by directories.depth
decreasing_by exact depth_round_lt ‹_›

end Directories

/-! ### Indices -/

/-- The directories of generated modules, each with what is directly in it. -/
structure ModuleIndex where
  entries : Directories
deriving DecidableEq, Repr

namespace ModuleIndex

/-- The modules recorded so far. -/
structure Builder where
  entries : Directories := []

namespace Builder

/-- Records a module. Those at the root are ignored. -/
def add (builder : Builder) (record : ModuleRecord) : Builder :=
  if record.directory.isEmpty then builder
  else { entries := builder.entries.add ⟨record.directory, record.name⟩ }

/-- Records several modules. -/
def extend (builder : Builder) (records : List ModuleRecord) : Builder :=
  records.foldl add builder

/-- The recorded modules with all directories above them. -/
def build (builder : Builder) : ModuleIndex := { entries := builder.entries.close }

end Builder

/-- The directories and children that the modules need. -/
def ofRecords (records : List ModuleRecord) : ModuleIndex := (Builder.extend {} records).build

/-- The children of a directory. -/
def children? (index : ModuleIndex) (directory : List String) : Option (List String) :=
  index.entries.lookup directory

/-! ### Files -/

/-- The file that declares the children of a directory. -/
def fileOfEntry (directory children : List String) : File :=
  { path := FilePath.join (FilePath.ofSegments directory) "mod.rs"
    language := .rust
    contents := "//! \x60" ++ join "::" directory ++ "\x60 modules\n\n" ++
      String.join (children.map fun child =>
        "pub mod " ++ Naming.moduleIdentifier child ++ ";\n") }

/-- The files that declare the modules of each directory. -/
def files (index : ModuleIndex) : List File :=
  index.entries.map fun (directory, children) => fileOfEntry directory children

end ModuleIndex

end ServiceForge.Generation
